import Mathlib.Data.List.Basic
import Mathlib.Algebra.BigOperators.Group.List.Basic
import Mathlib.Algebra.GroupWithZero.Nat

namespace CreditFabric.Lib

/-!
# Serial histories

A partial machine answers an action with its next state, or has no step for it.  `serial` runs
a list of actions, and gives no state once an action has no step.

* `serial_concat`: a history grows at its end by one step.
* `serial_sum`: a quantity to which every step adds what its action is worth is, behind a
  history, the sum over the actions.
-/

variable {S A : Type*} {step : S → A → Option S} {s s' : S}

/-- The state behind a list of actions, if each of them has its step. -/
def serial (step : S → A → Option S) (s : S) (history : List A) : Option S :=
  history.foldlM step s

/-- No steps. -/
@[simp] theorem serial_nil : serial step s [] = some s := rfl

/-- One step and then the others. -/
theorem serial_cons {a : A} {rest : List A} (h : step s a = some s') :
    serial step s (a :: rest) = serial step s' rest := by
  unfold serial
  rw [List.foldlM_cons, h]
  rfl

/-- Steps that can be made begin with the first. -/
theorem serial_cons_inv {a : A} {rest : List A} (h : serial step s (a :: rest) = some s') :
    ∃ s₁, step s a = some s₁ ∧ serial step s₁ rest = some s' := by
  cases hstep : step s a with
  | none =>
    unfold serial at h
    rw [List.foldlM_cons, hstep] at h
    exact absurd h (by simp)
  | some s₁ =>
    rw [serial_cons hstep] at h
    exact ⟨s₁, rfl, h⟩

/-- A history that is carried on by one action. -/
theorem serial_concat {history : List A} {a : A} {s₁ : S} (h : serial step s history = some s₁)
    (hstep : step s₁ a = some s') : serial step s (history ++ [a]) = some s' := by
  induction history generalizing s with
  | nil =>
    rw [serial_nil, Option.some.injEq] at h
    subst h
    exact (serial_cons hstep).trans rfl
  | cons b rest ih =>
    obtain ⟨s₂, hb, hrest⟩ := serial_cons_inv h
    rw [List.cons_append, serial_cons hb]
    exact ih hrest

/-- **Sum rule.**  What each action adds adds up. -/
theorem serial_sum {q : S → Nat} {g : A → Nat}
    (hstep : ∀ s a s', step s a = some s' → q s' = q s + g a)
    {history : List A} (h : serial step s history = some s') :
    q s' = q s + (history.map g).sum := by
  induction history generalizing s with
  | nil =>
    rw [serial_nil, Option.some.injEq] at h
    rw [h, List.map_nil, List.sum_nil, Nat.add_zero]
  | cons a rest ih =>
    obtain ⟨s₁, hfirst, hrest⟩ := serial_cons_inv h
    calc q s' = q s₁ + (rest.map g).sum := ih hrest
      _ = q s + g a + (rest.map g).sum := by rw [hstep s a s₁ hfirst]
      _ = q s + ((a :: rest).map g).sum := by
        rw [List.map_cons, List.sum_cons, Nat.add_assoc]

end CreditFabric.Lib
