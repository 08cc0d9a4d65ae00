import Mathlib.Logic.Function.Basic
import Mathlib.Tactic.Common

namespace CreditFabric.Lib

open Function (Injective)

/-!
# Word mixing

The steps word hashes are made of lose nothing: a word xored with a shift of itself, and a
product with a word that has an inverse.  A fold whose steps lose nothing keeps apart two
sequences that differ in one word (`foldl_ne_of_change`), whatever follows that word.
-/

/-! ### Single steps -/

/-- A word is determined by its xor with a shift of itself. -/
theorem xorShift_injective {k : UInt64} (hk : 0 < k.toNat % 64) :
    Injective fun x : UInt64 => x ^^^ (x >>> k) := by
  intro x y h
  -- the difference of the two words is its own shift, so it has no highest bit
  have hdiff : (x ^^^ y) >>> k = x ^^^ y := by
    rw [UInt64.shiftRight_xor]
    have hboth : x ^^^ (x >>> k) ^^^ (y ^^^ (y >>> k)) = 0 := by
      rw [show x ^^^ (x >>> k) = y ^^^ (y >>> k) from h, UInt64.xor_self]
    have hswap : x >>> k ^^^ y >>> k ^^^ (x ^^^ y) = x ^^^ (x >>> k) ^^^ (y ^^^ (y >>> k)) := by
      ac_rfl
    rw [← UInt64.xor_eq_zero_iff, hswap, hboth]
  have hzero : (x ^^^ y).toNat = 0 := by
    have hnat := congrArg UInt64.toNat hdiff
    rw [UInt64.toNat_shiftRight, Nat.shiftRight_eq_div_pow] at hnat
    by_contra hpos
    have hlt := Nat.div_lt_self (Nat.pos_of_ne_zero hpos)
      (Nat.one_lt_two_pow (n := k.toNat % 64) (by omega))
    omega
  rw [← UInt64.xor_eq_zero_iff, ← UInt64.toNat_inj]
  exact hzero

/-- A factor with an inverse loses nothing. -/
theorem mul_injective {c d : UInt64} (h : c * d = 1) : Injective fun x : UInt64 => x * c := by
  intro x y hxy
  have hcancel := congrArg (· * d) hxy
  simpa [UInt64.mul_assoc, h] using hcancel

/-! ### Folds -/

section Fold

variable {σ ω : Type} {step : σ → ω → σ}

/-- Two states stay apart, whatever is absorbed. -/
theorem foldl_injective (hstate : ∀ w, Injective fun s => step s w) (ws : List ω) :
    Injective fun s => ws.foldl step s := by
  induction ws with
  | nil => exact fun _ _ h => h
  | cons w ws ih => exact fun s s' h => hstate w (ih h)

/-- **One changed word.** -/
theorem foldl_ne_of_change (hstate : ∀ w, Injective fun s => step s w)
    (hword : ∀ s, Injective (step s)) {w w' : ω} (h : w ≠ w') (s : σ) (xs ys : List ω) :
    (xs ++ w :: ys).foldl step s ≠ (xs ++ w' :: ys).foldl step s := by
  intro heq
  rw [List.foldl_append, List.foldl_append, List.foldl_cons, List.foldl_cons] at heq
  exact h (hword _ (foldl_injective hstate ys heq))

end Fold

end CreditFabric.Lib
