import CreditFabric.Effects

namespace CreditFabric

/-!
# Runs of one boot

`run` is a sequence of `apply` calls on one engine.  `run_induction` derives what holds in
every state of a run from what one call preserves.

`Fixture` has the identities and the request builder of the test fixture; the concrete runs of
the development are written with it.
-/

namespace CreditEngine

variable {J : Type} [Journal J]

/-- An engine that has been made and has recovered from its journal. -/
def boot (limits : EngineLimits) (journal : J) (operator : Incarnation) (nonce : Digest128) :
    CreditEngine J :=
  (make limits journal operator nonce).recover.2

/-- The engine after a list of calls. -/
def run (e : CreditEngine J) (rs : List CreditRequest) : CreditEngine J :=
  rs.foldl (fun e r => (e.apply r).2) e

@[simp] theorem run_nil (e : CreditEngine J) : e.run [] = e := rfl

@[simp] theorem run_cons (e : CreditEngine J) (r : CreditRequest) (rs : List CreditRequest) :
    e.run (r :: rs) = (e.apply r).2.run rs := rfl

/-- A run over two lists is one run after the other. -/
theorem run_append (e : CreditEngine J) (rs rs' : List CreditRequest) :
    e.run (rs ++ rs') = (e.run rs).run rs' := List.foldl_append

/-- The last call of a run is made on the engine the others left. -/
theorem run_concat (e : CreditEngine J) (rs : List CreditRequest) (r : CreditRequest) :
    e.run (rs ++ [r]) = ((e.run rs).apply r).2 := by
  rw [run_append, run_cons, run_nil]

/-- The engine behind a snapshot. -/
def saved (e : CreditEngine J) : CreditEngine J := e.snapshot.2

/-- **Run rule.**  What holds at the start and is preserved by every call holds after every
    run. -/
theorem run_induction {P : CreditEngine J → Prop} {e : CreditEngine J} (h₀ : P e)
    (hstep : ∀ e r, P e → P (e.apply r).2) (rs : List CreditRequest) : P (e.run rs) := by
  induction rs generalizing e with
  | nil => exact h₀
  | cons r rs ih => exact ih (hstep e r h₀)

/-- Every call of the run meets the condition in the state it is made in. -/
def EachCall (P : CreditEngine J → CreditRequest → Prop) :
    CreditEngine J → List CreditRequest → Prop
  | _, [] => True
  | e, r :: rs => P e r ∧ EachCall P (e.apply r).2 rs

instance (P : CreditEngine J → CreditRequest → Prop) [∀ e r, Decidable (P e r)] :
    (e : CreditEngine J) → (rs : List CreditRequest) → Decidable (EachCall P e rs)
  | _, [] => .isTrue trivial
  | e, r :: rs =>
    have := instDecidableEachCall P (e.apply r).2 rs
    inferInstanceAs (Decidable (_ ∧ _))

/-- A condition on every call, split where the run is. -/
theorem eachCall_append {P : CreditEngine J → CreditRequest → Prop} {e : CreditEngine J}
    {rs rs' : List CreditRequest} :
    EachCall P e (rs ++ rs') ↔ EachCall P e rs ∧ EachCall P (e.run rs) rs' := by
  induction rs generalizing e with
  | nil => exact (iff_of_eq (true_and _)).symm
  | cons r rs ih =>
    show P e r ∧ EachCall P (e.apply r).2 (rs ++ rs') ↔
      (P e r ∧ EachCall P (e.apply r).2 rs) ∧ EachCall P ((e.apply r).2.run rs) rs'
    rw [ih, and_assoc]

/-- The same for the last call. -/
theorem eachCall_concat {P : CreditEngine J → CreditRequest → Prop} {e : CreditEngine J}
    {rs : List CreditRequest} {r : CreditRequest} :
    EachCall P e (rs ++ [r]) ↔ EachCall P e rs ∧ P (e.run rs) r := by
  rw [eachCall_append]
  exact and_congr_right fun _ => iff_of_eq (and_true _)

/-- Two conditions on every call are one. -/
theorem eachCall_and {P Q : CreditEngine J → CreditRequest → Prop} {e : CreditEngine J}
    {rs : List CreditRequest} (hP : EachCall P e rs) (hQ : EachCall Q e rs) :
    EachCall (fun e r => P e r ∧ Q e r) e rs := by
  induction rs generalizing e with
  | nil => trivial
  | cons r rs ih => exact ⟨⟨hP.1, hQ.1⟩, ih hP.2 hQ.2⟩

end CreditEngine

/-! ### The test fixture -/

namespace Fixture

/-- The one incarnation of the fixtures. -/
def me : Incarnation := .make 0x0DEA 0x0B007

/-- Its domain. -/
def domain : DomainId := 0xD0A1

/-- Its account. -/
def account : AccountId := 0xACCE

/-- Its resource. -/
def resource : ResourceId := 0x2E50

/-- The configuration of the fixture's account, of capacity 8. -/
def config : AccountConfig :=
  { domain, account, resource, policy := 1, capacity := 8, maxCapacity := 8 }

/-- A request of `who` in the first era, with its reconciliation proof for this boot.  The
    attempt identity is derived from the caller and the sequence number. -/
def request (nonce : Digest128) (who : Incarnation) (op : OpKind) (sequence : UInt64) :
    CreditRequest :=
  let authority : AuthorityVector :=
    { domain, account, epoch := 1, generation := 1, incarnation := who.id }
  { attempt := ⟨sequence, who.id⟩, op, sequence, authority, presenter := who, count := 1,
    proof := (ReconciliationChallenge.mk nonce).prove who authority, config }

/-- The same in another era of the account. -/
def requestIn (epoch : EpochId) (generation : Generation) (nonce : Digest128) (who : Incarnation)
    (op : OpKind) (sequence : UInt64) : CreditRequest :=
  let r := request nonce who op sequence
  let authority := { r.authority with epoch, generation }
  { r with authority, proof := (ReconciliationChallenge.mk nonce).prove who authority }

/-- An engine that has recovered from the given journal. -/
def boot {J : Type} [Journal J] (limits : EngineLimits) (journal : J) (nonce : Digest128) :
    CreditEngine J :=
  (CreditEngine.make limits journal me nonce).recover.2

end Fixture

end CreditFabric
