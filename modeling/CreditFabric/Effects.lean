import CreditFabric.Step

namespace CreditFabric

/-!
# The effect of one call

`apply_effect` refines the case analysis of a call by the verdict of the journal: a call
answers, absorbs, rejects, opens, refuses or applies, each with the engine it leaves behind,
or the journal fails and the engine is latched.
-/

namespace CreditEngine

variable {J : Type}

/-- The engine that journals an Open. -/
def opening (e : CreditEngine J) (r : CreditRequest) : CreditEngine J :=
  e.put (openedAccount e.limits r).account (openedAccount e.limits r)

/-- The outcome of a refused decision. -/
def refusalOutcome (a : AccountState) (r : CreditRequest) (s : Status) (a' : AccountState) :
    CreditOutcome :=
  refusedOutcome ((admittedOutcome r a).decidedRefusal s.reason s.detail)
    (countRefused a' r.authority.incarnation)

/-- The engine that journals a refused decision. -/
def refusing (e : CreditEngine J) (r : CreditRequest) (a' : AccountState) : CreditEngine J :=
  e.put r.authority.account (countRefused a' r.authority.incarnation)

/-- The outcome of an applied decision. -/
def applicationOutcome (a : AccountState) (r : CreditRequest) (a' : AccountState) :
    CreditOutcome :=
  appliedOutcome (admittedOutcome r a) (countCommitted a' r.authority.incarnation)

/-- The engine that journals an applied decision. -/
def applying (e : CreditEngine J) (r : CreditRequest) (a' : AccountState) : CreditEngine J :=
  e.put r.authority.account (countCommitted a' r.authority.incarnation)

variable [Journal J]

/-- A settled call either fails to persist or ends as decided. -/
theorem settle_cases (e : CreditEngine J) (r : CreditRequest) (o : CreditOutcome)
    (a : AccountState) (c : Bool) (rollback publish : CreditEngine J → CreditEngine J) :
    (e.persistLocked r o a c).1.ok = false ∧
        (e.settle r o a c rollback publish).1.decided = false ∧
        (e.settle r o a c rollback publish).1.applied = false ∧
        (e.settle r o a c rollback publish).2.journalFailed = true ∨
      (e.persistLocked r o a c).1.ok = true ∧
        e.settle r o a c rollback publish = (o, publish (e.persistLocked r o a c).2) := by
  cases hok : (e.persistLocked r o a c).1.ok with
  | false =>
    refine .inl ⟨rfl, ?_⟩
    rw [settle_of_failed hok]
    exact ⟨rfl, rfl, rfl⟩
  | true => exact .inr ⟨rfl, settle_of_ok hok⟩

/-- What one call returns and leaves behind. -/
inductive Effect (e : CreditEngine J) (r : CreditRequest) :
    CreditOutcome → CreditEngine J → Prop
  | answered (o : CreditOutcome) (happlied : o.applied = false) (hdup : o.duplicate = false) :
      Effect e r o e
  | absorbed (a : AccountState) (existing : WindowEntry)
      (found : e.accounts[r.authority.account]? = some a)
      (placed : placeInSequence a r = .duplicate existing) :
      Effect e r (duplicateOutcome (.ofRequest r) a existing)
        { e with stats :=
          { e.stats with duplicatesAbsorbed := e.stats.duplicatesAbsorbed + 1 } }
  | rejected (a : AccountState) (h : Admitted e r a) (s : Status) (a' : AccountState)
      (hd : e.decision a r = .reject s a') :
      Effect e r ((admittedOutcome r a).refused s.reason s.detail)
        (e.put r.authority.account a')
  | opened (h : Opens e r) (hok : ((e.opening r).persistLocked r (e.openOutcome r)
        (openedAccount e.limits r) true).1.ok = true) :
      Effect e r (e.openOutcome r)
        (publishApplied (openedAccount e.limits r).account (openedAccount e.limits r) r
          (e.openOutcome r) ((e.opening r).persistLocked r (e.openOutcome r)
            (openedAccount e.limits r) true).2)
  | refused (a : AccountState) (h : Admitted e r a) (s : Status) (a' : AccountState)
      (hd : e.decision a r = .refuse s a')
      (hok : ((e.refusing r a').persistLocked r (refusalOutcome a r s a')
        (countRefused a' r.authority.incarnation) false).1.ok = true) :
      Effect e r (refusalOutcome a r s a')
        (publishRefused r.authority.account (countRefused a' r.authority.incarnation) r
          (refusalOutcome a r s a')
          ((e.refusing r a').persistLocked r (refusalOutcome a r s a')
            (countRefused a' r.authority.incarnation) false).2)
  | applied (a : AccountState) (h : Admitted e r a) (a' : AccountState)
      (hd : e.decision a r = .proceed a')
      (hok : ((e.applying r a').persistLocked r (applicationOutcome a r a')
        (countCommitted a' r.authority.incarnation) false).1.ok = true) :
      Effect e r (applicationOutcome a r a')
        (publishApplied r.authority.account (countCommitted a' r.authority.incarnation) r
          (applicationOutcome a r a')
          ((e.applying r a').persistLocked r (applicationOutcome a r a')
            (countCommitted a' r.authority.incarnation) false).2)
  | failed (o : CreditOutcome) (e' : CreditEngine J)
      (hplaced : Opens e r ∨ ∃ a, Admitted e r a) (hdecided : o.decided = false)
      (happlied : o.applied = false) (hlatched : e'.journalFailed = true) : Effect e r o e'

/-- A commit that fails has no effect, so only the one that succeeds needs a proof. -/
theorem settle_effect {e e₀ : CreditEngine J} {r : CreditRequest} {o : CreditOutcome}
    {a : AccountState} {c : Bool} {rollback publish : CreditEngine J → CreditEngine J}
    (hplaced : Opens e r ∨ ∃ a, Admitted e r a)
    (h : (e₀.persistLocked r o a c).1.ok = true →
      Effect e r o (publish (e₀.persistLocked r o a c).2)) :
    Effect e r (e₀.settle r o a c rollback publish).1
      (e₀.settle r o a c rollback publish).2 := by
  rcases settle_cases e₀ r o a c rollback publish with
    ⟨-, hdecided, happlied, hlatched⟩ | ⟨hok, heq⟩
  · exact .failed _ _ hplaced hdecided happlied hlatched
  · rw [heq]
    exact h hok

/-- **Effect of one call.** -/
theorem apply_effect (e : CreditEngine J) (r : CreditRequest) :
    Effect e r (e.apply r).1 (e.apply r).2 := by
  have hcase := apply_cases e r
  generalize e.apply r = result at hcase ⊢
  cases hcase with
  | answered o happlied hdup => exact .answered o happlied hdup
  | absorbed a existing found placed => exact .absorbed a existing found placed
  | opened h => exact settle_effect (.inl h) fun hok => .opened h hok
  | decided a h =>
    unfold settleDecision follow
    cases hd : e.decision a r with
    | reject s a' => exact .rejected a h s a' hd
    | refuse s a' => exact settle_effect (.inr ⟨a, h⟩) fun hok => .refused a h s a' hd hok
    | proceed a' => exact settle_effect (.inr ⟨a, h⟩) fun hok => .applied a h a' hd hok

/-- A latched engine stays latched. -/
theorem journalFailed_apply {e : CreditEngine J} (h : e.journalFailed = true)
    (r : CreditRequest) : (e.apply r).2 = e := by
  unfold apply
  cases e.recovered with
  | false => rfl
  | true =>
    simp only [h, Bool.not_true, Bool.false_eq_true, if_false, if_true]

end CreditEngine

end CreditFabric
