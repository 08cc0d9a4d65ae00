import CreditFabric.Run

namespace CreditFabric

/-!
# The operator gate

A decided call has passed the structural validation and, unless it is an Open, the authority
binding with its operator check (`bound_of_decided`).  An Open is dispatched in front of that
binding and `create_account_locked` has no operator check of its own, so the gate holds for
every other control operation and for the Opens that happen to come from the operator.
-/

namespace CreditEngine

variable {J : Type} [Journal J]

/-- The structural validation ties the presenter to the authority vector. -/
theorem presenter_of_valid {limits : EngineLimits} {r : CreditRequest}
    (h : validateRequest limits r = none) : r.presenter.id = r.authority.incarnation := by
  unfold validateRequest at h
  by_cases hpresenter : !isSet r.presenter.id ∨ r.presenter.id ≠ r.authority.incarnation ∨
      makeIncarnationId r.presenter.publisher r.presenter.boot ≠ r.presenter.id
  · rw [if_pos hpresenter] at h
    exact absurd h (by simp)
  · rw [not_or, not_or, not_not] at hpresenter
    exact hpresenter.2.1

/-- What stands in front of every decided call, whether it is applied, refused by decision,
    absorbed or in conflict. -/
theorem bound_of_decided {e : CreditEngine J} {r : CreditRequest}
    (h : (e.apply r).1.decided = true) : validateRequest e.limits r = none ∧
      (r.op = .open_ ∨ ∃ a, e.accounts[r.authority.account]? = some a ∧
        Bound e.limits e.operatorIncarnation a r) := by
  unfold apply at h
  cases hrec : e.recovered with
  | false => simp [hrec, CreditOutcome.refused, CreditOutcome.ofRequest] at h
  | true =>
  cases hfail : e.journalFailed with
  | true => simp [hrec, hfail, CreditOutcome.refused, CreditOutcome.ofRequest] at h
  | false =>
  simp only [hrec, hfail, Bool.not_true, Bool.false_eq_true, if_false] at h
  unfold applyLocked at h
  cases hvalid : validateRequest e.limits r with
  | some status => simp [hvalid, CreditOutcome.refused, CreditOutcome.ofRequest] at h
  | none =>
  refine ⟨rfl, ?_⟩
  by_cases hopen : r.op = .open_
  · exact .inl hopen
  by_cases hdescribe : r.op = .describe
  · simp only [hvalid, hdescribe, if_true, (describe_applied e r).2.2, Bool.false_eq_true] at h
  simp only [hvalid, hdescribe, hopen, if_false] at h
  cases hfound : e.accounts[r.authority.account]? with
  | none => simp [hfound, CreditOutcome.refused, CreditOutcome.ofRequest] at h
  | some a =>
  simp only [hfound] at h
  unfold applyToAccount at h
  cases hbound : bindAuthority e.limits e.operatorIncarnation a r with
  | some status => simp [hbound, CreditOutcome.refused, CreditOutcome.ofRequest] at h
  | none => exact .inr ⟨a, rfl, bound_of_bindAuthority hbound⟩

/-- **The operator gate.**  A decided control operation comes from the operator's incarnation
    exactly when it is not an Open by another one. -/
theorem control_presenter_iff (e : CreditEngine J) (r : CreditRequest)
    (hdecided : (e.apply r).1.decided = true) (hcontrol : classify r.op = .control) :
    r.presenter.id = e.operatorIncarnation.id ↔
      (r.op = .open_ → r.presenter.id = e.operatorIncarnation.id) := by
  refine ⟨fun hpresenter _ => hpresenter, fun hopens => ?_⟩
  obtain ⟨hvalid, hop | ⟨a, -, hbound⟩⟩ := bound_of_decided hdecided
  · exact hopens hop
  · rw [presenter_of_valid hvalid]
    exact hbound.operator hcontrol

namespace OpenedByStranger

/-- An incarnation that is not the operator. -/
def stranger : Incarnation := .make 0x57A6 0x0B007

/-- A stranger's Open in front of every other call. -/
def opening : CreditRequest := Fixture.request ⟨5, 5⟩ stranger .open_ 1

/-- The Open is applied although its presenter is not the operator. -/
theorem open_applied :
    ((Fixture.boot {} ({} : InMemoryJournal) ⟨5, 5⟩).apply opening).1.applied = true ∧
      ((Fixture.boot {} ({} : InMemoryJournal) ⟨5, 5⟩).apply opening).1.decided = true ∧
      classify opening.op = .control ∧ opening.presenter.id ≠
        (Fixture.boot {} ({} : InMemoryJournal) ⟨5, 5⟩).operatorIncarnation.id := by
  decide +kernel

/-- An Exhaust by the operator, behind its own Open. -/
theorem exhaust_presenter :
    let e := (Fixture.boot {} ({} : InMemoryJournal) ⟨5, 5⟩).run
      [Fixture.request ⟨5, 5⟩ Fixture.me .open_ 1]
    let r := { Fixture.request ⟨5, 5⟩ Fixture.me .exhaust 2 with fenceCause := .policyRefused }
    r.presenter.id = e.operatorIncarnation.id ↔
      (r.op = .open_ → r.presenter.id = e.operatorIncarnation.id) :=
  control_presenter_iff _ _ (by decide +kernel) (by decide)

end OpenedByStranger

end CreditEngine

end CreditFabric
