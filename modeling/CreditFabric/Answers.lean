import CreditFabric.Isolation
import CreditFabric.LedgerInvariant

namespace CreditFabric

/-!
# The answers of one call

`apply_cases` keeps of a call without a decision only that nothing was applied.  For a caller
that reads the answer, `Answer` has every one of them, with the check that gave it.
-/

namespace CreditEngine

variable {J : Type} [Journal J]

/-- Every answer to one call, with the engine behind it. -/
inductive Answer (e : CreditEngine J) (r : CreditRequest) : CreditOutcome × CreditEngine J → Prop
  | unrecovered (h : e.recovered = false) :
      Answer e r ((CreditOutcome.ofRequest r).refused .reconciliationRequired 1, e)
  | latched (h : e.journalFailed = true) :
      Answer e r ((CreditOutcome.ofRequest r).refused .ioError 2, e)
  | invalid (s : Status) (h : validateRequest e.limits r = some s) :
      Answer e r ((CreditOutcome.ofRequest r).refused s.reason s.detail, e)
  | described (hrecovered : e.recovered = true) (hhealthy : e.journalFailed = false)
      (hvalid : validateRequest e.limits r = none) (op : r.op = .describe) :
      Answer e r (e.describe r (.ofRequest r), e)
  | unopened (op : r.op = .open_) (s : Status)
      (h : validateOpen e.limits e.challenge e.accounts r = some s) :
      Answer e r ((CreditOutcome.ofRequest r).refused s.reason s.detail, e)
  | unknown (h : e.accounts[r.authority.account]? = none) :
      Answer e r ((CreditOutcome.ofRequest r).refused .accountUnknown 2, e)
  | unbound (a : AccountState) (found : Found e r a) (s : Status)
      (h : bindAuthority e.limits e.operatorIncarnation a r = some s) :
      Answer e r ((CreditOutcome.ofRequest r).refused s.reason s.detail, e)
  | absorbed (a : AccountState) (found : Found e r a)
      (bound : bindAuthority e.limits e.operatorIncarnation a r = none) (existing : WindowEntry)
      (h : placeInSequence a r = .duplicate existing) :
      Answer e r (duplicateOutcome (.ofRequest r) a existing,
        { e with stats :=
          { e.stats with duplicatesAbsorbed := e.stats.duplicatesAbsorbed + 1 } })
  | conflict (a : AccountState) (found : Found e r a)
      (bound : bindAuthority e.limits e.operatorIncarnation a r = none)
      (h : placeInSequence a r = .conflict) :
      Answer e r ((CreditOutcome.ofRequest r).decidedRefusal .attemptConflict r.sequence, e)
  | displaced (a : AccountState) (found : Found e r a)
      (bound : bindAuthority e.limits e.operatorIncarnation a r = none) (s : Status)
      (h : placeInSequence a r = .refused s) :
      Answer e r ((CreditOutcome.ofRequest r).refused s.reason s.detail, e)
  | unproved (a : AccountState) (found : Found e r a) (op : classify r.op = .control) :
      Answer e r ((admittedOutcome r a).refused .staleEvidence 1, e)
  | opened (h : Opens e r) : Answer e r (e.settleOpen r)
  | decided (a : AccountState) (h : Admitted e r a) : Answer e r (e.settleDecision a r)

/-- **Every call is answered.** -/
theorem apply_answer (e : CreditEngine J) (r : CreditRequest) : Answer e r (e.apply r) := by
  unfold apply
  -- the checks in the order of the source
  cases hrecovered : e.recovered with
  | false => exact .unrecovered hrecovered
  | true =>
  cases hhealthy : e.journalFailed with
  | true => exact .latched hhealthy
  | false =>
  simp only [Bool.not_true, Bool.false_eq_true, if_false]
  unfold applyLocked
  cases hvalid : validateRequest e.limits r with
  | some s => exact .invalid s hvalid
  | none =>
  by_cases hdescribe : r.op = .describe
  · simp only [hdescribe, if_true]
    exact .described hrecovered hhealthy hvalid hdescribe
  by_cases hopen : r.op = .open_
  · simp only [hopen, if_true]
    unfold createAccountLocked
    cases haccept : validateOpen e.limits e.challenge e.accounts r with
    | some s => exact .unopened hopen s haccept
    | none => exact .opened ⟨hrecovered, hhealthy, hvalid, hopen, haccept⟩
  simp only [hdescribe, hopen, if_false]
  cases hfound : e.accounts[r.authority.account]? with
  | none => exact .unknown hfound
  | some a =>
  have found : Found e r a := ⟨hrecovered, hhealthy, hvalid, hdescribe, hopen, hfound⟩
  simp only
  unfold applyToAccount
  cases hbound : bindAuthority e.limits e.operatorIncarnation a r with
  | some s => exact .unbound a found s hbound
  | none =>
  cases hplaced : placeInSequence a r with
  | duplicate existing => exact .absorbed a found hbound existing hplaced
  | conflict => exact .conflict a found hbound hplaced
  | refused s => exact .displaced a found hbound s hplaced
  | admitted =>
  have hadmitted := Admitted.mk hrecovered hhealthy hvalid hdescribe hopen hfound hbound hplaced
  -- a control request shows the digest it expects, if it names one
  by_cases hcontrol : classify r.op = .control
  · simp only [hcontrol, if_true]
    unfold decideControlLocked
    by_cases hevidence : r.expectedState.isZero = false ∧ r.expectedState ≠ a.digest
    · simp only [hevidence, Bool.not_false, true_and, ne_eq, not_false_eq_true, if_true]
      exact .unproved a found hcontrol
    · have hanswer := Answer.decided a (hadmitted fun _ => hevidence)
      simp only [settleDecision, decision, subject, hcontrol, if_true] at hanswer
      rw [if_neg (by simpa using hevidence)]
      exact hanswer
  · have hanswer := Answer.decided a (hadmitted fun h => absurd h hcontrol)
    simp only [settleDecision, decision, subject, hcontrol, if_false] at hanswer
    simp only [hcontrol, if_false]
    exact hanswer

/-! ### What every answer has -/

/-- The outcome can be read back from its response, and names the account and the domain of its
    request. -/
structure Readable (r : CreditRequest) (o : CreditOutcome) : Prop where
  view : o.view.quarantined = o.view.stale
  account : o.authority.account = r.authority.account
  domain : o.authority.domain = r.authority.domain

omit [Journal J] in
/-- The answer to a Describe is readable. -/
theorem describe_readable (e : CreditEngine J) (r : CreditRequest) :
    Readable r (e.describe r (.ofRequest r)) := by
  unfold describe
  cases e.accounts[r.authority.account]? with
  | none => exact ⟨rfl, rfl, rfl⟩
  | some a =>
    simp only
    split_ifs
    · exact ⟨rfl, rfl, rfl⟩
    · exact ⟨quarantined_computeView _ _, rfl, rfl⟩

/-- An outcome stays readable when its commit fails. -/
theorem settle_readable {e : CreditEngine J} {r : CreditRequest} {o : CreditOutcome}
    {a : AccountState} {c : Bool} {rollback publish : CreditEngine J → CreditEngine J}
    (h : Readable r o) : Readable r (e.settle r o a c rollback publish).1 := by
  unfold settle
  simp only
  split_ifs
  · exact ⟨h.view, h.account, h.domain⟩
  · exact h

/-- **Outcomes are readable.** -/
theorem apply_readable (e : CreditEngine J) (r : CreditRequest) : Readable r (e.apply r).1 := by
  have hanswer := apply_answer e r
  generalize e.apply r = result at hanswer ⊢
  cases hanswer with
  | described => exact describe_readable e r
  | absorbed => exact ⟨quarantined_computeView _ _, rfl, rfl⟩
  | opened => exact settle_readable ⟨quarantined_computeView _ _, rfl, rfl⟩
  | decided a h =>
    unfold settleDecision follow
    cases e.decision a r with
    | reject s a' => exact ⟨rfl, rfl, rfl⟩
    | refuse s a' => exact settle_readable ⟨quarantined_computeView _ _, rfl, rfl⟩
    | proceed a' => exact settle_readable ⟨quarantined_computeView _ _, rfl, rfl⟩
  | _ => exact ⟨rfl, rfl, rfl⟩

end CreditEngine

end CreditFabric
