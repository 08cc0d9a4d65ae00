import CreditFabric.Step
import CreditFabric.LedgerInvariant

namespace CreditFabric

open Std (ExtTreeMap)

/-!
# Soundness of an account

An account is sound when its ledger is closed and its capacity lies in the range its
configuration allows.  Every decision of the live engine keeps a sound account sound, and so
does every step of the second implementation that replays it:

* `decision_sound` for the three decision functions;
* `replayDecision_sound` for the replay of a decided attempt;
* `restoreBackup_sound` for the rollback.

The bookkeeping around them touches neither the configuration nor the ledger.
-/

/-- The ledger part of an account: closed totals under a capacity in range. -/
structure SoundLedger (config : AccountConfig) (capacity : UInt64) (totals : CreditTotals) :
    Prop where
  closed : Closed capacity totals
  positive : 1 ≤ capacity.toNat
  bounded : capacity.toNat ≤ config.maxCapacity.toNat

/-- The ledger of an account is sound. -/
def AccountState.Sound (a : AccountState) : Prop := SoundLedger a.config a.capacity a.totals

/-- So is that of its durable form. -/
def DurableAccount.Sound (d : DurableAccount) : Prop := SoundLedger d.config d.capacity d.totals

/-- Soundness reads three fields. -/
theorem AccountState.Sound.congr {a a' : AccountState} (h : a.Sound)
    (hconfig : a'.config = a.config) (hcapacity : a'.capacity = a.capacity)
    (htotals : a'.totals = a.totals) : a'.Sound := by
  unfold AccountState.Sound
  rw [hconfig, hcapacity, htotals]
  exact h

/-- New totals of a successful mutator, under the same capacity. -/
theorem AccountState.Sound.keeps {a : AccountState} (h : a.Sound) {plan : LedgerPlan}
    (hkeeps : LedgerPlan.Keeps (.start a.capacity a.totals) plan) :
    SoundLedger a.config a.capacity plan.totals where
  closed := by
    have hclosed := hkeeps.closed
    rw [hkeeps.capacity] at hclosed
    exact hclosed
  positive := h.positive
  bounded := h.bounded

/-! ### Bookkeeping -/

section Bookkeeping

variable {a : AccountState} (h : a.Sound)

include h

/-- Updating a record leaves the ledger alone. -/
theorem updateIncarnation_sound (id : IncarnationId)
    (f : IncarnationRecord → IncarnationRecord) : (a.updateIncarnation id f).Sound := by
  rw [AccountState.updateIncarnation_eq]
  exact h

/-- Counting a commit does. -/
theorem countCommitted_sound (caller : IncarnationId) : (countCommitted a caller).Sound := by
  have hcounted : { a with committedAttempts := a.committedAttempts + 1 }.Sound := h
  exact updateIncarnation_sound hcounted _ _

/-- Counting a refusal does. -/
theorem countRefused_sound (caller : IncarnationId) : (countRefused a caller).Sound := by
  have hcounted : { a with refusedAttempts := a.refusedAttempts + 1 }.Sound := h
  exact updateIncarnation_sound hcounted _ _

/-- So does the window. -/
theorem publishWindow_sound (r : CreditRequest) (o : CreditOutcome) :
    (a.publishWindow r o).Sound := by
  rw [AccountState.publishWindow_eq]
  exact h

/-- So does the refusal log. -/
theorem recordRefusal_sound (maxRefusalLog : Nat) (r : CreditRequest) (o : CreditOutcome) :
    (a.recordRefusal maxRefusalLog r o).Sound := by
  rw [AccountState.recordRefusal_eq]
  exact h

/-- So does a restart. -/
theorem forgetLiveness_sound : a.forgetLiveness.Sound := h.congr rfl rfl rfl

end Bookkeeping

/-- The rollback restores the ledger it saved. -/
theorem restoreBackup_sound {a a' : AccountState} (h : a.Sound) (hconfig : a'.config = a.config)
    (caller subject : IncarnationId) :
    (restoreBackup a' (captureBackup a caller subject) caller subject).Sound :=
  h.congr hconfig rfl rfl

/-! ### Live decisions -/

/-- The account a decision leaves behind, whatever its verdict. -/
def Decision.account : Decision → AccountState
  | .reject _ a => a
  | .refuse _ a => a
  | .proceed a => a

/-- The status of a settled mutator is a success exactly when it kept the invariants. -/
theorem LedgerPlan.Settled.keeps_of_ok {plan : LedgerPlan} {result : Bool × LedgerPlan}
    (h : plan.Settled result)
    (hok : (if result.1 then Status.success else result.2.status).ok = true) :
    plan.Keeps result.2 := by
  obtain ⟨ok, plan'⟩ := result
  cases ok with
  | true => exact h
  | false =>
    have hlatched : plan'.status.ok = false := h
    have hstatus : plan'.status.ok = true := hok
    rw [hlatched] at hstatus
    exact absurd hstatus (by decide)

/-- A ledger operation that succeeds keeps the capacity and closes the totals. -/
theorem ledgerApply_keeps {plan : LedgerPlan} {a : AccountState} {r : CreditRequest}
    (h : (ledgerApply plan a r).1.ok = true) : plan.Keeps (ledgerApply plan a r).2 := by
  unfold ledgerApply at h ⊢
  cases hop : r.op with
  | issue =>
    simp only [hop] at h ⊢
    exact (LedgerPlan.issue_settled _ _ _).keeps_of_ok h
  | consume =>
    simp only [hop] at h ⊢
    exact (LedgerPlan.consume_settled _).keeps_of_ok h
  | return_ =>
    simp only [hop] at h ⊢
    by_cases hallow : (!a.config.rules.allowReturn) = true
    · rw [if_pos hallow] at h
      exact absurd h (by simp)
    · rw [if_neg hallow] at h ⊢
      exact (LedgerPlan.giveBack_settled _).keeps_of_ok h
  | protect =>
    simp only [hop] at h ⊢
    exact (LedgerPlan.protect_settled _ _).keeps_of_ok h
  | unprotect =>
    simp only [hop] at h ⊢
    exact (LedgerPlan.unprotect_settled _).keeps_of_ok h
  | _ =>
    simp only [hop] at h
    exact absurd h (by simp)

/-- Both ways of revalidating settle the plan. -/
theorem revalidate_settled (plan : LedgerPlan) (r : CreditRequest) :
    plan.Settled (if r.decision = .toReturned then plan.revalidateToReturned r.count
      else plan.revalidateToConsumed r.count) := by
  by_cases hdec : r.decision = .toReturned
  · rw [if_pos hdec]
    exact LedgerPlan.revalidateToReturned_settled _
  · rw [if_neg hdec]
    exact LedgerPlan.revalidateToConsumed_settled _

section Decisions

variable {limits : EngineLimits} {a : AccountState} {r : CreditRequest} {d : Decision}

/-- A control decision keeps the ledger sound. -/
theorem ControlCase.sound (hcase : ControlCase limits a r d) (h : a.Sound) :
    d.account.Sound := by
  cases hcase with
  | rejected s => exact h
  | leaked hleak s => exact h.congr rfl rfl rfl
  | refused s op => exact h
  | exhausted op => exact h.congr rfl rfl rfl
  | cleared op => exact h.congr rfl rfl rfl
  | resized op plan hplan =>
    obtain ⟨-, hclosed, hpos, hmax⟩ := LedgerPlan.setCapacity_keeps hplan
    exact ⟨hclosed, hpos, hmax⟩
  | advanced op plan hplan =>
    have hsettled := LedgerPlan.quarantineInFlight_settled a.capacity a.totals
    rw [hplan] at hsettled
    exact h.keeps hsettled.keeps
  | retired op plan hplan =>
    have hsettled := LedgerPlan.retireStale_settled (p := .start a.capacity a.totals) r.count
    rw [hplan] at hsettled
    exact h.keeps hsettled.keeps
  | revalidated op plan hplan =>
    have hsettled := revalidate_settled (LedgerPlan.start a.capacity a.totals) r
    rw [hplan] at hsettled
    exact h.keeps hsettled.keeps
  | fenced op target unfenced room budget => exact h.congr rfl rfl rfl
  | retiredIncarnation op target record found state => exact h.congr rfl rfl rfl

/-- A ledger decision does. -/
theorem LedgerCase.sound (hcase : LedgerCase a r d) (h : a.Sound) : d.account.Sound := by
  cases hcase with
  | rejected s => exact h
  | refused s op => exact h
  | refusedBound op hopen b found s hrefused => exact h.congr rfl rfl rfl
  | issued op hopen b found bound hok => exact h.keeps (ledgerApply_keeps hok)
  | applied op notIssue hok => exact h.keeps (ledgerApply_keeps hok)

/-- A reconciliation does. -/
theorem ReconcileCase.sound {challenge : ReconciliationChallenge}
    (hcase : ReconcileCase challenge a r d) (h : a.Sound) : d.account.Sound := by
  cases hcase with
  | rejected s => exact h
  | reconciled proof => exact h.congr rfl rfl rfl

end Decisions

/-- **Decisions keep accounts sound.** -/
theorem decision_sound {J : Type} (e : CreditEngine J) {a : AccountState} (r : CreditRequest)
    (h : a.Sound) : (e.decision a r).account.Sound := by
  rcases e.decision_cases a r with ⟨hcase, -⟩ | ⟨hcase, -⟩ | ⟨hcase, -⟩
  · exact hcase.sound h
  · exact hcase.sound h
  · exact hcase.sound h

/-- No decision changes the configuration. -/
theorem decision_config {J : Type} (e : CreditEngine J) (a : AccountState) (r : CreditRequest) :
    (e.decision a r).account.config = a.config := by
  rcases e.decision_cases a r with ⟨hcase, -⟩ | ⟨hcase, -⟩ | ⟨hcase, -⟩
  · generalize e.decision a r = d at hcase ⊢
    cases hcase <;> rfl
  · generalize e.decision a r = d at hcase ⊢
    cases hcase <;> rfl
  · generalize e.decision a r = d at hcase ⊢
    cases hcase <;> rfl

/-- An accepted Open creates a sound account. -/
theorem openedAccount_sound {limits : EngineLimits} {challenge : ReconciliationChallenge}
    {accounts : ExtTreeMap UInt64 AccountState} {r : CreditRequest}
    (h : validateOpen limits challenge accounts r = none) : (openedAccount limits r).Sound := by
  unfold validateOpen at h
  simp only at h
  split_ifs at h with _ _ _ _ hrange
  rw [not_or] at hrange
  obtain ⟨hzero, hmax⟩ := hrange
  rw [UInt64.lt_iff_toNat_lt, Nat.not_lt] at hmax
  have hne : r.config.capacity.toNat ≠ 0 := fun h0 => hzero (UInt64.toNat_inj.mp h0)
  refine ⟨⟨Nat.le_refl 0, Nat.le_refl 0, Nat.zero_le _⟩, ?_, hmax⟩
  show 1 ≤ r.config.capacity.toNat
  omega

/-! ### Replay -/

/-- A replayed mutator either fails and leaves the account, or succeeds and settles it. -/
theorem planReplay_sound {a new : AccountState} (h : a.Sound) {result : Bool × LedgerPlan}
    (hsettled : (LedgerPlan.start a.capacity a.totals).Settled result) (mismatch : Status)
    (hconfig : new.config = a.config) (hcapacity : new.capacity = a.capacity)
    (htotals : new.totals = result.2.totals) :
    (if !result.1 then (mismatch, a) else (.success, new)).2.Sound := by
  obtain ⟨ok, plan⟩ := result
  cases ok with
  | false => exact h
  | true =>
    show SoundLedger new.config new.capacity new.totals
    rw [hconfig, hcapacity, htotals]
    exact h.keeps hsettled.keeps

/-- Replaying a transition keeps the ledger sound, refused or not. -/
theorem applyReplayTransition_sound {a : AccountState} (r : CreditRequest) (h : a.Sound) :
    (applyReplayTransition a r).2.Sound := by
  unfold applyReplayTransition
  cases hop : r.op with
  | issue | consume | return_ | protect | unprotect =>
    simp only
    cases hok : (ledgerApply (.start a.capacity a.totals) a r).1.ok with
    | false => exact h
    | true => exact h.keeps (ledgerApply_keeps hok)
  | exhaust => exact h.congr rfl rfl rfl
  | clearExhaustion => exact h.congr rfl rfl rfl
  | setCapacity =>
    simp only
    cases hplan : (LedgerPlan.start a.capacity a.totals).setCapacity r.newCapacity
        a.config.maxCapacity a.config.rules.allowCapacityGrowth with
    | mk ok plan =>
      cases ok with
      | false => exact h
      | true =>
        obtain ⟨-, hclosed, hpos, hmax⟩ := LedgerPlan.setCapacity_keeps hplan
        exact ⟨hclosed, hpos, hmax⟩
  | advanceEpoch | rotate =>
    exact planReplay_sound h (LedgerPlan.quarantineInFlight_settled _ _) _ rfl rfl rfl
  | retire =>
    exact planReplay_sound h (LedgerPlan.retireStale_settled _) _ rfl rfl rfl
  | revalidate =>
    exact planReplay_sound h (revalidate_settled _ r) _ rfl rfl rfl
  | _ => exact h

/-- Replaying the records does. -/
theorem replayRecords_sound {a : AccountState} (r : CreditRequest) (h : a.Sound) :
    (replayRecords a r).2.Sound := by
  unfold replayRecords
  cases hop : r.op with
  | reconcile => exact h.congr rfl rfl rfl
  | fence => exact h.congr rfl rfl rfl
  | retireIncarnation =>
    simp only
    cases a.findIncarnation r.target with
    | none => exact h
    | some record => exact h.congr rfl rfl rfl
  | issue =>
    simp only
    cases a.findIncarnation r.authority.incarnation with
    | none => exact h
    | some record => exact h.congr rfl rfl rfl
  | _ => exact h

/-- **Replay keeps accounts sound**, also where it fails. -/
theorem replayDecision_sound {a : AccountState} (d : DurableAttempt) (h : a.Sound) :
    (replayDecision a d).2.Sound := by
  have htransition := applyReplayTransition_sound d.request h
  have hrecords := replayRecords_sound d.request htransition
  unfold replayDecision
  simp only
  split_ifs with happlied h₁ h₂ hdecided
  · exact htransition
  · exact hrecords
  · exact countCommitted_sound hrecords _
  · exact countRefused_sound h _
  · exact h

/-- The account a replayed Open creates is the journaled image. -/
theorem replayedOpen_sound (limits : EngineLimits) {d : DurableAttempt} (h : d.account.Sound) :
    (replayedOpen limits d).Sound := h

end CreditFabric
