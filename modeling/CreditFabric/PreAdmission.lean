import CreditFabric.Run

namespace CreditFabric

open Std (ExtTreeMap)

/-!
# Refusals before admission

A request whose outcome has `decided = false`, with no journal failure, is meant to leave no
trace.  One path does: a Fence of an unknown target creates the target's record before it
checks the fence budget.  `apply_traceless_iff` shows that this is the only one.
-/

namespace CreditEngine

variable {J : Type} [Journal J]

/-- No trace of the call: the accounts, the journal and the journal's position are as
    before.  The accounts carry every watermark, so no sequence number is consumed either. -/
structure Traceless (e e' : CreditEngine J) : Prop where
  accounts : e'.accounts = e.accounts
  journal : e'.journal = e.journal
  nextJournalSequence : e'.nextJournalSequence = e.nextJournalSequence
  chain : e'.chain = e.chain

/-- A Fence that passes every check in front of the fence budget and fails there, for a target
    that has no record yet. -/
def LeavesTarget (e : CreditEngine J) (r : CreditRequest) : Prop :=
  ∃ a, Admitted e r a ∧ FenceLeak e.limits a r

/-- The control decision in the leaking case. -/
private theorem decideControl_of_leak {limits : EngineLimits} {a : AccountState} {r : CreditRequest}
    (h : FenceLeak limits a r) : ∃ s, decideControl limits a r =
      .reject s (a.setIncarnation r.target { id := r.target }) := by
  unfold decideControl
  have hroom : ¬ (a.incarnations.size ≥ limits.maxIncarnationsPerAccount) :=
    Nat.not_le.mpr h.room
  have hfull : a.fences.length ≥ limits.maxFencesPerAccount := h.full
  refine ⟨.refused .budgetExceeded (UInt64.ofNat a.fences.length), ?_⟩
  simp only [h.op, h.target, h.cause, h.unfenced, AccountState.findIncarnation, h.unknown,
    hroom, hfull, Bool.not_true, Bool.false_eq_true, if_false, if_true, and_false,
    Option.getD_none, AccountState.setIncarnation]

/-- A leaking Fence changes the accounts. -/
theorem apply_accounts_ne_of_leak {e : CreditEngine J} {r : CreditRequest}
    (h : LeavesTarget e r) : (e.apply r).2.accounts ≠ e.accounts := by
  obtain ⟨a, hadmitted, hleak⟩ := h
  obtain ⟨s, hdecide⟩ := decideControl_of_leak hleak
  have hcontrol : classify r.op = .control := by rw [hleak.op]; rfl
  rw [apply_of_admitted hadmitted]
  simp only [settleDecision, decision, hcontrol, if_true, hdecide, follow, put]
  intro heq
  have hfound := hadmitted.found
  rw [← heq, ExtTreeMap.getElem?_insert_self, Option.some.injEq] at hfound
  -- the account now has a record under the target's key, and had none before
  have hunknown := hleak.unknown
  rw [← hfound, AccountState.setIncarnation, ExtTreeMap.getElem?_insert_self] at hunknown
  exact absurd hunknown (by simp)

omit [Journal J] in
/-- A decision is rejected as it stands, unless it is the leaking Fence. -/
private theorem decision_reject_account {e : CreditEngine J} {a a' : AccountState}
    {r : CreditRequest}
    {s : Status} (h : e.decision a r = .reject s a') : a' = a ∨ FenceLeak e.limits a r := by
  rcases decision_cases e a r with ⟨hc, -⟩ | ⟨hc, -⟩ | ⟨hc, -⟩ <;> rw [h] at hc
  · cases hc with
    | rejected => exact .inl rfl
    | leaked hleak => exact .inr hleak
  · cases hc with
    | rejected => exact .inl rfl
  · cases hc with
    | rejected => exact .inl rfl

/-- **Pre-admission refusals.**  A call that decides nothing and fails no journal operation
    leaves no trace, exactly when it is not a Fence of an unknown target that passes the
    incarnation budget and fails the fence budget. -/
theorem apply_traceless_iff (e : CreditEngine J) (r : CreditRequest)
    (hdecided : (e.apply r).1.decided = false)
    (hjournal : (e.apply r).2.journalFailed = e.journalFailed) :
    Traceless e (e.apply r).2 ↔ ¬ LeavesTarget e r := by
  constructor
  · intro htrace hleak
    exact apply_accounts_ne_of_leak hleak htrace.accounts
  · intro hleak
    have heffect := apply_effect e r
    generalize (e.apply r).1 = o at heffect hdecided
    generalize (e.apply r).2 = e' at heffect hjournal ⊢
    cases heffect with
    | answered o _ _ => exact ⟨rfl, rfl, rfl, rfl⟩
    | absorbed a existing _ _ => exact absurd hdecided (by simp [duplicateOutcome])
    | rejected a h s a' hd =>
      rcases decision_reject_account hd with rfl | hfence
      · have hsame : e.put r.authority.account a' = e := by
          unfold put
          rw [Lib.insert_eq_self _ h.found]
        rw [hsame]
        exact ⟨rfl, rfl, rfl, rfl⟩
      · exact absurd ⟨a, h, hfence⟩ hleak
    | opened h hok => exact absurd (show true = false from hdecided) (by decide)
    | refused a h s a' hd hok => exact absurd (show true = false from hdecided) (by decide)
    | applied a h a' hd hok => exact absurd (show true = false from hdecided) (by decide)
    | failed o e' hplaced _ _ hlatched =>
      have hhealthy : e.journalFailed = false :=
        hplaced.elim (fun h => h.healthy) fun ⟨_, h⟩ => h.healthy
      rw [hhealthy, hlatched] at hjournal
      exact absurd hjournal (by decide)

/-! ### The leak on a concrete run

An engine with a fence budget of one: the operator opens an account, fences one incarnation,
then fences another one.  The second Fence is refused with `BudgetExceeded` and leaves a
record of its target behind. -/

namespace FenceBudget

/-- Limits with room for one fence. -/
def limits : EngineLimits := { maxFencesPerAccount := 1 }

/-- The engine behind its only fence. -/
def before : CreditEngine InMemoryJournal :=
  (Fixture.boot limits {} ⟨5, 5⟩).run
    [Fixture.request ⟨5, 5⟩ Fixture.me .open_ 1,
     { Fixture.request ⟨5, 5⟩ Fixture.me .fence 2 with target := 11, fenceCause := .policyRefused }]

/-- A Fence that there is no room for. -/
def second : CreditRequest :=
  { Fixture.request ⟨5, 5⟩ Fixture.me .fence 3 with target := 12, fenceCause := .policyRefused }

end FenceBudget

/-- The second Fence decides nothing and fails no journal operation, and yet changes the
    account. -/
theorem fence_leaves_target :
    (FenceBudget.before.apply FenceBudget.second).1.decided = false ∧
      (FenceBudget.before.apply FenceBudget.second).2.journalFailed = false ∧
      FenceBudget.before.journalFailed = false ∧
      (FenceBudget.before.apply FenceBudget.second).2.accounts ≠ FenceBudget.before.accounts := by
  decide +kernel

/-- The request with a gap is answered in front of the journal, evaluated once. -/
theorem gap_undecided :
    (FenceBudget.before.apply (Fixture.request ⟨5, 5⟩ Fixture.me .issue 9)).1.decided = false ∧
      (FenceBudget.before.apply (Fixture.request ⟨5, 5⟩ Fixture.me .issue 9)).2.journalFailed =
        FenceBudget.before.journalFailed := by
  decide +kernel

/-- A request with a sequence gap is refused without a trace. -/
theorem apply_traceless_gap :
    Traceless FenceBudget.before
        (FenceBudget.before.apply (Fixture.request ⟨5, 5⟩ Fixture.me .issue 9)).2 ↔
      ¬ LeavesTarget FenceBudget.before (Fixture.request ⟨5, 5⟩ Fixture.me .issue 9) :=
  apply_traceless_iff FenceBudget.before (Fixture.request ⟨5, 5⟩ Fixture.me .issue 9)
    gap_undecided.1 gap_undecided.2

end CreditEngine

end CreditFabric
