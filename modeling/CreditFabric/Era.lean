import CreditFabric.Accounts
import CreditFabric.Closure
import CreditFabric.Transfer

namespace CreditFabric

open Std (ExtTreeMap)

/-!
# Credit of an earlier era

An applied AdvanceEpoch or Rotate quarantines everything in flight.  From there on, until the
next advance, what is consumed was issued in the same era, and what is returned was issued in
the same era or revalidated by the operator as spent (`stale_never_spendable`).

The ledger does not tag credits, so this is proved with a tally of the calls of the era:
`Covered` says that the tally accounts for everything spendable, and every call keeps it.
-/

namespace CreditEngine

variable {J : Type} [Journal J]

/-- The call is an applied advance of the account's era. -/
def Advances (key : UInt64) (e : CreditEngine J) (r : CreditRequest) : Prop :=
  (r.op = .advanceEpoch ∨ r.op = .rotate) ∧ r.authority.account = key ∧
    (e.apply r).1.applied = true

instance (key : UInt64) (e : CreditEngine J) (r : CreditRequest) : Decidable (Advances key e r) :=
  inferInstanceAs (Decidable (_ ∧ _))

/-- The sums over the applied calls of a run on one account: the counts of every Issue,
    Consume and Return, and of every Revalidate to spent. -/
def tallied (key : UInt64) : Tally → CreditEngine J → List CreditRequest → Tally
  | t, _, [] => t
  | t, e, r :: rs =>
    let t := if (e.apply r).1.applied ∧ r.authority.account = key then t.add r.transfer else t
    tallied key t (e.apply r).2 rs

/-! ### Totals behind a call -/

section Totals

omit [Journal J]

/-- What is published behind an applied decision has its counters. -/
theorem appliedAccount_totals (a : AccountState) (r : CreditRequest) (a' : AccountState) :
    (appliedAccount a r a').totals = a'.totals ∧
      (appliedAccount a r a').capacity = a'.capacity := by
  unfold appliedAccount countCommitted
  rw [AccountState.publishWindow_eq, AccountState.updateIncarnation_eq]
  exact ⟨rfl, rfl⟩

/-- What is published behind a refused decision keeps the counters. -/
theorem refusedAccount_totals (limits : EngineLimits) (a : AccountState) (r : CreditRequest)
    (o : CreditOutcome) : (refusedAccount limits a r o).totals = a.totals := by
  rw [(refusedAccount_onlyBookkeeping limits a r o).frame]

end Totals

/-! ### The invariant of an era -/

/-- The tally covers the account, or the engine is latched and decides nothing more. -/
inductive InEra (key : UInt64) (t : Tally) (e : CreditEngine J) : Prop
  | open_ (a : AccountState) (found : e.accounts[key]? = some a)
      (covered : Covered t a.totals.buckets)
  | latched (failed : e.journalFailed = true) (within : WithinEra t)

omit [Journal J] in
/-- In the era, less is spent than was made spendable. -/
theorem InEra.withinEra {key : UInt64} {t : Tally} {e : CreditEngine J} (h : InEra key t e) :
    WithinEra t := by
  cases h with
  | open_ a found covered => exact covered.withinEra
  | latched failed within => exact within

/-- A latched engine applies nothing. -/
theorem applied_of_latched {e : CreditEngine J} (h : e.journalFailed = true)
    (r : CreditRequest) : (e.apply r).1.applied = false := by
  have hunhealthy : ∀ {b : Bool}, e.journalFailed = b → b = true := fun hb => hb ▸ h
  cases (apply_accounts e r).1 with
  | same unapplied _ => exact unapplied
  | rejected _ _ _ _ _ unapplied _ => exact unapplied
  | opened hopens _ _ => exact absurd (hunhealthy hopens.healthy) (by decide)
  | refused _ hadmitted _ _ _ _ _ => exact absurd (hunhealthy hadmitted.healthy) (by decide)
  | refusalUndone _ _ _ _ _ unapplied _ _ => exact unapplied
  | applied _ hadmitted _ _ _ _ => exact absurd (hunhealthy hadmitted.healthy) (by decide)
  | undone _ _ _ _ unapplied _ _ => exact unapplied

/-- **Step lemma.**  Every call keeps the tally of the era covering the account. -/
theorem InEra.apply {key : UInt64} {t : Tally} {e : CreditEngine J} (h : InEra key t e)
    (r : CreditRequest) :
    InEra key (if (e.apply r).1.applied ∧ r.authority.account = key then t.add r.transfer else t)
      (e.apply r).2 := by
  cases h with
  | latched failed within =>
    rw [if_neg (by rw [applied_of_latched failed r]; simp), journalFailed_apply failed r]
    exact .latched failed within
  | open_ a found covered =>
    by_cases hkey : r.authority.account = key
    swap
    · rw [if_neg fun h => hkey h.2]
      refine .open_ a ?_ covered
      rw [getElem?_apply_of_ne e (Ne.symm hkey)]
      exact found
    subst hkey
    -- a call that is not applied leaves the totals, and one that fails latches the engine
    have hkept : ∀ {b : AccountState}, (e.apply r).1.applied = false →
        (e.apply r).2.accounts = e.accounts.insert r.authority.account b →
        b.totals = a.totals → InEra r.authority.account
          (if (e.apply r).1.applied ∧ r.authority.account = r.authority.account
            then t.add r.transfer else t) (e.apply r).2 := by
      intro b hunapplied haccounts htotals
      rw [if_neg (by rw [hunapplied]; simp)]
      refine .open_ b (by rw [haccounts, ExtTreeMap.getElem?_insert_self]) ?_
      rw [htotals]
      exact covered
    cases (apply_accounts e r).1 with
    | same unapplied accounts =>
      rw [if_neg (by rw [unapplied]; simp)]
      exact .open_ a (by rw [accounts]; exact found) covered
    | rejected b hadmitted s a' hd unapplied accounts =>
      rw [hadmitted.found, Option.some.injEq] at found
      subst found
      have htotals := decision_totals (e := e) (a := b) (r := r) fun a₁ h => by
        rw [hd] at h
        cases h
      rw [hd] at htotals
      exact hkept unapplied accounts htotals
    | opened hopens outcome accounts =>
      exact absurd (hopens.fresh.1.symm.trans found) (by simp)
    | refused b hadmitted s a' hd outcome accounts =>
      rw [hadmitted.found, Option.some.injEq] at found
      subst found
      have htotals := decision_totals (e := e) (a := b) (r := r) fun a₁ h => by
        rw [hd] at h
        cases h
      rw [hd] at htotals
      exact hkept (by rw [outcome]; rfl) accounts ((refusedAccount_totals _ _ _ _).trans htotals)
    | refusalUndone b hadmitted s a' hd unapplied latched accounts =>
      rw [if_neg (by rw [unapplied]; simp)]
      exact .latched latched covered.withinEra
    | applied b hadmitted a' hd outcome accounts =>
      rw [hadmitted.found, Option.some.injEq] at found
      subst found
      rw [if_pos ⟨by rw [outcome]; rfl, rfl⟩]
      refine .open_ _ (by rw [accounts, ExtTreeMap.getElem?_insert_self]) ?_
      rw [(appliedAccount_totals _ _ _).1]
      exact covered.add (decision_moves hd)
    | undone b hadmitted a' hd unapplied latched accounts =>
      rw [if_neg (by rw [unapplied]; simp)]
      exact .latched latched covered.withinEra

/-- **Run lemma.** -/
theorem InEra.run {key : UInt64} {t : Tally} {e : CreditEngine J} (h : InEra key t e)
    (rs : List CreditRequest) : WithinEra (tallied key t e rs) := by
  induction rs generalizing t e with
  | nil => exact h.withinEra
  | cons r rs ih => exact ih (h.apply r)

/-! ### The advance -/

/-- An applied advance is decided on a known account and quarantines what is in flight. -/
theorem Advances.inv {key : UInt64} {e : CreditEngine J} {r : CreditRequest}
    (h : Advances key e r) : ∃ a a' plan, Admitted e r a ∧ e.accounts[key]? = some a ∧
      (e.apply r).2.accounts[key]? = some (appliedAccount a r a') ∧
      a'.totals = plan.totals ∧ a'.capacity = a.capacity ∧
      (LedgerPlan.start a.capacity a.totals).quarantineInFlight = (true, plan) := by
  obtain ⟨hop, rfl, happlied⟩ := h
  have hcontrol : classify r.op = .control := by rcases hop with hop | hop <;> rw [hop] <;> rfl
  rcases applied_inv happlied with hopens | ⟨a, a', hadmitted, hd, hfound⟩
  · rw [hopens.op] at hop
    exact absurd hop (by decide)
  have hcase := decideControl_cases e.limits a r
  rw [← show e.decision a r = decideControl e.limits a r by simp [decision, hcontrol], hd]
    at hcase
  cases hcase with
  | advanced op plan hplan =>
    exact ⟨a, _, plan, hadmitted, hadmitted.found, hfound, rfl, rfl, hplan⟩
  | exhausted op => exact absurd op (by rcases hop with h | h <;> rw [h] <;> decide)
  | cleared op => exact absurd op (by rcases hop with h | h <;> rw [h] <;> decide)
  | resized op => exact absurd op (by rcases hop with h | h <;> rw [h] <;> decide)
  | retired op => exact absurd op (by rcases hop with h | h <;> rw [h] <;> decide)
  | revalidated op => exact absurd op (by rcases hop with h | h <;> rw [h] <;> decide)
  | fenced op => exact absurd op (by rcases hop with h | h <;> rw [h] <;> decide)
  | retiredIncarnation op => exact absurd op (by rcases hop with h | h <;> rw [h] <;> decide)

/-- **Stale credit never becomes spendable.**  Behind an applied advance of a reachable engine
    nothing of the account is outstanding or spent, everything in flight is stale and what is
    available is unchanged.  In every run from there on that stays in the era, the credits
    consumed are at most the credits issued, and the credits returned are at most the credits
    issued and revalidated as spent. -/
theorem stale_never_spendable {e : CreditEngine (Observed J)} (h : Reachable e) {key : UInt64}
    {r : CreditRequest} (hadvance : Advances key e r) :
    (∃ a a', e.accounts[key]? = some a ∧ (e.apply r).2.accounts[key]? = some a' ∧
      a'.view.outstanding = 0 ∧ a'.view.spent = 0 ∧ a'.view.stale = a'.view.inFlight ∧
      a'.view.available = a.view.available) ∧
    ∀ rs, EachCall (fun e r => ¬ Advances key e r) (e.apply r).2 rs →
      (tallied key {} (e.apply r).2 rs).consumed ≤ (tallied key {} (e.apply r).2 rs).issued ∧
      (tallied key {} (e.apply r).2 rs).returned ≤ (tallied key {} (e.apply r).2 rs).issued +
        (tallied key {} (e.apply r).2 rs).revalidated := by
  obtain ⟨a, a', plan, hadmitted, hfound, hafter, htotals, hcapacity, hplan⟩ := hadvance.inv
  -- the advance quarantines all that is in flight
  obtain ⟨hmoves, hplanned⟩ := LedgerPlan.quarantineInFlight_moves hplan
  have hpublished := appliedAccount_totals a r a'
  refine ⟨⟨a, _, hfound, hafter, ?_⟩, fun rs _ => ?_⟩
  · have hview : ExactView a.capacity a.totals a.view :=
      computeView_of_closed (h.sound.accounts key a hfound).closed
    have hclosed := ((Reachable.applied r h).sound.accounts key _ hafter).closed
    have hview' : ExactView (appliedAccount a r a').capacity (appliedAccount a r a').totals
        (appliedAccount a r a').view := computeView_of_closed hclosed
    have hspent : (appliedAccount a r a').view.spent = (appliedAccount a r a').totals.spent :=
      congrArg CreditView.spent (computeView_eq _ _)
    have hstale := hview'.stale
    rw [hpublished.1, hpublished.2, htotals, hcapacity] at hview'
    rw [hpublished.1, htotals] at hspent hstale
    obtain ⟨-, hspentNone, hstaleAll⟩ := hmoves
    have hzero : (0 : UInt64).toNat = 0 := rfl
    have hin := hview.inFlight
    have havailable := hview.available
    have hin' := hview'.inFlight
    have hout' := hview'.outstanding
    have havailable' := hview'.available
    simp only [CreditTotals.buckets] at hspentNone hstaleAll
    rw [hplanned] at hin' havailable'
    simp only at hin' havailable'
    refine ⟨UInt64.toNat_inj.mp ?_, UInt64.toNat_inj.mp ?_, UInt64.toNat_inj.mp ?_,
      UInt64.toNat_inj.mp ?_⟩
    · omega
    · rw [hspent, hspentNone, hzero]
    · rw [hstale]
      omega
    · omega
  -- and what it leaves opens the tally of the new era
  · have hera : InEra key {} (e.apply r).2 := by
      refine .open_ _ hafter ?_
      rw [hpublished.1, htotals]
      exact covered_of_quarantine hmoves
    exact ⟨(hera.run rs).consumed, (hera.run rs).returned⟩

/-! ### An era with a revalidation

Three credits are issued and one is consumed before the advance.  In the new era one credit is
issued and consumed, and the operator revalidates one stale credit as spent; both are returned. -/

namespace TwoEras

/-- The engine in front of the new era, with three credits issued. -/
def before : CreditEngine (Observed InMemoryJournal) :=
  let request := Fixture.request ⟨5, 5⟩ Fixture.me
  (Fixture.boot {} { journal := {} } ⟨5, 5⟩).run
    [request .open_ 1, { request .issue 2 with count := 3 }, request .consume 3]

/-- The request that starts the new era. -/
def advance : CreditRequest := Fixture.request ⟨5, 5⟩ Fixture.me .advanceEpoch 4

/-- The requests of the new era. -/
def later : List CreditRequest :=
  let request := Fixture.requestIn 2 2 ⟨5, 5⟩ Fixture.me
  [request .reconcile 5, request .issue 6, request .consume 7,
    { request .revalidate 8 with decision := .toConsumed }, { request .return_ 9 with count := 2 }]

/-- The engine in front of the new era is reachable. -/
theorem before_reachable : Reachable before := by
  unfold before
  exact Reachable.run (.recovered (.made ..) (by decide +kernel)) _

/-- The advance and the run behind it, evaluated once. -/
theorem evaluated : Advances Fixture.account before advance ∧
    ((before.apply advance).2.accounts[Fixture.account]?).map (fun b => b.view.inFlight) =
      some 3 ∧
    tallied Fixture.account {} (before.apply advance).2 later =
      { issued := 1, consumed := 1, returned := 2, revalidated := 1 } ∧
    EachCall (fun e r => ¬ Advances Fixture.account e r) (before.apply advance).2 later := by
  decide +kernel

/-- The run of the new era. -/
theorem later_within : Advances Fixture.account before advance ∧
    (∃ a', (before.apply advance).2.accounts[Fixture.account]? = some a' ∧ a'.view.stale = 3 ∧
      a'.view.outstanding = 0 ∧ a'.view.spent = 0) ∧
    tallied Fixture.account {} (before.apply advance).2 later =
      { issued := 1, consumed := 1, returned := 2, revalidated := 1 } ∧
    (tallied Fixture.account {} (before.apply advance).2 later).returned ≤
      (tallied Fixture.account {} (before.apply advance).2 later).issued +
        (tallied Fixture.account {} (before.apply advance).2 later).revalidated := by
  obtain ⟨hadvance, hget, htallied, hsame⟩ := evaluated
  obtain ⟨⟨a, a', -, hafter, hout, hspent, hstale, -⟩, hlater⟩ :=
    stale_never_spendable before_reachable hadvance
  have hthree : ∀ b, (before.apply advance).2.accounts[Fixture.account]? = some b →
      b.view.inFlight = 3 := by
    intro b hb
    rw [hb] at hget
    exact Option.some.inj hget
  refine ⟨hadvance, ⟨a', hafter, hstale.trans (hthree a' hafter), hout, hspent⟩,
    htallied, (hlater later hsame).2⟩

end TwoEras

end CreditEngine

end CreditFabric
