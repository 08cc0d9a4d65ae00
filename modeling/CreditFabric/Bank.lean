import CreditFabric.BucketMachine
import CreditFabric.Era
import CreditFabric.Isolation
import CreditFabric.Lib.Serial
import CreditFabric.Sequences

namespace CreditFabric

open Std (ExtTreeMap)

/-!
# The engine as a bank of bucket machines

What the fabric keeps is a bank: a bucket machine for each account, over unbounded integers.
An applied request opens an account or runs the mutator it names on the machine of its account,
and nothing else moves a credit: not a refusal, a duplicate, a failed commit or a recovery.

* `CreditEngine.ledger_verdict`: what the ledger decides about an admitted request is the verdict
  of the machine of its account.
* `Deployment.settled_serially`: over any number of boots the bank is the result of one serial
  history, of what each boot has reported as applied and at most the one request that it was cut
  off in.
* `Deployment.books_balance`: the counters of an account are sums over that history.
-/

/-! ### Mutators of requests -/

/-- The mutator a request runs on the ledger of an account with the configuration `c`. -/
def CreditRequest.mutator (c : AccountConfig) (r : CreditRequest) : Option Mutator :=
  match r.op with
  | .issue => some (.issue r.count c.rules.minIssue c.rules.maxIssuePerAttempt)
  | .consume => some (.consume r.count)
  | .return_ => some (.giveBack r.count)
  | .protect => some (.protect r.count c.rules.allowProtect)
  | .unprotect => some (.unprotect r.count)
  | .setCapacity =>
    some (.setCapacity r.newCapacity c.maxCapacity c.rules.allowCapacityGrowth)
  | .advanceEpoch | .rotate => some .quarantineInFlight
  | .retire => some (.retireStale r.count)
  | .revalidate =>
    some (if r.decision = .toReturned then .revalidateToReturned r.count
      else .revalidateToConsumed r.count)
  | _ => none

/-- A mutator without the bounds that the policy of an account sets. -/
def Mutator.unrestricted : Mutator → Mutator
  | .issue count _ _ => .issue count 0 0xFFFFFFFFFFFFFFFF
  | .protect count _ => .protect count true
  | .setCapacity newCapacity _ _ => .setCapacity newCapacity 0xFFFFFFFFFFFFFFFF true
  | u => u

/-- The mutator of a request, whatever the policy of its account. -/
def CreditRequest.bareMutator (r : CreditRequest) : Option Mutator :=
  (r.mutator {}).map Mutator.unrestricted

/-- Without the policy of the account, a request has its bare mutator. -/
theorem CreditRequest.mutator_unrestricted (c : AccountConfig) (r : CreditRequest) :
    (r.mutator c).map Mutator.unrestricted = r.bareMutator := by
  unfold bareMutator mutator
  cases r.op <;> rfl

namespace BucketMachine

/-- The move of a mutator that is not refused; without a mutator nothing moves. -/
def settle (m : BucketMachine) : Option Mutator → Option BucketMachine
  | none => some m
  | some u => if m.refusal u = none then some (m.move u) else none

/-- A machine moves without asking for the policy. -/
theorem move_unrestricted (m : BucketMachine) (u : Mutator) : m.move u.unrestricted = m.move u := by
  cases u <;> rfl

/-- Lifting the bounds of the policy refuses nothing more. -/
private theorem refusal_unrestricted {m : BucketMachine} {u : Mutator} (h : m.refusal u = none) :
    m.refusal u.unrestricted = none := by
  have hmax : ∀ n : UInt64, ¬ 0xFFFFFFFFFFFFFFFF < n := by
    intro n
    have hn := n.toNat_lt
    have hvalue : (0xFFFFFFFFFFFFFFFF : UInt64).toNat = 2 ^ 64 - 1 := rfl
    rw [UInt64.lt_iff_toNat_lt, hvalue]
    omega
  have hmin : ∀ n : UInt64, ¬ n < 0 := by
    intro n
    have hvalue : (0 : UInt64).toNat = 0 := rfl
    rw [UInt64.lt_iff_toNat_lt, hvalue]
    omega
  cases u with
  | issue count lo hi =>
    simp only [refusal] at h
    split_ifs at h with hzero _ hroom hover
    simp only [Mutator.unrestricted, refusal, hzero, hmin, hmax, or_self, hroom, hover, if_false]
  | protect count allowed =>
    simp only [refusal] at h
    split_ifs at h with _ hzero hroom
    simp only [Mutator.unrestricted, refusal, reduceCtorEq, hzero, hroom, if_false]
  | setCapacity n limit allowGrowth =>
    simp only [refusal] at h
    split_ifs at h with hzero _ _ hfloor
    simp only [Mutator.unrestricted, refusal, hzero, hmax, reduceCtorEq, and_false, hfloor,
      if_false]
  | _ => exact h

/-- A move that the policy allows is also a move without it. -/
theorem settle_unrestricted {m m' : BucketMachine} {u : Option Mutator}
    (h : m.settle u = some m') : m.settle (u.map Mutator.unrestricted) = some m' := by
  cases u with
  | none => exact h
  | some u =>
    simp only [settle] at h
    split_ifs at h with hpermitted
    rw [Option.map_some, settle, if_pos (refusal_unrestricted hpermitted), move_unrestricted]
    exact h

end BucketMachine

/-! ### The decision of an account -/

/-- The buckets of an account. -/
def AccountState.machine (a : AccountState) : BucketMachine :=
  (LedgerPlan.start a.capacity a.totals).machine

/-- The buckets are read off capacity and totals. -/
theorem AccountState.machine_congr {a a' : AccountState} (hcapacity : a'.capacity = a.capacity)
    (htotals : a'.totals = a.totals) : a'.machine = a.machine := by
  unfold machine
  rw [hcapacity, htotals]

/-- Why the ledger refuses a request: the policy forbids its Return, or the machine of the account
    refuses the mutator. -/
def AccountState.ledgerRefusal (a : AccountState) (r : CreditRequest) : Option Reason :=
  if r.op = .return_ ∧ a.config.rules.allowReturn = false then some .policyRefused
  else (r.mutator a.config).bind a.machine.refusal

/-- Nothing in front of the ledger stops the request: no hard exhaustion and no other binding stops
    an Issue, a Revalidate says to what, and the era has a successor. -/
structure AccountState.Ungated (a : AccountState) (r : CreditRequest) : Prop where
  open_ : r.op = .issue → a.hardExhausted = false
  bound : r.op = .issue → ∃ b, a.incarnations[r.authority.incarnation]? = some b ∧
    (bindIssue b r).2 = none
  decided : r.op = .revalidate → r.decision ≠ .none
  later : r.op = .rotate → a.epoch < r.count
  epoch : r.op = .advanceEpoch → ¬ a.epoch + 1 < a.epoch
  generation : r.op = .advanceEpoch ∨ r.op = .rotate → ¬ a.generation + 1 < a.generation

namespace LedgerPlan

variable {cap : UInt64} {t : CreditTotals}

/-- A mutator of a fresh plan, next to the machine of the plan. -/
inductive Judged (cap : UInt64) (t : CreditTotals) (u : Mutator) : Bool × LedgerPlan → Prop
  | moved (plan : LedgerPlan) (permitted : (start cap t).machine.refusal u = none)
      (machine : (start plan.capacity plan.totals).machine = (start cap t).machine.move u) :
      Judged cap t u (true, plan)
  | refused (plan : LedgerPlan) (failed : plan.status.ok = false)
      (refusal : (start cap t).machine.refusal u = some plan.status.reason) :
      Judged cap t u (false, plan)

/-- The machine judges every mutator of a closed ledger. -/
theorem mutate_judged (hclosed : Closed cap t) (u : Mutator) :
    Judged cap t u ((start cap t).mutate u) := by
  have hok : (start cap t).status.ok = true := (checkInvariants_ok_iff _ _).mpr hclosed
  have hrefines := mutate_refines (p := start cap t) hok hclosed u
  generalize (start cap t).mutate u = result at hrefines ⊢
  cases hrefines with
  | moved p' permitted status closed machine => exact .moved p' permitted machine
  | refused reason detail refusal h =>
    refine .refused _ ?_ refusal
    show (reason == Reason.ok) = false
    simpa using h

end LedgerPlan

section Decisions

variable {a a' : AccountState} {r : CreditRequest}

/-- A data operation runs the mutator of its request, unless the policy forbids Returns. -/
theorem ledgerApply_mutates (plan : LedgerPlan) (a : AccountState) (hop : opIsLedger r.op = true) :
    (r.op = .return_ ∧ a.config.rules.allowReturn = false ∧
      (ledgerApply plan a r).1 = .refused .policyRefused 2) ∨
    ∃ u, r.mutator a.config = some u ∧
      ¬ (r.op = .return_ ∧ a.config.rules.allowReturn = false) ∧
      ledgerApply plan a r =
        (if (plan.mutate u).1 then .success else (plan.mutate u).2.status, (plan.mutate u).2) := by
  unfold ledgerApply CreditRequest.mutator
  cases h : r.op with
  | issue => exact .inr ⟨_, rfl, by simp, rfl⟩
  | consume => exact .inr ⟨_, rfl, by simp, rfl⟩
  | return_ =>
    cases hallow : a.config.rules.allowReturn with
    | false =>
      refine .inl ⟨rfl, rfl, ?_⟩
      simp only [hallow, Bool.not_false, if_true]
    | true =>
      refine .inr ⟨_, rfl, by simp, ?_⟩
      simp only [hallow, Bool.not_true, Bool.false_eq_true, if_false]
      rfl
  | protect => exact .inr ⟨_, rfl, by simp, rfl⟩
  | unprotect => exact .inr ⟨_, rfl, by simp, rfl⟩
  | _ =>
    rw [h] at hop
    exact absurd hop (by decide)

/-- The ledger on a data operation, next to the machine of the account. -/
inductive LedgerJudged (a : AccountState) (r : CreditRequest) : Status × LedgerPlan → Prop
  | accepted (plan : LedgerPlan) (permitted : a.ledgerRefusal r = none)
      (settled : a.machine.settle (r.mutator a.config) =
        some (LedgerPlan.start plan.capacity plan.totals).machine) :
      LedgerJudged a r (.success, plan)
  | refused (s : Status) (plan : LedgerPlan) (failed : s.ok = false)
      (refusal : a.ledgerRefusal r = some s.reason) : LedgerJudged a r (s, plan)

/-- The plan of a ledger operation is judged by policy and machine. -/
theorem ledgerApply_judged (hclosed : Closed a.capacity a.totals) (hop : opIsLedger r.op = true) :
    LedgerJudged a r (ledgerApply (.start a.capacity a.totals) a r) := by
  rcases ledgerApply_mutates (.start a.capacity a.totals) a hop with
    ⟨hreturn, hforbidden, hstatus⟩ | ⟨u, hu, hallowed, heq⟩
  · generalize ledgerApply (.start a.capacity a.totals) a r = result at hstatus ⊢
    obtain ⟨s, plan⟩ := result
    replace hstatus : s = .refused .policyRefused 2 := hstatus
    rw [hstatus]
    refine .refused _ plan rfl ?_
    unfold AccountState.ledgerRefusal
    rw [if_pos ⟨hreturn, hforbidden⟩]
    rfl
  · rw [heq]
    have hjudged := LedgerPlan.mutate_judged hclosed u
    generalize (LedgerPlan.start a.capacity a.totals).mutate u = result at hjudged ⊢
    have hrefusal : a.ledgerRefusal r = a.machine.refusal u := by
      unfold AccountState.ledgerRefusal
      rw [if_neg hallowed, hu]
      rfl
    cases hjudged with
    | moved plan permitted machine =>
      refine .accepted plan (hrefusal.trans permitted) ?_
      rw [hu, machine]
      exact if_pos permitted
    | refused plan failed refusal => exact .refused _ plan failed (hrefusal.trans refusal)

/-- A control operation that runs a mutator and keeps its result. -/
theorem settle_of_mutate (hclosed : Closed a.capacity a.totals) {u : Mutator} {plan : LedgerPlan}
    (hu : r.mutator a.config = some u)
    (hplan : (LedgerPlan.start a.capacity a.totals).mutate u = (true, plan))
    (hcapacity : a'.capacity = plan.capacity) (htotals : a'.totals = plan.totals) :
    a.machine.settle (r.mutator a.config) = some a'.machine := by
  have hjudged := LedgerPlan.mutate_judged hclosed u
  rw [hplan] at hjudged
  cases hjudged with
  | moved _ permitted machine =>
    unfold AccountState.machine
    rw [hu, hcapacity, htotals, machine]
    exact if_pos permitted

/-- A request without a mutator. -/
theorem settle_idle (hu : r.mutator a.config = none) (hcapacity : a'.capacity = a.capacity)
    (htotals : a'.totals = a.totals) :
    a.machine.settle (r.mutator a.config) = some a'.machine := by
  rw [hu, AccountState.machine_congr hcapacity htotals]
  rfl

/-- A control operation that proceeds makes its move. -/
theorem control_settles {limits : EngineLimits} (hclosed : Closed a.capacity a.totals)
    (h : ControlCase limits a r (.proceed a')) :
    a.machine.settle (r.mutator a.config) = some a'.machine := by
  have hcapacity : ∀ {plan : LedgerPlan},
      (LedgerPlan.start a.capacity a.totals).Settled (true, plan) →
      a.capacity = plan.capacity := fun hsettled => hsettled.keeps.capacity.symm
  cases h with
  | exhausted op => exact settle_idle (by simp [CreditRequest.mutator, op]) rfl rfl
  | cleared op => exact settle_idle (by simp [CreditRequest.mutator, op]) rfl rfl
  | resized op plan hplan =>
    have hu : r.mutator a.config = some (.setCapacity r.newCapacity a.config.maxCapacity
        a.config.rules.allowCapacityGrowth) := by simp [CreditRequest.mutator, op]
    refine settle_of_mutate hclosed hu hplan rfl ?_
    -- a new capacity leaves the totals
    unfold LedgerPlan.setCapacity at hplan
    simp only [LedgerPlan.refuse] at hplan
    split_ifs at hplan
    any_goals cases hplan
    rfl
  | advanced op plan hplan =>
    have hsettled := LedgerPlan.quarantineInFlight_settled a.capacity a.totals
    rw [hplan] at hsettled
    refine settle_of_mutate (u := .quarantineInFlight) hclosed ?_ hplan (hcapacity hsettled) rfl
    rcases op with op | op <;> simp [CreditRequest.mutator, op]
  | retired op plan hplan =>
    have hsettled := LedgerPlan.retireStale_settled (p := .start a.capacity a.totals) r.count
    rw [hplan] at hsettled
    have hu : r.mutator a.config = some (.retireStale r.count) := by
      simp [CreditRequest.mutator, op]
    exact settle_of_mutate hclosed hu hplan (hcapacity hsettled) rfl
  | revalidated op plan hplan =>
    have hsettled := revalidate_settled (LedgerPlan.start a.capacity a.totals) r
    rw [hplan] at hsettled
    have hu : r.mutator a.config = some (if r.decision = .toReturned then
        .revalidateToReturned r.count else .revalidateToConsumed r.count) := by
      simp [CreditRequest.mutator, op]
    refine settle_of_mutate hclosed hu ?_ (hcapacity hsettled) rfl
    by_cases hdec : r.decision = .toReturned
    · rw [if_pos hdec] at hplan ⊢
      exact hplan
    · rw [if_neg hdec] at hplan ⊢
      exact hplan
  | fenced op => exact settle_idle (by simp [CreditRequest.mutator, op]) rfl rfl
  | retiredIncarnation op => exact settle_idle (by simp [CreditRequest.mutator, op]) rfl rfl

/-- **An applied decision is a move of the machine.** -/
theorem decision_settles {J : Type} {e : CreditEngine J} (hclosed : Closed a.capacity a.totals)
    (hd : e.decision a r = .proceed a') :
    a.machine.settle (r.mutator a.config) = some a'.machine := by
  rcases e.decision_cases a r with ⟨hcase, -⟩ | ⟨hcase, hop⟩ | ⟨hcase, -⟩ <;> rw [hd] at hcase
  · exact control_settles hclosed hcase
  · cases hcase
    exact settle_idle (by simp [CreditRequest.mutator, hop]) rfl rfl
  · have hledger : opIsLedger r.op = true →
        (ledgerApply (.start a.capacity a.totals) a r).1.ok = true → a'.capacity = a.capacity →
        a'.totals = (ledgerApply (.start a.capacity a.totals) a r).2.totals →
        a.machine.settle (r.mutator a.config) = some a'.machine := by
      intro hop hok hcapacity htotals
      have hkeeps := (ledgerApply_keeps hok).capacity
      have hjudged := ledgerApply_judged hclosed hop
      generalize ledgerApply (.start a.capacity a.totals) a r = result at *
      cases hjudged with
      | accepted plan permitted settled =>
        rw [settled]
        unfold AccountState.machine
        rw [hcapacity, htotals, show plan.capacity = a.capacity from hkeeps]
      | refused s plan failed => exact absurd (failed.symm.trans hok) (by decide)
    cases hcase with
    | issued op _ _ _ _ hok => exact hledger (by rw [op]; rfl) hok rfl rfl
    | applied hop _ hok => exact hledger hop hok rfl rfl

/-- A decision that does not proceed moves nothing. -/
theorem decision_machine {J : Type} {e : CreditEngine J}
    (h : ∀ a', e.decision a r ≠ .proceed a') : (e.decision a r).account.machine = a.machine := by
  refine AccountState.machine_congr ?_ (decision_totals h)
  rcases e.decision_cases a r with ⟨hcase, -⟩ | ⟨hcase, -⟩ | ⟨hcase, -⟩
  · generalize e.decision a r = d at hcase h ⊢
    cases hcase <;> first | rfl | exact absurd rfl (h _)
  · generalize e.decision a r = d at hcase
    cases hcase <;> rfl
  · generalize e.decision a r = d at hcase h ⊢
    cases hcase <;> rfl

/-- What the ledger makes of a request, next to the machine of the account. -/
inductive DecisionJudged (a : AccountState) (r : CreditRequest) : Decision → Prop
  | proceeds (a' : AccountState) (permitted : a.ledgerRefusal r = none) :
      DecisionJudged a r (.proceed a')
  | refuses (s : Status) (a' : AccountState) (refusal : a.ledgerRefusal r = some s.reason) :
      DecisionJudged a r (.refuse s a')

/-- A plan of one mutator is judged as the mutator is. -/
theorem planned_judged (hclosed : Closed a.capacity a.totals) {u : Mutator}
    (hreturn : r.op ≠ .return_) (hu : r.mutator a.config = some u)
    (commit : LedgerPlan → AccountState) :
    DecisionJudged a r (planned a (·.mutate u) commit) := by
  have hjudged := LedgerPlan.mutate_judged hclosed u
  have hrefusal : a.ledgerRefusal r = a.machine.refusal u := by
    unfold AccountState.ledgerRefusal
    rw [if_neg fun h => hreturn h.1, hu]
    rfl
  unfold planned
  simp only
  generalize (LedgerPlan.start a.capacity a.totals).mutate u = result at hjudged ⊢
  cases hjudged with
  | moved plan permitted machine => exact .proceeds _ (hrefusal.trans permitted)
  | refused plan failed refusal => exact .refuses _ _ (hrefusal.trans refusal)

/-- An advance of the era is never refused by the ledger. -/
theorem advance_judged {limits : EngineLimits} (hclosed : Closed a.capacity a.totals)
    (hungated : a.Ungated r) (hop : r.op = .advanceEpoch ∨ r.op = .rotate) :
    DecisionJudged a r (decideControl limits a r) := by
  have hpermitted : a.ledgerRefusal r = none := by
    unfold AccountState.ledgerRefusal CreditRequest.mutator
    rcases hop with hop | hop <;> simp [hop, BucketMachine.refusal]
  have hgeneration := hungated.generation hop
  have hjudged := LedgerPlan.mutate_judged hclosed .quarantineInFlight
  replace hjudged : LedgerPlan.Judged a.capacity a.totals .quarantineInFlight
    (LedgerPlan.start a.capacity a.totals).quarantineInFlight := hjudged
  unfold decideControl
  generalize (LedgerPlan.start a.capacity a.totals).quarantineInFlight = result at hjudged ⊢
  rcases hop with hop | hop
  · have hepoch := hungated.epoch hop
    rw [hop]
    simp only [addOverflow, reduceCtorEq, if_false, false_and, hepoch, hgeneration, decide_false,
      Bool.false_eq_true]
    cases hjudged with
    | moved plan permitted machine => exact .proceeds _ hpermitted
    | refused plan failed refusal => exact absurd refusal (by simp [BucketMachine.refusal])
  · have hlater : ¬ r.count ≤ a.epoch := UInt64.not_le.mpr (hungated.later hop)
    rw [hop]
    simp only [addOverflow, if_true, true_and, hlater, if_false, Bool.false_eq_true, hgeneration,
      decide_false]
    cases hjudged with
    | moved plan permitted machine => exact .proceeds _ hpermitted
    | refused plan failed refusal => exact absurd refusal (by simp [BucketMachine.refusal])

/-- The data operations. -/
theorem decideLedger_judged (hclosed : Closed a.capacity a.totals) (hungated : a.Ungated r)
    (hop : opIsLedger r.op = true) : DecisionJudged a r (decideLedger a r) := by
  have hjudged := ledgerApply_judged hclosed hop
  have hof : ∀ x : AccountState, x.config = a.config → x.capacity = a.capacity →
      x.totals = a.totals → ∀ y : LedgerPlan → AccountState, DecisionJudged a r
        (if (!(ledgerApply (.start x.capacity x.totals) x r).1.ok) = true
          then .refuse (ledgerApply (.start x.capacity x.totals) x r).1 x
          else .proceed (y (ledgerApply (.start x.capacity x.totals) x r).2)) := by
    intro x hconfig hcapacity htotals y
    rw [ledgerApply_congr hconfig, hcapacity, htotals]
    generalize ledgerApply (.start a.capacity a.totals) a r = result at hjudged ⊢
    cases hjudged with
    | accepted plan permitted settled => exact .proceeds _ permitted
    | refused s plan failed refusal =>
      simp only [failed, Bool.not_false, if_true]
      exact .refuses s x refusal
  unfold decideLedger
  simp only [hop, Bool.not_true, Bool.false_eq_true, if_false]
  by_cases hissue : r.op = .issue
  · obtain ⟨b, hb, hbound⟩ := hungated.bound hissue
    rw [if_neg fun h => absurd h.1 (by rw [hungated.open_ hissue]; decide)]
    simp only [hissue, if_true, AccountState.findIncarnation, hb, Option.map_some, hbound]
    exact hof (a.setIncarnation r.authority.incarnation (bindIssue b r).1) rfl rfl rfl
      fun plan => { a.setIncarnation r.authority.incarnation (bindIssue b r).1 with
        totals := plan.totals }
  · rw [if_neg fun h => hissue h.2]
    simp only [hissue, if_false]
    exact hof a rfl rfl rfl fun plan => { a with totals := plan.totals }

/-- **The ledger decides as the machine of the account does.** -/
theorem decision_judged {J : Type} (e : CreditEngine J) (hclosed : Closed a.capacity a.totals)
    (hungated : a.Ungated r) (hmutator : (r.mutator a.config).isSome = true) :
    DecisionJudged a r (e.decision a r) := by
  have hmutates := hmutator
  unfold CreditRequest.mutator at hmutates
  unfold CreditEngine.decision
  -- the ledger operations, and the control operations that move credit
  cases hop : r.op with
  | issue => exact decideLedger_judged hclosed hungated (by rw [hop]; rfl)
  | consume => exact decideLedger_judged hclosed hungated (by rw [hop]; rfl)
  | return_ => exact decideLedger_judged hclosed hungated (by rw [hop]; rfl)
  | protect => exact decideLedger_judged hclosed hungated (by rw [hop]; rfl)
  | unprotect => exact decideLedger_judged hclosed hungated (by rw [hop]; rfl)
  | advanceEpoch => exact advance_judged hclosed hungated (.inl hop)
  | rotate => exact advance_judged hclosed hungated (.inr hop)
  | setCapacity =>
    simp only [classify, if_true]
    unfold decideControl
    rw [hop]
    exact planned_judged (u := .setCapacity r.newCapacity a.config.maxCapacity
      a.config.rules.allowCapacityGrowth) hclosed (by rw [hop]; decide)
      (by simp [CreditRequest.mutator, hop]) _
  | retire =>
    simp only [classify, if_true]
    unfold decideControl
    rw [hop]
    exact planned_judged (u := .retireStale r.count) hclosed (by rw [hop]; decide)
      (by simp [CreditRequest.mutator, hop]) _
  | revalidate =>
    have hdecided := hungated.decided hop
    have hplanned := planned_judged (u := if r.decision = .toReturned then
      .revalidateToReturned r.count else .revalidateToConsumed r.count) hclosed
      (by rw [hop]; decide) (by simp [CreditRequest.mutator, hop])
      fun plan => { a with totals := plan.totals }
    simp only [classify, if_true]
    unfold decideControl
    rw [hop]
    simp only [hdecided, if_false]
    by_cases hdec : r.decision = .toReturned
    · simp only [hdec, if_true] at hplanned ⊢
      exact hplanned
    · simp only [hdec, if_false] at hplanned ⊢
      exact hplanned
  | _ =>
    rw [hop] at hmutates
    exact absurd hmutates (by simp)

end Decisions

/-! ### The bank -/

/-- The buckets of every account. -/
abbrev Bank := UInt64 → Option BucketMachine

namespace Bank

/-- A bank without accounts. -/
def empty : Bank := fun _ => none

/-- The machine of a new account: all of its capacity is available. -/
def opened (capacity : UInt64) : BucketMachine where
  available := capacity.toNat
  protectedCredits := 0
  outstanding := 0
  spent := 0
  stale := 0
  issued := 0
  consumed := 0
  returned := 0

/-- A machine for one account. -/
def put (b : Bank) (key : UInt64) (m : BucketMachine) : Bank := Function.update b key (some m)

/-- What an applied request does: an Open adds its account, and every other request runs its mutator
    on the machine of its account. -/
def settle (b : Bank) (r : CreditRequest) : Option Bank :=
  if r.op = .open_ then
    if b r.authority.account = none then
      some (b.put r.authority.account (opened r.config.capacity))
    else none
  else ((b r.authority.account).bind (·.settle r.bareMutator)).map (b.put r.authority.account)

/-- The bank behind a history of applied requests. -/
def settleAll (b : Bank) (history : List CreditRequest) : Option Bank :=
  Lib.serial settle b history

/-- An Open of an unknown account adds a machine with nothing issued. -/
theorem settle_opened {b : Bank} {r : CreditRequest} (hop : r.op = .open_)
    (hnone : b r.authority.account = none) :
    b.settle r = some (b.put r.authority.account (opened r.config.capacity)) := by
  unfold settle
  rw [if_pos hop, if_pos hnone]

/-- Any other request moves the machine of its account. -/
theorem settle_moved {b : Bank} {r : CreditRequest} {m m' : BucketMachine} (hop : r.op ≠ .open_)
    (hm : b r.authority.account = some m) (hmove : m.settle r.bareMutator = some m') :
    b.settle r = some (b.put r.authority.account m') := by
  unfold settle
  rw [if_neg hop, hm, Option.bind_some, hmove, Option.map_some]

/-- **Inversion.** -/
theorem settle_inv {b b' : Bank} {r : CreditRequest} (h : b.settle r = some b') :
    (r.op = .open_ ∧ b r.authority.account = none ∧
      b' = b.put r.authority.account (opened r.config.capacity)) ∨
    ∃ m m', r.op ≠ .open_ ∧ b r.authority.account = some m ∧ m.settle r.bareMutator = some m' ∧
      b' = b.put r.authority.account m' := by
  unfold settle at h
  by_cases hop : r.op = .open_
  · rw [if_pos hop] at h
    by_cases hnone : b r.authority.account = none
    · rw [if_pos hnone, Option.some.injEq] at h
      exact .inl ⟨hop, hnone, h.symm⟩
    · rw [if_neg hnone] at h
      exact absurd h (by simp)
  · rw [if_neg hop, Option.map_eq_some_iff] at h
    obtain ⟨m', hm', rfl⟩ := h
    obtain ⟨m, hm, hmove⟩ := Option.bind_eq_some_iff.mp hm'
    exact .inr ⟨m, m', hop, hm, hmove, rfl⟩

/-- A machine put where it already is. -/
theorem put_self {b : Bank} {key : UInt64} {m : BucketMachine} (h : b key = some m) :
    b.put key m = b := by
  unfold put
  rw [← h, Function.update_eq_self]

end Bank

/-- The bank that a set of accounts stands for. -/
def bankOf (accounts : ExtTreeMap UInt64 AccountState) : Bank :=
  fun key => (accounts[key]?).map AccountState.machine

/-- No accounts stand for the empty bank. -/
theorem bankOf_empty : bankOf ∅ = Bank.empty := by
  funext key
  show ((∅ : ExtTreeMap UInt64 AccountState)[key]?).map _ = none
  rw [ExtTreeMap.getElem?_empty]
  rfl

/-- An account put into the map is a machine put into the bank. -/
theorem bankOf_insert (accounts : ExtTreeMap UInt64 AccountState) (key : UInt64)
    (a : AccountState) : bankOf (accounts.insert key a) = (bankOf accounts).put key a.machine := by
  funext key'
  unfold bankOf Bank.put
  by_cases hkey : key' = key
  · rw [hkey, Function.update_self, ExtTreeMap.getElem?_insert_self]
    rfl
  · rw [Function.update_of_ne hkey, Lib.getElem?_insert_of_ne _ _ hkey]

/-- The machine of an account that is there. -/
theorem bankOf_found {accounts : ExtTreeMap UInt64 AccountState} {key : UInt64} {a : AccountState}
    (h : accounts[key]? = some a) : bankOf accounts key = some a.machine := by
  unfold bankOf
  rw [h]
  rfl

/-- An account that is replaced by one with the same buckets. -/
theorem bankOf_replaced {accounts : ExtTreeMap UInt64 AccountState} {key : UInt64}
    {a a' : AccountState} (h : accounts[key]? = some a) (hmachine : a'.machine = a.machine) :
    bankOf (accounts.insert key a') = bankOf accounts := by
  rw [bankOf_insert, hmachine]
  exact Bank.put_self (bankOf_found h)

/-- Bookkeeping moves no credit. -/
theorem SameStanding.machine {a a' : AccountState} (h : SameStanding a a') :
    a'.machine = a.machine := AccountState.machine_congr h.capacity h.totals

/-- A new account stands for a machine with nothing issued. -/
private theorem openedAccount_machine (limits : EngineLimits) (r : CreditRequest)
    (hclosed : Closed r.config.capacity {}) :
    (openedAccount limits r).machine = Bank.opened r.config.capacity := by
  unfold AccountState.machine
  rw [show LedgerPlan.start (openedAccount limits r).capacity (openedAccount limits r).totals =
    .start r.config.capacity {} from rfl, LedgerPlan.machine_of_closed hclosed]
  rfl

namespace CreditEngine

variable {J : Type}

/-- An accepted Open adds its account to the bank. -/
theorem Opens.settles {e : CreditEngine J} {r : CreditRequest} (h : Opens e r) :
    (bankOf e.accounts).settle r =
      some (bankOf (e.accounts.insert r.authority.account (e.publishedOpen r))) := by
  have hclosed : Closed r.config.capacity {} := ⟨Nat.le_refl 0, Nat.le_refl 0, Nat.zero_le _⟩
  have hmachine : (e.publishedOpen r).machine = Bank.opened r.config.capacity :=
    (publishWindow_sameStanding _ _ _).machine.trans (openedAccount_machine e.limits r hclosed)
  rw [bankOf_insert, hmachine]
  refine Bank.settle_opened h.op ?_
  unfold bankOf
  rw [h.fresh.1]
  rfl

/-- An applied decision moves the machine of its account. -/
theorem Admitted.settles {e : CreditEngine J} {r : CreditRequest} {a a' : AccountState}
    (h : Admitted e r a) (hclosed : Closed a.capacity a.totals)
    (hd : e.decision a r = .proceed a') :
    (bankOf e.accounts).settle r =
      some (bankOf (e.accounts.insert r.authority.account (appliedAccount a r a'))) := by
  have hsettled := BucketMachine.settle_unrestricted (decision_settles hclosed hd)
  rw [CreditRequest.mutator_unrestricted] at hsettled
  rw [bankOf_insert, (appliedAccount_sameStanding _ _ _).machine]
  exact Bank.settle_moved h.notOpen (bankOf_found h.found) hsettled

/-- **What a call leads to.**  The accounts it leaves in memory or on the storage stand for the
    bank in front of the call, or for the bank behind the request. -/
theorem Leads.settles {e : CreditEngine J} {r : CreditRequest}
    {m : ExtTreeMap UInt64 AccountState} (hstanding : AllStanding e.accounts) (h : Leads e r m) :
    bankOf m = bankOf e.accounts ∨ (bankOf e.accounts).settle r = some (bankOf m) := by
  have hunmoved : ∀ {a : AccountState}, (∀ a', e.decision a r ≠ .proceed a') →
      (e.decision a r).account.machine = a.machine := decision_machine
  cases h with
  | same => exact .inl rfl
  | rejected a hadmitted s a' hd =>
    have hmachine := hunmoved (a := a) (by rw [hd]; simp)
    rw [hd] at hmachine
    exact .inl (bankOf_replaced hadmitted.found hmachine)
  | opened hopens => exact .inr hopens.settles
  | refused a hadmitted s a' hd =>
    have hmachine := hunmoved (a := a) (by rw [hd]; simp)
    rw [hd] at hmachine
    exact .inl (bankOf_replaced hadmitted.found
      ((refusedAccount_sameStanding _ _ _ _).machine.trans hmachine))
  | refusalUndone a hadmitted s a' hd =>
    have hmachine := hunmoved (a := a) (by rw [hd]; simp)
    rw [hd] at hmachine
    exact .inl (bankOf_replaced hadmitted.found hmachine)
  | applied a hadmitted a' hd =>
    exact .inr (hadmitted.settles (hstanding _ a hadmitted.found).sound.closed hd)
  | undone a hadmitted a' hd =>
    -- the rollback puts capacity and totals back
    exact .inl (bankOf_replaced hadmitted.found (AccountState.machine_congr rfl rfl))

/-- A call that reports an application has settled its request. -/
theorem applied_settles [Journal J] {e : CreditEngine J} {r : CreditRequest}
    (hstanding : AllStanding e.accounts) (h : (e.apply r).1.applied = true) :
    (bankOf e.accounts).settle r = some (bankOf (e.apply r).2.accounts) := by
  have hunapplied : ∀ {P : Prop}, (e.apply r).1.applied = false → P := by
    intro P hfalse
    rw [hfalse] at h
    exact absurd h (by decide)
  cases (apply_accounts e r).1 with
  | same unapplied => exact hunapplied unapplied
  | rejected _ _ _ _ _ unapplied => exact hunapplied unapplied
  | opened hopens outcome accounts =>
    rw [accounts]
    exact hopens.settles
  | refused a hadmitted s a' hd outcome => exact hunapplied (by rw [outcome]; rfl)
  | refusalUndone _ _ _ _ _ unapplied => exact hunapplied unapplied
  | applied a hadmitted a' hd outcome accounts =>
    rw [accounts]
    exact hadmitted.settles (hstanding _ a hadmitted.found).sound.closed hd
  | undone _ _ _ _ unapplied => exact hunapplied unapplied

/-- A call that reports no application moves no credit. -/
theorem unapplied_unmoved [Journal J] {e : CreditEngine J} {r : CreditRequest}
    (h : (e.apply r).1.applied = false) :
    bankOf (e.apply r).2.accounts = bankOf e.accounts := by
  have hunmoved : ∀ {a a' : AccountState} {s : Status}, e.decision a r = .reject s a' ∨
      e.decision a r = .refuse s a' → a'.machine = a.machine := by
    intro a a' s hd
    have hmachine := decision_machine (e := e) (a := a) (r := r)
      (by rcases hd with hd | hd <;> rw [hd] <;> simp)
    rcases hd with hd | hd
    · rw [hd] at hmachine
      exact hmachine
    · rw [hd] at hmachine
      exact hmachine
  cases (apply_accounts e r).1 with
  | same _ accounts => rw [accounts]
  | rejected a hadmitted s a' hd _ accounts =>
    rw [accounts]
    exact bankOf_replaced hadmitted.found (hunmoved (.inl hd))
  | opened hopens outcome =>
    rw [outcome] at h
    exact absurd (show true = false from h) (by decide)
  | refused a hadmitted s a' hd _ accounts =>
    rw [accounts]
    exact bankOf_replaced hadmitted.found
      ((refusedAccount_sameStanding _ _ _ _).machine.trans (hunmoved (.inr hd)))
  | refusalUndone a hadmitted s a' hd _ _ accounts =>
    rw [accounts]
    exact bankOf_replaced hadmitted.found (hunmoved (.inr hd))
  | applied a hadmitted a' hd outcome =>
    rw [outcome] at h
    exact absurd (show true = false from h) (by decide)
  | undone a hadmitted a' hd _ _ accounts =>
    -- the rollback puts capacity and totals back
    rw [accounts]
    exact bankOf_replaced hadmitted.found (AccountState.machine_congr rfl rfl)

/-- A call that reports an application has not latched the engine. -/
theorem healthy_of_applied [Journal J] {e : CreditEngine J} {r : CreditRequest}
    (h : (e.apply r).1.applied = true) : (e.apply r).2.journalFailed = false := by
  cases hlatched : (e.apply r).2.journalFailed with
  | false => rfl
  | true =>
    cases hfailed : e.journalFailed with
    | true =>
      rw [applied_of_latched hfailed r] at h
      exact absurd h (by decide)
    | false =>
      rw [(undecided_of_latched hfailed hlatched).2] at h
      exact absurd h (by decide)

end CreditEngine

/-! ### The verdict of the ledger -/

namespace CreditEngine

/-- **The ledger decides as the bucket machine.**  An admitted request for a move of credits that
    nothing in front of the ledger stops, and whose journal writes succeed, is applied exactly when
    the policy and the machine of its account allow it.  Then the machine makes its move; otherwise
    the refusal is the machine's first, is decided, and moves nothing. -/
theorem ledger_verdict {J : Type} [Journal J] {e : CreditEngine (Observed J)} (h : Reachable e)
    {r : CreditRequest} {a : AccountState} (hadmitted : Admitted e r a) (hungated : a.Ungated r)
    (hmutator : (r.mutator a.config).isSome = true)
    (hhealthy : (e.apply r).2.journalFailed = false) :
    ((e.apply r).1.applied = true ↔ a.ledgerRefusal r = none) ∧
    ((e.apply r).1.applied = false →
      (e.apply r).1.decided = true ∧ a.ledgerRefusal r = some (e.apply r).1.status.reason) ∧
    ∃ a', (e.apply r).2.accounts[r.authority.account]? = some a' ∧
      if (e.apply r).1.applied then a.machine.settle (r.mutator a.config) = some a'.machine
      else a'.machine = a.machine := by
  have hclosed := (h.sound.accounts _ a hadmitted.found).closed
  rw [apply_of_admitted hadmitted] at hhealthy ⊢
  obtain ⟨houtcome, hfound⟩ := settleDecision_of_healthy hhealthy
  rw [houtcome, hfound]
  have hjudged := decision_judged e hclosed hungated hmutator
  have hsettles := fun a' (hd : e.decision a r = .proceed a') => decision_settles hclosed hd
  have hunmoved := decision_machine (e := e) (a := a) (r := r)
  generalize e.decision a r = d at hjudged hsettles hunmoved ⊢
  cases hjudged with
  | proceeds a' permitted =>
    refine ⟨iff_of_true rfl permitted, fun happlied => absurd happlied (by simp [decidedOutcome,
      applicationOutcome, appliedOutcome]), _, rfl, ?_⟩
    rw [if_pos (show (decidedOutcome a r (.proceed a')).applied = true from rfl), hsettles a' rfl]
    exact congrArg some (appliedAccount_sameStanding _ _ _).machine.symm
  | refuses s a' refusal =>
    refine ⟨iff_of_false (by simp [decidedOutcome, refusalOutcome, refusedOutcome,
      CreditOutcome.decidedRefusal]) (by rw [refusal]; simp), fun _ => ⟨rfl, refusal⟩, _, rfl, ?_⟩
    rw [if_neg (show ¬ (decidedOutcome a r (.refuse s a')).applied = true by
      simp [decidedOutcome, refusalOutcome, refusedOutcome, CreditOutcome.decidedRefusal])]
    exact (refusedAccount_sameStanding _ _ _ _).machine.trans (hunmoved (by simp))

namespace TwoEras

/-- The account in front of the advance. -/
def held : AccountState := (before.accounts[Fixture.account]?).getD { window := {} }

/-- Six credits, of five that are available. -/
def tooMany : CreditRequest :=
  { Fixture.request ⟨5, 5⟩ Fixture.me .issue 4 with count := 6 }

/-- One credit more than are available is refused by the ledger. -/
theorem tooMany_refused : (before.apply tooMany).1.applied = false ∧
    held.ledgerRefusal tooMany = some .insufficientAvailable ∧
    (before.apply tooMany).1.status.reason = .insufficientAvailable := by
  -- one evaluation for everything that is read off the engine
  have hstate : (before.recovered = true ∧ before.journalFailed = false ∧
      validateRequest before.limits tooMany = none ∧
      before.accounts[tooMany.authority.account]? = some held ∧
      bindAuthority before.limits before.operatorIncarnation held tooMany = none ∧
      placeInSequence held tooMany = .admitted) ∧ held.hardExhausted = false ∧
      (held.incarnations[tooMany.authority.incarnation]?).any
        (fun b => decide ((bindIssue b tooMany).2 = none)) = true ∧
      (tooMany.mutator held.config).isSome = true ∧
      held.ledgerRefusal tooMany = some .insufficientAvailable ∧
      (before.apply tooMany).2.journalFailed = false := by decide +kernel
  obtain ⟨⟨hrecovered, hhealthy, hvalid, hfound, hplace, hsequence⟩, hopen, hbound, hmutator,
    hrefusal, hafter⟩ := hstate
  have hadmitted : Admitted before tooMany held :=
    ⟨hrecovered, hhealthy, hvalid, by decide, by decide, hfound, hplace, hsequence,
      fun h => absurd h (by decide)⟩
  have hungated : held.Ungated tooMany := by
    refine ⟨fun _ => hopen, fun _ => ?_, fun h => absurd h (by decide),
      fun h => absurd h (by decide), fun h => absurd h (by decide), fun h => absurd h (by decide)⟩
    obtain ⟨b, hb, hnone⟩ := (Option.any_eq_true _ _).mp hbound
    exact ⟨b, hb, of_decide_eq_true hnone⟩
  obtain ⟨happlied, hrefused, -⟩ :=
    ledger_verdict before_reachable hadmitted hungated hmutator hafter
  have hunapplied : (before.apply tooMany).1.applied = false := by
    rw [← Bool.not_eq_true, happlied, hrefusal]
    simp
  refine ⟨hunapplied, hrefusal, ?_⟩
  have hreason := (hrefused hunapplied).2
  rw [hrefusal, Option.some.injEq] at hreason
  exact hreason.symm

end TwoEras

end CreditEngine

/-! ### The books of a history -/

/-- The credits a mutator issues. -/
def Mutator.issues : Mutator → Nat
  | .issue count _ _ => count.toNat
  | _ => 0

/-- The credits a mutator counts as consumed. -/
def Mutator.consumes : Mutator → Nat
  | .consume count | .revalidateToConsumed count => count.toNat
  | _ => 0

/-- The credits a mutator counts as returned. -/
def Mutator.returns : Mutator → Nat
  | .giveBack count | .revalidateToReturned count => count.toNat
  | _ => 0

/-- The sum of what the requests of a history book on one account. -/
def booked (key : UInt64) (f : Mutator → Nat) (history : List CreditRequest) : Nat :=
  (history.map fun r => if r.authority.account = key then r.bareMutator.elim 0 f else 0).sum

namespace Bank

/-- A counter of an account; an account that does not exist counts nothing. -/
def counter (key : UInt64) (f : BucketMachine → Nat) (b : Bank) : Nat := (b key).elim 0 f

/-- **Counters are sums.**  A counter that starts at zero and that each mutator raises by its worth
    is the sum of a history. -/
theorem settleAll_counter {c : BucketMachine → Nat} {f : Mutator → Nat}
    (hnew : ∀ capacity, c (opened capacity) = 0)
    (hmove : ∀ m u, c (BucketMachine.move m u) = c m + f u) {history : List CreditRequest}
    {b : Bank} (h : settleAll empty history = some b) (key : UInt64) :
    b.counter key c = booked key f history := by
  -- putting an account changes no other account's counter
  have hput : ∀ (b : Bank) (key' : UInt64) (m : BucketMachine),
      (b.put key' m).counter key c = if key' = key then c m else b.counter key c := by
    intro b key' m
    unfold counter put
    by_cases hkey : key' = key
    · rw [if_pos hkey, hkey, Function.update_self]
      rfl
    · rw [if_neg hkey, Function.update_of_ne (Ne.symm hkey)]
  -- the counter is the sum of what each request books
  have hsum := Lib.serial_sum (q := counter key c)
    (g := fun r => if r.authority.account = key then r.bareMutator.elim 0 f else 0)
    (fun b r b' hstep => ?_) h
  · rw [hsum]
    exact Nat.zero_add _
  rcases settle_inv hstep with ⟨hop, hnone, rfl⟩ | ⟨m, m', -, hm, hsettle, rfl⟩
  · -- an Open has no mutator
    have hidle : r.bareMutator = none := by
      unfold CreditRequest.bareMutator CreditRequest.mutator
      rw [hop]
      rfl
    rw [hput, hidle, hnew]
    by_cases hkey : r.authority.account = key
    · rw [if_pos hkey, if_pos hkey, ← hkey, counter, hnone]
      rfl
    · rw [if_neg hkey, if_neg hkey, Nat.add_zero]
  · rw [hput]
    by_cases hkey : r.authority.account = key
    · rw [if_pos hkey, if_pos hkey, ← hkey, counter, hm]
      cases hu : r.bareMutator with
      | none =>
        rw [hu, BucketMachine.settle, Option.some.injEq] at hsettle
        rw [hsettle]
        rfl
      | some u =>
        rw [hu, BucketMachine.settle] at hsettle
        split_ifs at hsettle
        rw [← Option.some.inj hsettle]
        exact hmove m u
    · rw [if_neg hkey, if_neg hkey, Nat.add_zero]

end Bank

/-! ### Runs over many boots -/

/-- What a boot has done: the requests that it has reported as applied, and the one whose
    journaling has failed or was cut off by the crash that ended it. -/
structure Boot where
  reports : List CreditRequest := []
  cut : Option CreditRequest := none
deriving DecidableEq, Repr

namespace Boot

variable {J : Type} [Journal J]

/-- The boot behind one more call.  A call that latches the engine has reported nothing, and
    leaves open whether the storage has it. -/
def called (b : Boot) (e : CreditEngine J) (r : CreditRequest) : Boot :=
  if (e.apply r).1.applied then { b with reports := b.reports ++ [r] }
  else if e.journalFailed = false ∧ (e.apply r).2.journalFailed = true then { b with cut := some r }
  else b

/-- The boot that a crash has ended: in the call `cut`, or in none.  A latched engine writes
    nothing, so that its own call stays the one in doubt. -/
def ended (b : Boot) (cut : Option CreditRequest) : Boot :=
  { b with cut := b.cut <|> cut }

/-- A history of the boots that have ended: the reports of each of them in their order, and behind
    them at most the request that was cut off. -/
inductive Completed : List Boot → List CreditRequest → Prop
  | nil : Completed [] []
  | concat {boots : List Boot} {past : List CreditRequest} (h : Completed boots past) (b : Boot)
      {rest : List CreditRequest} (hrest : rest.Sublist b.cut.toList) :
      Completed (boots ++ [b]) (past ++ (b.reports ++ rest))

end Boot

namespace Deployment

open CreditEngine

variable {J : Type} [Journal J]

/-- What a crash leaves: in front of some journal call of the request `cut`, or of an explicit
    snapshot. -/
def CrashesIn (w : Deployment J) (disk : Disk) : Option CreditRequest → Prop
  | none => ∃ done, disk ∈ w.disk.afterAll done ∧ done <+: events w.engine w.engine.snapshot.2
  | some r => ∃ done, disk ∈ w.disk.afterAll done ∧ done <+: events w.engine (w.engine.apply r).2

/-- A run whose explicit snapshots returned Ok, with the boots that have ended and the current
    one. -/
inductive Reporting (w : Deployment J) : List Boot → Boot → List Act → Deployment J → Prop
  | nil : Reporting w [] {} [] w
  | called {boots : List Boot} {b : Boot} {acts : List Act} {w₁ w₂ : Deployment J}
      (run : Reporting w boots b acts w₁) (r : CreditRequest) (step : Step w₁ (.call r) w₂) :
      Reporting w boots (b.called w₁.engine r) (acts ++ [.call r]) w₂
  | snapshotted {boots : List Boot} {b : Boot} {acts : List Act} {w₁ w₂ : Deployment J}
      (run : Reporting w boots b acts w₁) (step : Step w₁ .snapshot w₂)
      (answered : w₁.Answered .snapshot) : Reporting w boots b (acts ++ [.snapshot]) w₂
  | restarted {boots : List Boot} {b : Boot} {acts : List Act} {w₁ w₂ : Deployment J}
      (run : Reporting w boots b acts w₁) (step : Step w₁ .restart w₂)
      (cut : Option CreditRequest) (crash : w₁.CrashesIn w₂.disk cut) :
      Reporting w (boots ++ [b.ended cut]) {} (acts ++ [.restart]) w₂

/-- What is reported changes no run. -/
theorem Reporting.run {w w' : Deployment J} {boots : List Boot} {b : Boot} {acts : List Act}
    (h : Reporting w boots b acts w') : Run w acts w' := by
  induction h with
  | nil => exact .nil
  | called _ _ step ih => exact ih.concat step
  | snapshotted _ step _ ih => exact ih.concat step
  | restarted _ step _ _ ih => exact ih.concat step

/-- The accounts stand for the bank behind a history of the boots that have ended, the reports of
    the current one and `rest`. -/
def SettledBy (boots : List Boot) (reports rest : List CreditRequest)
    (m : ExtTreeMap UInt64 AccountState) : Prop :=
  ∃ past, Boot.Completed boots past ∧
    Bank.empty.settleAll (past ++ (reports ++ rest)) = some (bankOf m)

/-- The accounts in memory stand for what has been reported.  The storage may have the request that
    was cut off on top, and a boot that may still write has none. -/
structure Booked (boots : List Boot) (b : Boot) (w : Deployment J) : Prop where
  live : SettledBy boots b.reports [] w.engine.accounts
  stored : ∃ m k rest, rest.Sublist b.cut.toList ∧ SettledBy boots b.reports rest m ∧
    Durable (Observed J) w.disk m k
  clear : w.engine.journalFailed = false → b.cut = none

section Booked

variable {boots : List Boot} {b : Boot} {w w' : Deployment J} {n : Nat}
  {reports rest : List CreditRequest} {m m' : ExtTreeMap UInt64 AccountState}

omit [Journal J] in
/-- One more request is settled and not yet reported. -/
theorem SettledBy.moved (h : SettledBy boots reports [] m) {r : CreditRequest}
    (hstep : (bankOf m).settle r = some (bankOf m')) : SettledBy boots reports [r] m' := by
  obtain ⟨past, hpast, hsettled⟩ := h
  refine ⟨past, hpast, ?_⟩
  have hnext := Lib.serial_concat hsettled hstep
  rw [List.append_nil, List.append_assoc] at hnext
  exact hnext

omit [Journal J] in
/-- Accounts that stand for the same bank are settled by the same history. -/
theorem SettledBy.same (h : SettledBy boots reports rest m) (hsame : bankOf m' = bankOf m) :
    SettledBy boots reports rest m' := by
  unfold SettledBy
  rw [hsame]
  exact h

omit [Journal J] in
/-- The request that was settled last is reported. -/
theorem SettledBy.reported {r : CreditRequest} (h : SettledBy boots reports [r] m) :
    SettledBy boots (reports ++ [r]) [] m := by
  obtain ⟨past, hpast, hsettled⟩ := h
  refine ⟨past, hpast, ?_⟩
  rw [List.append_nil]
  exact hsettled

omit [Journal J] in
/-- What a boot leaves is where the next one begins. -/
theorem SettledBy.ended {b : Boot} (h : SettledBy boots b.reports rest m)
    (hrest : rest.Sublist b.cut.toList) : SettledBy (boots ++ [b]) [] [] m := by
  obtain ⟨past, hpast, hsettled⟩ := h
  refine ⟨_, .concat hpast b hrest, ?_⟩
  rw [List.append_nil, List.append_nil]
  exact hsettled

/-- Recovered accounts stand for the same bank as those that the storage reflects. -/
theorem bankOf_recovered {P : ExtTreeMap UInt64 AccountState} (h : Reflects P m) :
    bankOf (P.map fun _ (a : AccountState) => a.forgetLiveness) = bankOf m := by
  funext key
  unfold bankOf
  rw [ExtTreeMap.getElem?_map]
  cases hm : m[key]? with
  | none =>
    cases hP : P[key]? with
    | none => rfl
    | some p =>
      obtain ⟨a, ha⟩ := h.known key p hP
      rw [hm] at ha
      exact absurd ha (by simp)
  | some a =>
    obtain ⟨p, hp, hmirrored⟩ := h.mirrored key a hm
    rw [hp]
    exact congrArg some
      (AccountState.machine_congr hmirrored.shadow.capacity hmirrored.shadow.totals)

/-- A crash in a call or a snapshot leaves the reports, and the request of the call at most. -/
theorem Booked.crashed (h : Booked boots b w) (hkept : Kept (fun _ => True) n w)
    (hn : n < 2 ^ 60) (disk : Disk) (cut : Option CreditRequest)
    (hcrash : w.CrashesIn disk cut) :
    ∃ m k rest, rest.Sublist (b.ended cut).cut.toList ∧ SettledBy boots b.reports rest m ∧
      Durable (Observed J) disk m k := by
  cases hfailed : w.engine.journalFailed with
  | true =>
    -- a latched engine makes no journal calls
    have hsame : disk = w.disk := by
      cases cut with
      | none =>
        obtain ⟨done, hdisk, hprefix⟩ := hcrash
        rw [(events_of_failed hfailed {}).2.2] at hprefix
        rw [List.prefix_nil.mp hprefix, Disk.mem_afterAll_nil] at hdisk
        exact hdisk
      | some r =>
        obtain ⟨done, hdisk, hprefix⟩ := hcrash
        rw [(events_of_failed hfailed r).1] at hprefix
        rw [List.prefix_nil.mp hprefix, Disk.mem_afterAll_nil] at hdisk
        exact hdisk
    obtain ⟨m, k, rest, hrest, hsettled, hd⟩ := h.stored
    refine ⟨m, k, rest, hrest.trans ?_, hsettled, hsame ▸ hd⟩
    unfold Boot.ended
    cases b.cut with
    | none => exact List.nil_sublist _
    | some r => exact List.Sublist.refl _
  | false =>
    obtain ⟨hlevel, hbound⟩ := hkept.level hfailed
    have hcut : (b.ended cut).cut = cut := by
      unfold Boot.ended
      rw [h.clear hfailed]
      rfl
    rw [hcut]
    cases cut with
    | none =>
      obtain ⟨done, hdisk, hprefix⟩ := hcrash
      obtain ⟨evs, hlog, hthrough⟩ :=
        snapshot_durable hkept.standing hkept.windowed hlevel rfl (by omega)
      rw [events_of_append hlog] at hprefix
      obtain ⟨k, -, -, hd⟩ := hthrough.always.of_prefix hprefix hdisk
      exact ⟨_, k, [], List.Sublist.refl _, h.live, hd⟩
    | some r =>
      obtain ⟨done, hdisk, hprefix⟩ := hcrash
      obtain ⟨evs, hlog, hthrough⟩ :=
        apply_durable r hkept.standing hkept.windowed hlevel rfl (by omega)
      rw [events_of_append hlog] at hprefix
      obtain ⟨m, k, hleads, -, -, hd⟩ := hthrough.always.of_prefix hprefix hdisk
      rcases hleads.settles hkept.standing with hsame | hmoved
      · exact ⟨m, k, [], List.nil_sublist _, h.live.same hsame, hd⟩
      · exact ⟨m, k, [r], List.Sublist.refl _, h.live.moved hmoved, hd⟩

/-- **Call lemma.** -/
theorem Booked.called (h : Booked boots b w) (hkept : Kept (fun _ => True) n w)
    (hn : n < 2 ^ 60) {r : CreditRequest} (hstep : Step w (.call r) w') :
    Booked boots (b.called w.engine r) w' := by
  have hkept' := hkept.step tracked_true hn hstep trivial
  cases hstep with
  | called r disk durable =>
    cases happlied : (w.engine.apply r).1.applied with
    | true =>
      have hhealthy : (w.engine.apply r).2.journalFailed = false :=
        healthy_of_applied happlied
      have hbefore : w.engine.journalFailed = false := by
        cases hfailed : w.engine.journalFailed with
        | false => rfl
        | true =>
          rw [applied_of_latched hfailed r] at happlied
          exact absurd happlied (by decide)
      rw [show b.called w.engine r = { b with reports := b.reports ++ [r] } from if_pos happlied]
      have hlive := (h.live.moved (applied_settles hkept.standing happlied)).reported
      obtain ⟨hd, -⟩ := hkept'.level hhealthy
      exact ⟨hlive, ⟨_, _, [], List.nil_sublist _, hlive, hd⟩, fun _ => h.clear hbefore⟩
    | false =>
      have hlive := h.live.same (unapplied_unmoved happlied)
      cases hfailed : w.engine.journalFailed with
      | true =>
        -- nothing is called any more
        rw [(events_of_failed hfailed r).1, Disk.mem_afterAll_nil] at durable
        rw [show b.called w.engine r = b by
          unfold Boot.called
          rw [happlied, hfailed]
          rfl]
        refine ⟨hlive, durable ▸ h.stored, fun hhealthy => ?_⟩
        rw [journalFailed_apply hfailed] at hhealthy
        exact absurd (hfailed.symm.trans hhealthy) (by decide)
      | false =>
        cases hlatched : (w.engine.apply r).2.journalFailed with
        | false =>
          rw [show b.called w.engine r = b by
            unfold Boot.called
            rw [happlied, hlatched, if_neg (by decide), if_neg (by simp)]]
          obtain ⟨hd, -⟩ := hkept'.level hlatched
          exact ⟨hlive, ⟨_, _, [], List.nil_sublist _, hlive, hd⟩, fun _ => h.clear hfailed⟩
        | true =>
          rw [show b.called w.engine r = { b with cut := some r } by
            unfold Boot.called
            rw [happlied, if_neg (by decide), if_pos ⟨hfailed, hlatched⟩]]
          refine ⟨hlive, ?_, fun hhealthy => absurd (hlatched.symm.trans hhealthy) (by decide)⟩
          -- the storage may be one decision ahead
          obtain ⟨m, k, rest, hrest, hsettled, hd⟩ := h.crashed hkept hn disk (some r)
            ⟨_, durable, List.prefix_rfl⟩
          rw [show (b.ended (some r)).cut = some r by
            unfold Boot.ended
            rw [h.clear hfailed]
            rfl] at hrest
          exact ⟨m, k, rest, hrest, hsettled, hd⟩

/-- **Snapshot lemma.** -/
theorem Booked.snapshotted (h : Booked boots b w) (hkept : Kept (fun _ => True) n w)
    (hn : n < 2 ^ 60) (hstep : Step w .snapshot w') : Booked boots b w' := by
  cases hstep with
  | snapshotted disk durable =>
    have hframe := snapshot_sameLedger w.engine
    refine ⟨?_, ?_, fun hhealthy => h.clear (hframe.journalFailed.symm.trans hhealthy)⟩
    · show SettledBy boots b.reports [] w.engine.snapshot.2.accounts
      rw [hframe.accounts]
      exact h.live
    · obtain ⟨m, k, rest, hrest, hsettled, hd⟩ := h.crashed hkept hn disk none
        ⟨_, durable, List.prefix_rfl⟩
      refine ⟨m, k, rest, ?_, hsettled, hd⟩
      have hcut : (b.ended none).cut = b.cut := by
        unfold Boot.ended
        cases b.cut <;> rfl
      rw [hcut] at hrest
      exact hrest

/-- **Restart lemma.** -/
theorem Booked.restarted (h : Booked boots b w) (hkept : Kept (fun _ => True) n w)
    (hn : n < 2 ^ 60) (hstep : Step w .restart w') {cut : Option CreditRequest}
    (hcrash : w.CrashesIn w'.disk cut) : Booked (boots ++ [b.ended cut]) {} w' := by
  cases hstep with
  | restarted limits journal operator nonce disk o' crash addressable yields ok =>
    obtain ⟨m, k, rest, hrest, hsettled, hd⟩ := h.crashed hkept hn _ _ hcrash
    obtain ⟨q, hq, haccounts, -⟩ := recover_recovers addressable yields ok
    have hlive : SettledBy (boots ++ [b.ended cut]) [] []
        (make limits (Observed.mk journal []) operator nonce).recover.2.accounts := by
      refine (SettledBy.ended (b := b.ended cut) hsettled hrest).same ?_
      rw [haccounts]
      exact bankOf_recovered (hd.reflects q hq)
    refine ⟨hlive, ⟨_, q.nextJournalSequence.toNat, [], List.Sublist.refl _, hlive, ?_⟩,
      fun _ => rfl⟩
    rw [haccounts]
    exact hd.recovered hq

end Booked

/-- **Run lemma.** -/
theorem Reporting.booked {limits : EngineLimits} {journal : J} {operator : Incarnation}
    {nonce : Digest128} {boots : List Boot} {b : Boot} {acts : List Act} {w : Deployment J}
    (hrun : Reporting (start limits journal operator nonce) boots b acts w)
    (hn : acts.length ≤ 2 ^ 60) : Booked boots b w := by
  induction hrun with
  | nil =>
    have hempty : SettledBy [] [] [] ∅ := by
      refine ⟨[], .nil, ?_⟩
      rw [bankOf_empty]
      rfl
    exact ⟨hempty, ⟨∅, 1, [], List.Sublist.refl _, hempty, .empty le_rfl⟩, fun _ => rfl⟩
  | called run r step ih =>
    rw [List.length_append, List.length_singleton] at hn
    exact (ih (by omega)).called (run.run.kept (by omega)) (by omega) step
  | snapshotted run step answered ih =>
    rw [List.length_append, List.length_singleton] at hn
    exact (ih (by omega)).snapshotted (run.run.kept (by omega)) (by omega) step
  | restarted run step cut crash ih =>
    rw [List.length_append, List.length_singleton] at hn
    exact (ih (by omega)).restarted (run.run.kept (by omega)) (by omega) step crash

/-- **The engine is a bank.**  In every state of a run over any number of boots, whose explicit
    snapshots returned Ok, the accounts stand for the bank behind one serial history: for each boot
    that has ended what it has reported as applied, in the order of the reports, and at most the
    one request that it was cut off in, and then what the current boot has reported.  So refusals,
    duplicates, failed commits and recoveries move no credit. -/
theorem settled_serially {limits : EngineLimits} {journal : J} {operator : Incarnation}
    {nonce : Digest128} {boots : List Boot} {b : Boot} {acts : List Act} {w : Deployment J}
    (hrun : Reporting (start limits journal operator nonce) boots b acts w)
    (hn : acts.length ≤ 2 ^ 60) :
    ∃ past, Boot.Completed boots past ∧
      Bank.empty.settleAll (past ++ b.reports) = some (bankOf w.engine.accounts) := by
  obtain ⟨past, hpast, hsettled⟩ := (hrun.booked hn).live
  rw [List.append_nil] at hsettled
  exact ⟨past, hpast, hsettled⟩

/-- **The books balance.**  The counters of an account are the sums of what that history issues,
    consumes and returns on it, and what is not returned is outstanding, spent or stale. -/
theorem books_balance {limits : EngineLimits} {journal : J} {operator : Incarnation}
    {nonce : Digest128} {boots : List Boot} {b : Boot} {acts : List Act} {w : Deployment J}
    (hrun : Reporting (start limits journal operator nonce) boots b acts w)
    (hn : acts.length ≤ 2 ^ 60) :
    ∃ past, Boot.Completed boots past ∧ ∀ key a, w.engine.accounts[key]? = some a →
      a.view.issued.toNat = booked key Mutator.issues (past ++ b.reports) ∧
      a.view.consumed.toNat = booked key Mutator.consumes (past ++ b.reports) ∧
      a.view.returned.toNat = booked key Mutator.returns (past ++ b.reports) ∧
      booked key Mutator.issues (past ++ b.reports) =
        booked key Mutator.returns (past ++ b.reports) +
          (a.view.outstanding.toNat + a.view.spent.toNat + a.view.stale.toNat) := by
  have hkept := hrun.run.kept hn
  obtain ⟨past, hpast, hsettled⟩ := (hrun.booked hn).live
  rw [List.append_nil] at hsettled
  refine ⟨past, hpast, fun key a ha => ?_⟩
  -- the bank's account is the engine's, seen as a bucket machine
  have hcounter : ∀ count : BucketMachine → Nat,
      (bankOf w.engine.accounts).counter key count = count a.machine := by
    intro count
    unfold Bank.counter
    rw [bankOf_found ha]
    rfl
  have hissued := Bank.settleAll_counter (c := BucketMachine.issued) (f := Mutator.issues)
    (fun _ => rfl) (fun m u => by cases u <;> rfl) hsettled key
  have hconsumed := Bank.settleAll_counter (c := BucketMachine.consumed)
    (f := Mutator.consumes) (fun _ => rfl) (fun m u => by cases u <;> rfl) hsettled key
  have hreturned := Bank.settleAll_counter (c := BucketMachine.returned)
    (f := Mutator.returns) (fun _ => rfl) (fun m u => by cases u <;> rfl) hsettled key
  rw [hcounter] at hissued hconsumed hreturned
  -- the view's fields, from the closed totals
  have hclosed := (hkept.standing key a ha).sound.closed
  have hview : ExactView a.capacity a.totals a.view := computeView_of_closed hclosed
  have hin := hview.inFlight
  have hout := hview.outstanding
  have hle := hclosed.returned
  have heq : a.view = _ := computeView_eq a.capacity a.totals
  have hmachine : a.machine.issued = a.totals.issued.toNat ∧
      a.machine.returned = a.totals.returned.toNat := by
    show a.view.issued.toNat = _ ∧ a.view.returned.toNat = _
    rw [heq]
    exact ⟨rfl, rfl⟩
  have hspent : a.view.spent = a.totals.spent := by rw [heq]
  refine ⟨hissued, hconsumed, hreturned, ?_⟩
  rw [← hissued, ← hreturned, hmachine.1, hmachine.2, hview.stale, hspent]
  omega

/-! ### A run with a refusal and a crash -/

namespace ThreeIssued

open Fixture

/-- The nonce of the first boot. -/
def nonce : Digest128 := ⟨5, 5⟩

/-- The nonce of the second boot. -/
def later : Digest128 := ⟨6, 6⟩

/-- The Open of the first boot. -/
def opening : CreditRequest := request nonce me .open_ 1

/-- An Issue of three credits. -/
def issuing : CreditRequest := { request nonce me .issue 2 with count := 3 }

/-- There is no room for six more. -/
def tooMany : CreditRequest := { request nonce me .issue 3 with count := 6 }

/-- A Consume that a crash cuts off behind its records. -/
def spending : CreditRequest := request nonce me .consume 4

/-- The first request of the second boot. -/
def reconciling : CreditRequest := request later me .reconcile 5

/-- A Return in the second boot. -/
def returning : CreditRequest := request later me .return_ 6

/-- The engine of the first boot. -/
def booted : CreditEngine (Observed InMemoryJournal) := boot {} ⟨{}, []⟩ nonce

/-- The engine behind the Open. -/
def opened : CreditEngine (Observed InMemoryJournal) := booted.run [opening]

/-- The engine behind the Issue. -/
def issued : CreditEngine (Observed InMemoryJournal) := opened.run [issuing]

/-- The engine behind an Issue of too many credits. -/
def refused : CreditEngine (Observed InMemoryJournal) := issued.run [tooMany]

/-- The storage behind the Open. -/
def one : Disk := ((({} : Disk).afterAll (events booted opened)).head?).getD {}

/-- The storage behind the Issue. -/
def two : Disk := ((one.afterAll (events opened issued)).head?).getD {}

/-- The storage behind the refusal. -/
def three : Disk := ((two.afterAll (events issued refused)).head?).getD {}

/-- Both records of the Consume, which a crash leaves although the call has not returned. -/
def whole : List JournalEvent := (events refused (refused.apply spending).2).take 2

/-- The storage behind the crash. -/
def spent : Disk := ((three.afterAll whole).head?).getD {}

/-- The engine that recovers from them. -/
def second : CreditEngine (Observed InMemoryJournal) := boot {} ⟨spent.inMemory, []⟩ later

/-- The engine of the second boot behind its Reconcile. -/
def reconciled : CreditEngine (Observed InMemoryJournal) := second.run [reconciling]

/-- The engine of the second boot behind its Return. -/
def returned : CreditEngine (Observed InMemoryJournal) := reconciled.run [returning]

/-- The storage behind the Reconcile. -/
def four : Disk := ((spent.afterAll (events second reconciled)).head?).getD {}

/-- The storage behind the Return. -/
def five : Disk := ((four.afterAll (events reconciled returned)).head?).getD {}

/-- Nothing in front of the first boot, then a boot that a crash has ended in its Consume. -/
def boots : List Boot := [{}, { reports := [opening, issuing], cut := some spending }]

/-- What the second boot has reported. -/
def current : Boot := { reports := [reconciling, returning] }

/-- The machine of the account behind the run. -/
def left : BucketMachine where
  available := 6
  protectedCredits := 0
  outstanding := 2
  spent := 0
  stale := 0
  issued := 3
  consumed := 1
  returned := 1

/-- The run, evaluated once. -/
theorem evaluated :
    (one ∈ ({} : Disk).afterAll (events booted opened) ∧
      two ∈ one.afterAll (events opened issued) ∧ three ∈ two.afterAll (events issued refused) ∧
      spent ∈ three.afterAll whole ∧ four ∈ spent.afterAll (events second reconciled) ∧
      five ∈ four.afterAll (events reconciled returned)) ∧
    (spent.records.all (fun t => t.payload.length < 2 ^ 64) = true ∧
      spent.snapshot.all (fun i => i.payload.length < 2 ^ 64) = true ∧
      (make {} (Observed.mk spent.inMemory []) me later).recover.1.ok = true) ∧
    ((((({} : Boot).called booted opening).called opened issuing).called issued tooMany).ended
        (some spending) = { reports := [opening, issuing], cut := some spending } ∧
      (({} : Boot).called second reconciling).called reconciled returning = current) ∧
    bankOf returned.accounts account = some left := by
  decide +kernel

/-- The run of both boots, with a crash between them. -/
theorem exists_run : ∃ w acts, Reporting (start {} ({} : InMemoryJournal) me nonce) boots current
    acts w ∧ acts.length = 7 ∧ bankOf w.engine.accounts account = some left := by
  obtain ⟨⟨hone, htwo, hthree, hspent, hfour, hfive⟩, ⟨hsmall, himage, hok⟩, ⟨hfirst, hcurrent⟩,
    hleft⟩ := evaluated
  obtain ⟨w₁, hboot, hdisk₁, hengine₁⟩ := exists_first {} nonce
  have hbooted : w₁.engine = booted := hengine₁
  obtain ⟨w₂, hopen, hopened, hdisk₂⟩ := exists_call hbooted hdisk₁ opening one hone rfl
  obtain ⟨w₃, hissue, hissued, hdisk₃⟩ := exists_call hopened hdisk₂ issuing two htwo rfl
  obtain ⟨w₄, hrefuse, hrefused, hdisk₄⟩ := exists_call hissued hdisk₃ tooMany three hthree rfl
  -- the Consume is cut off behind its second record
  have hprefix : whole <+: events refused (refused.apply spending).2 := List.take_prefix 2 _
  have hcrash : w₄.CrashesIn spent (some spending) := by
    refine ⟨whole, ?_, ?_⟩
    · rw [hdisk₄]
      exact hspent
    · rw [hrefused]
      exact hprefix
  obtain ⟨done, hdone, hcut⟩ := hcrash
  obtain ⟨w₅, hrestart, hdisk₅, hengine₅⟩ := exists_restart {} later ⟨done, hdone, .inl ⟨_, hcut⟩⟩
    (Disk.addressable_of_small hsmall himage) hok
  have hsecond : w₅.engine = second := hengine₅
  obtain ⟨w₆, hreconcile, hreconciled, hdisk₆⟩ :=
    exists_call hsecond hdisk₅ reconciling four hfour rfl
  obtain ⟨w₇, hreturn, hreturned, -⟩ := exists_call hreconciled hdisk₆ returning five hfive rfl
  have hrun₁ := Reporting.nil.restarted hboot none
    ⟨[], Disk.mem_afterAll_nil.mpr hdisk₁, List.nil_prefix⟩
  have hrun₄ := ((hrun₁.called opening hopen).called issuing hissue).called tooMany hrefuse
  rw [hbooted, hopened, hissued] at hrun₄
  have hrun₅ := hrun₄.restarted hrestart (some spending) ⟨done, hdisk₅ ▸ hdone, hcut⟩
  rw [hfirst] at hrun₅
  have hrun₇ := (hrun₅.called reconciling hreconcile).called returning hreturn
  rw [hsecond, hreconciled, hcurrent] at hrun₇
  exact ⟨w₇, _, hrun₇, by simp, by rw [hreturned]; exact hleft⟩

/-- The bank behind the run. -/
theorem calls_settled : ∃ w : Deployment InMemoryJournal, ∃ past : List CreditRequest,
    Boot.Completed boots past ∧
      Bank.empty.settleAll (past ++ current.reports) = some (bankOf w.engine.accounts) ∧
      bankOf w.engine.accounts account = some left := by
  obtain ⟨w, acts, hrun, hacts, hleft⟩ := exists_run
  obtain ⟨past, hpast, hsettled⟩ := settled_serially hrun (by omega)
  exact ⟨w, past, hpast, hsettled, hleft⟩

/-- Three credits were issued and one was returned.  One was consumed, by the call that the crash
    has cut off. -/
theorem calls_balance : ∃ past : List CreditRequest, Boot.Completed boots past ∧
    booked account Mutator.issues (past ++ current.reports) = 3 ∧
    booked account Mutator.consumes (past ++ current.reports) = 1 ∧
    booked account Mutator.returns (past ++ current.reports) = 1 := by
  obtain ⟨w, acts, hrun, hacts, hleft⟩ := exists_run
  obtain ⟨past, hpast, hbooks⟩ := books_balance hrun (by omega)
  obtain ⟨a, ha, hmachine⟩ := Option.map_eq_some_iff.mp hleft
  obtain ⟨hissued, hconsumed, hreturned, -⟩ := hbooks account a ha
  have hcounts : a.view.issued.toNat = left.issued ∧ a.view.consumed.toNat = left.consumed ∧
      a.view.returned.toNat = left.returned := by
    rw [← hmachine]
    exact ⟨rfl, rfl, rfl⟩
  exact ⟨past, hpast, hissued.symm.trans hcounts.1, hconsumed.symm.trans hcounts.2.1,
    hreturned.symm.trans hcounts.2.2⟩

end ThreeIssued

end Deployment

end CreditFabric
