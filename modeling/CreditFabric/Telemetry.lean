import CreditFabric.Isolation
import CreditFabric.BucketMachine

namespace CreditFabric

open Std (ExtTreeMap)

/-!
# What the telemetry counter decides

`CreditTotals.consumed` counts the credits ever spent; the source calls it telemetry that never
gates authority.  Two runs of the same requests are compared here, from states that differ in
the counter alone.

* `LedgerPlan.mutate_recount` and `mutate_twin` compare one mutator on two plans.
* `decision_twin` compares the decision of a request on two accounts.
* `apply_twins` is the step: the verdicts agree unless the request is `Gated`, where the sum of
  counter and count wraps on one side only.
-/

/-- Related options are both there or both not. -/
theorem isSome_of_rel {α β : Type} {R : α → β → Prop} {x : Option α} {y : Option β}
    (h : Option.Rel R x y) : x.isSome = y.isSome := by
  cases h <;> rfl

/-- Two branchings on the same condition are related when their branches are. -/
theorem related_ite {α β : Type} {R : α → β → Prop} {c c' : Prop} [Decidable c] [Decidable c']
    {x y : α} {x' y' : β} (hc : c' ↔ c) (hx : c → R x x') (hy : ¬ c → R y y') :
    R (if c then x else y) (if c' then x' else y') := by
  by_cases h : c
  · rw [if_pos h, if_pos (hc.mpr h)]
    exact hx h
  · rw [if_neg h, if_neg (mt hc.mp h)]
    exact hy h

/-! ### Plans -/

/-- What a mutator adds to the counter. -/
def Mutator.counts : Mutator → Option UInt64
  | .consume count | .revalidateToConsumed count => some count
  | _ => none

namespace LedgerPlan

/-- The plan with another telemetry counter. -/
def recount (p : LedgerPlan) (c : UInt64) : LedgerPlan :=
  { p with totals := { p.totals with consumed := c } }

@[simp] theorem recount_capacity (p : LedgerPlan) (c : UInt64) :
    (p.recount c).capacity = p.capacity := rfl

@[simp] theorem recount_totals (p : LedgerPlan) (c : UInt64) :
    (p.recount c).totals = { p.totals with consumed := c } := rfl

@[simp] theorem recount_status (p : LedgerPlan) (c : UInt64) :
    (p.recount c).status = p.status := rfl

/-- Nothing that is derived depends on the counter. -/
theorem view_recount (p : LedgerPlan) (c : UInt64) :
    (p.recount c).view = { p.view with consumed := c } := by
  unfold view recount computeView fillDerived
  simp only
  split_ifs <;> rfl

/-- The second result is the first one with another counter. -/
def Recounted (c : UInt64) (x y : Bool × LedgerPlan) : Prop := y = (x.1, x.2.recount c)

/-- Committing a plan and committing it recounted differ in the count. -/
theorem recounted_commit (p : LedgerPlan) (c : UInt64) (t : CreditTotals) :
    Recounted c (p.commit t) ((p.recount c).commit { t with consumed := c }) :=
  related_ite Iff.rfl (fun _ => rfl) fun _ => related_ite Iff.rfl (fun _ => rfl) fun _ => rfl

/-- A mutator that adds nothing to the counter does the same on both plans. -/
theorem mutate_recount (p : LedgerPlan) (c : UInt64) (u : Mutator) (hu : u.counts = none) :
    Recounted c (p.mutate u) ((p.recount c).mutate u) := by
  have hview := p.view_recount c
  cases u with
  -- the two mutators that read the count are excluded
  | consume n => exact absurd hu (by simp [Mutator.counts])
  | revalidateToConsumed n => exact absurd hu (by simp [Mutator.counts])
  | issue n lo hi =>
    simp only [mutate, issue, hview]
    refine related_ite Iff.rfl (fun _ => rfl) fun _ => ?_
    refine related_ite Iff.rfl (fun _ => rfl) fun _ => ?_
    refine related_ite Iff.rfl (fun _ => rfl) fun _ => ?_
    refine related_ite Iff.rfl (fun _ => rfl) fun _ => ?_
    exact related_ite Iff.rfl (fun _ => rfl) fun _ => recounted_commit p c _
  | giveBack n =>
    simp only [mutate, giveBack, hview]
    refine related_ite Iff.rfl (fun _ => rfl) fun _ => ?_
    refine related_ite Iff.rfl (fun _ => rfl) fun _ => ?_
    refine related_ite Iff.rfl (fun _ => rfl) fun _ => ?_
    exact related_ite Iff.rfl (fun _ => rfl) fun _ => recounted_commit p c _
  | protect n allowed =>
    simp only [mutate, protect, hview]
    refine related_ite Iff.rfl (fun _ => rfl) fun _ => ?_
    refine related_ite Iff.rfl (fun _ => rfl) fun _ => ?_
    refine related_ite Iff.rfl (fun _ => rfl) fun _ => ?_
    refine related_ite Iff.rfl (fun _ => rfl) fun _ => ?_
    exact related_ite Iff.rfl (fun _ => rfl) fun _ => recounted_commit p c _
  | unprotect n =>
    simp only [mutate, unprotect]
    refine related_ite Iff.rfl (fun _ => rfl) fun _ => ?_
    refine related_ite Iff.rfl (fun _ => rfl) fun _ => ?_
    exact related_ite Iff.rfl (fun _ => rfl) fun _ => recounted_commit p c _
  | retireStale n =>
    simp only [mutate, retireStale, hview]
    refine related_ite Iff.rfl (fun _ => rfl) fun _ => ?_
    refine related_ite Iff.rfl (fun _ => rfl) fun _ => ?_
    refine related_ite Iff.rfl (fun _ => rfl) fun _ => ?_
    exact related_ite Iff.rfl (fun _ => rfl) fun _ => recounted_commit p c _
  | quarantineInFlight =>
    simp only [mutate, quarantineInFlight, hview]
    refine related_ite Iff.rfl (fun _ => rfl) fun _ => ?_
    refine related_ite Iff.rfl (fun _ => rfl) fun _ => ?_
    exact related_ite Iff.rfl (fun _ => rfl) fun _ => recounted_commit p c _
  | revalidateToReturned n =>
    simp only [mutate, revalidateToReturned]
    refine related_ite Iff.rfl (fun _ => rfl) fun _ => ?_
    refine related_ite Iff.rfl (fun _ => rfl) fun _ => ?_
    refine related_ite Iff.rfl (fun _ => rfl) fun _ => ?_
    exact related_ite Iff.rfl (fun _ => rfl) fun _ => recounted_commit p c _
  | setCapacity n limit allowGrowth =>
    simp only [mutate, setCapacity]
    refine related_ite Iff.rfl (fun _ => rfl) fun _ => ?_
    refine related_ite Iff.rfl (fun _ => rfl) fun _ => ?_
    refine related_ite Iff.rfl (fun _ => rfl) fun _ => ?_
    refine related_ite Iff.rfl (fun _ => rfl) fun _ => ?_
    exact related_ite Iff.rfl (fun _ => rfl) fun _ => rfl

/-! ### The two mutators that count -/

/-- The results agree on everything but the counter and the detail of a refusal. -/
structure Alike (x y : Bool × LedgerPlan) : Prop where
  permitted : y.1 = x.1
  reason : y.2.status.reason = x.2.status.reason
  capacity : y.2.capacity = x.2.capacity
  totals : y.2.totals = { x.2.totals with consumed := y.2.totals.consumed }

/-- Plans that differ in the count answer alike. -/
theorem Recounted.alike {c : UInt64} {x y : Bool × LedgerPlan} (h : Recounted c x y) :
    Alike x y := by
  rw [h]
  exact ⟨rfl, rfl, rfl, rfl⟩

/-- Candidates that agree on everything but the counter. -/
theorem alike_commit (p : LedgerPlan) (c : UInt64) {t t' : CreditTotals}
    (ht : t' = { t with consumed := t'.consumed }) :
    Alike (p.commit t) ((p.recount c).commit t') := by
  rw [ht]
  refine related_ite Iff.rfl (fun _ => ⟨rfl, rfl, rfl, rfl⟩) fun _ => ?_
  exact related_ite Iff.rfl (fun _ => ⟨rfl, rfl, rfl, rfl⟩) fun _ => ⟨rfl, rfl, rfl, rfl⟩

/-- Nothing in front of the counter refuses the counting mutator. -/
def Affords (p : LedgerPlan) : Mutator → Prop
  | .consume count => p.status.ok = true ∧ count ≠ 0 ∧ count ≤ p.view.outstanding
  | .revalidateToConsumed count => p.status.ok = true ∧ count ≠ 0 ∧ count ≤ p.totals.stale
  | _ => False

/-- The sum with one of the counters wraps, the one with the other does not. -/
def Splits (c c' : UInt64) (u : Mutator) : Prop :=
  ∃ n, u.counts = some n ∧ (addOverflow c n).1 ≠ (addOverflow c' n).1

/-- A mutator the count does not stop answers alike. -/
theorem mutate_alike (p : LedgerPlan) (c : UInt64) (u : Mutator)
    (h : ¬ (p.Affords u ∧ Splits p.totals.consumed c u)) :
    Alike (p.mutate u) ((p.recount c).mutate u) := by
  have hview := p.view_recount c
  have hsame : ∀ n, u.counts = some n → p.Affords u →
      ((addOverflow c n).1 = true ↔ (addOverflow p.totals.consumed n).1 = true) := by
    intro n hn hafford
    have heq : (addOverflow p.totals.consumed n).1 = (addOverflow c n).1 := by
      by_contra hne
      exact h ⟨hafford, n, hn, hne⟩
    rw [heq]
  cases u with
  | consume n =>
    simp only [mutate, consume, hview]
    refine related_ite Iff.rfl (fun _ => ⟨rfl, rfl, rfl, rfl⟩) fun hok => ?_
    refine related_ite Iff.rfl (fun _ => ⟨rfl, rfl, rfl, rfl⟩) fun hzero => ?_
    refine related_ite Iff.rfl (fun _ => ⟨rfl, rfl, rfl, rfl⟩) fun hroom => ?_
    refine related_ite Iff.rfl (fun _ => ⟨rfl, rfl, rfl, rfl⟩) fun _ => ?_
    have hafford : p.Affords (.consume n) :=
      ⟨by simpa using hok, hzero, UInt64.not_lt.mp hroom⟩
    refine related_ite (hsame n rfl hafford) (fun _ => ⟨rfl, rfl, rfl, rfl⟩) fun _ => ?_
    exact alike_commit p c rfl
  | revalidateToConsumed n =>
    simp only [mutate, revalidateToConsumed]
    refine related_ite Iff.rfl (fun _ => ⟨rfl, rfl, rfl, rfl⟩) fun hok => ?_
    refine related_ite Iff.rfl (fun _ => ⟨rfl, rfl, rfl, rfl⟩) fun hzero => ?_
    refine related_ite Iff.rfl (fun _ => ⟨rfl, rfl, rfl, rfl⟩) fun hheld => ?_
    refine related_ite Iff.rfl (fun _ => ⟨rfl, rfl, rfl, rfl⟩) fun _ => ?_
    have hafford : p.Affords (.revalidateToConsumed n) :=
      ⟨by simpa using hok, hzero, UInt64.not_lt.mp hheld⟩
    refine related_ite (hsame n rfl hafford) (fun _ => ⟨rfl, rfl, rfl, rfl⟩) fun _ => ?_
    exact alike_commit p c rfl
  | _ => exact (mutate_recount p c _ rfl).alike

/-- A counting mutator that is afforded is permitted exactly when its sum does not wrap. -/
theorem mutate_counting {p : LedgerPlan} (hclosed : Closed p.capacity p.totals) {u : Mutator}
    {n : UInt64} (hn : u.counts = some n) (hafford : p.Affords u) :
    (p.mutate u).1 = !(addOverflow p.totals.consumed n).1 := by
  have hmachine := machine_of_closed hclosed
  have hok : p.status.ok = true := by
    cases u <;> first | exact hafford.1 | exact hafford.elim
  -- within what the account affords only the sum can overflow
  have hrefusal : p.machine.refusal u =
      if 2 ^ 64 ≤ p.totals.consumed.toNat + n.toNat then some .countOverflow else none := by
    have hconsumed : p.machine.consumed = p.totals.consumed.toNat := by rw [hmachine]
    cases u with
    | consume n =>
      obtain ⟨-, hzero, hroom⟩ := hafford
      have hroom' : ¬ p.machine.outstanding < n.toNat :=
        Nat.not_lt.mpr (UInt64.le_iff_toNat_le.mp hroom)
      rw [← Option.some.inj hn]
      simp only [BucketMachine.refusal, hzero, hroom', hconsumed, if_false]
    | revalidateToConsumed n =>
      obtain ⟨-, hzero, hheld⟩ := hafford
      have hheld' : ¬ p.machine.stale < n.toNat := by
        rw [hmachine]
        exact Nat.not_lt.mpr (UInt64.le_iff_toNat_le.mp hheld)
      rw [← Option.some.inj hn]
      simp only [BucketMachine.refusal, hzero, hheld', hconsumed, if_false]
    | _ => exact hafford.elim
  have hwraps : (addOverflow p.totals.consumed n).1 =
      decide (2 ^ 64 ≤ p.totals.consumed.toNat + n.toNat) := by
    show decide _ = _
    exact decide_eq_decide.mpr add_lt_self_iff
  rw [hwraps]
  have hrefines := mutate_refines hok hclosed u
  generalize p.mutate u = result at hrefines ⊢
  cases hrefines with
  | moved p' permitted status closed machine =>
    rw [hrefusal] at permitted
    by_cases hwide : 2 ^ 64 ≤ p.totals.consumed.toNat + n.toNat
    · rw [if_pos hwide] at permitted
      exact absurd permitted (by simp)
    · rw [decide_eq_false hwide]
      rfl
  | refused reason detail refusal h =>
    rw [hrefusal] at refusal
    by_cases hwide : 2 ^ 64 ≤ p.totals.consumed.toNat + n.toNat
    · rw [decide_eq_true hwide]
      rfl
    · rw [if_neg hwide] at refusal
      exact absurd refusal (by simp)

/-- The counter does not show in what a plan affords. -/
theorem affords_recount {p : LedgerPlan} {c : UInt64} {u : Mutator} :
    (p.recount c).Affords u ↔ p.Affords u := by
  cases u with
  | consume n =>
    unfold Affords
    rw [view_recount]
    rfl
  | _ => exact Iff.rfl

/-- Where the sums differ, one plan permits the mutator and the other refuses it. -/
theorem mutate_splits {p : LedgerPlan} (hclosed : Closed p.capacity p.totals) {c : UInt64}
    {u : Mutator} (hafford : p.Affords u) (hsplits : Splits p.totals.consumed c u) :
    (p.mutate u).1 ≠ ((p.recount c).mutate u).1 := by
  obtain ⟨n, hn, hne⟩ := hsplits
  have hafford' : (p.recount c).Affords u := affords_recount.mpr hafford
  have hclosed' : Closed (p.recount c).capacity (p.recount c).totals :=
    ⟨hclosed.returned, hclosed.reserved, hclosed.claimed⟩
  rw [mutate_counting hclosed hn hafford, mutate_counting hclosed' hn hafford']
  intro heq
  exact hne (Bool.not_inj heq)

end LedgerPlan

/-! ### Accounts -/

/-- The entries answer a retry alike: the view and the detail are not compared. -/
structure EntryTwin (x y : WindowEntry) : Prop where
  attempt : y.attempt = x.attempt
  request : y.request = x.request
  reason : y.status.reason = x.status.reason

/-- The windows find the same decisions. -/
structure WindowTwin (w w' : AttemptWindow) : Prop where
  order : w'.order = w.order
  byAttempt : w'.byAttempt = w.byAttempt
  limit : w'.limit = w.limit
  byKey : ∀ k : WindowKey, Option.Rel EntryTwin w.byKey[k]? w'.byKey[k]?

/-- A window is its own twin. -/
theorem WindowTwin.refl (w : AttemptWindow) : WindowTwin w w :=
  ⟨rfl, rfl, rfl, fun k => by
    cases w.byKey[k]? with
    | none => exact .none
    | some entry => exact .some ⟨rfl, rfl, rfl⟩⟩

/-- Eviction looks at the keys only. -/
theorem evict_twin (limit : Nat) (keys : List WindowKey)
    (byAttempt : ExtTreeMap AttemptId WindowKey) {byKey byKey' : ExtTreeMap WindowKey WindowEntry}
    (h : ∀ k : WindowKey, Option.Rel EntryTwin byKey[k]? byKey'[k]?) :
    WindowTwin (.evict limit keys byKey byAttempt) (.evict limit keys byKey' byAttempt) := by
  induction keys generalizing byKey byKey' byAttempt with
  | nil => exact ⟨rfl, rfl, rfl, h⟩
  | cons oldest rest ih =>
    unfold AttemptWindow.evict
    by_cases hlong : rest.length + 1 > limit
    · rw [if_pos hlong, if_pos hlong]
      have holdest := h oldest
      generalize byKey[oldest]? = x at holdest ⊢
      generalize byKey'[oldest]? = y at holdest ⊢
      cases holdest with
      | none => exact ih byAttempt h
      | some hentry =>
        simp only [hentry.attempt]
        refine ih _ fun k => ?_
        by_cases hk : k = oldest
        · rw [hk, ExtTreeMap.getElem?_erase_self, ExtTreeMap.getElem?_erase_self]
          exact .none
        · rw [Lib.getElem?_erase_of_ne _ hk, Lib.getElem?_erase_of_ne _ hk]
          exact h k
    · rw [if_neg hlong, if_neg hlong]
      exact ⟨rfl, rfl, rfl, h⟩

/-- Twin entries keep windows twins. -/
theorem WindowTwin.insert {w w' : AttemptWindow} (h : WindowTwin w w') {x y : WindowEntry}
    (hkey : y.key = x.key) (hentry : EntryTwin x y) :
    WindowTwin (w.insert x) (w'.insert y) := by
  have hprevious := h.byKey x.key
  have hbyKey : ∀ k : WindowKey, Option.Rel EntryTwin (w.byKey.insert x.key x)[k]?
      (w'.byKey.insert x.key y)[k]? := by
    intro k
    by_cases hk : k = x.key
    · rw [hk, ExtTreeMap.getElem?_insert_self, ExtTreeMap.getElem?_insert_self]
      exact .some hentry
    · rw [Lib.getElem?_insert_of_ne _ _ hk, Lib.getElem?_insert_of_ne _ _ hk]
      exact h.byKey k
  unfold AttemptWindow.insert
  rw [h.order, h.limit, h.byAttempt, hkey, hentry.attempt]
  generalize w.byKey[x.key]? = previous at hprevious ⊢
  generalize w'.byKey[x.key]? = previous' at hprevious ⊢
  cases hprevious with
  | none => exact evict_twin _ _ _ hbyKey
  | some hsame =>
    simp only [hsame.attempt]
    exact evict_twin _ _ _ hbyKey

/-- The account with another counter, and with other memories of past answers. -/
def AccountState.recast (a : AccountState) (c : UInt64) (w : AttemptWindow)
    (refusals : List RefusalNote) (cursor : Nat) : AccountState :=
  { a with totals := { a.totals with consumed := c }, window := w, refusals,
           refusalCursor := cursor }

/-- The accounts agree on everything but the counter and what is remembered of past answers. -/
structure Twin (a b : AccountState) : Prop where
  eq : b = a.recast b.totals.consumed b.window b.refusals b.refusalCursor
  window : WindowTwin a.window b.window

/-- The decisions are of one kind and one reason. -/
inductive DecisionTwin : Decision → Decision → Prop
  | reject {s t : Status} {a b : AccountState} (reason : t.reason = s.reason) (h : Twin a b) :
      DecisionTwin (.reject s a) (.reject t b)
  | refuse {s t : Status} {a b : AccountState} (reason : t.reason = s.reason) (h : Twin a b) :
      DecisionTwin (.refuse s a) (.refuse t b)
  | proceed {a b : AccountState} (h : Twin a b) : DecisionTwin (.proceed a) (.proceed b)

/-- The counting mutator of a request, if it has one. -/
def countingMove (r : CreditRequest) : Option Mutator :=
  match r.op with
  | .consume => some (.consume r.count)
  | .revalidate =>
    if r.decision = .toConsumed then some (.revalidateToConsumed r.count) else none
  | _ => none

/-- The request counts credits that the account affords, and the sum with one of the two
    counters wraps while the other does not. -/
def GatedAt (a : AccountState) (c : UInt64) (r : CreditRequest) : Prop :=
  ∃ u, countingMove r = some u ∧ (LedgerPlan.start a.capacity a.totals).Affords u ∧
    LedgerPlan.Splits a.totals.consumed c u

/-- A mutator that does not count, on the plans of both accounts. -/
theorem uncounted_alike (a : AccountState) (c : UInt64) (u : Mutator) (hu : u.counts = none) :
    LedgerPlan.Alike ((LedgerPlan.start a.capacity a.totals).mutate u)
      (((LedgerPlan.start a.capacity a.totals).recount c).mutate u) :=
  (LedgerPlan.mutate_recount _ c u hu).alike

/-- One that does, outside the gate. -/
theorem counted_alike {a : AccountState} {c : UInt64} {r : CreditRequest}
    (hgate : ¬ GatedAt a c r) {u : Mutator} (hu : countingMove r = some u) :
    LedgerPlan.Alike ((LedgerPlan.start a.capacity a.totals).mutate u)
      (((LedgerPlan.start a.capacity a.totals).recount c).mutate u) :=
  LedgerPlan.mutate_alike _ c u fun h => hgate ⟨u, hu, h⟩

section Accounts

variable {a : AccountState} {c : UInt64} {w : AttemptWindow} {refusals : List RefusalNote}
  {cursor : Nat} (hw : WindowTwin a.window w)
include hw

/-- A reconciliation does not look at the count. -/
theorem decideReconcile_twin (challenge : ReconciliationChallenge) (r : CreditRequest) :
    DecisionTwin (decideReconcile challenge a r)
      (decideReconcile challenge (a.recast c w refusals cursor) r) :=
  related_ite Iff.rfl (fun _ => .reject rfl ⟨rfl, hw⟩) fun _ => .proceed ⟨rfl, hw⟩

/-- A mutator with the commit of its plan. -/
theorem planned_twin {mutate : LedgerPlan → Bool × LedgerPlan}
    {commit commit' : LedgerPlan → AccountState}
    (hmutate : LedgerPlan.Alike (mutate (.start a.capacity a.totals))
      (mutate ((LedgerPlan.start a.capacity a.totals).recount c)))
    (hcommit : ∀ p p' : LedgerPlan, p'.capacity = p.capacity →
      p'.totals = { p.totals with consumed := p'.totals.consumed } →
      Twin (commit p) (commit' p')) :
    DecisionTwin (planned a mutate commit)
      (planned (a.recast c w refusals cursor) mutate commit') := by
  have hstart : LedgerPlan.start (a.recast c w refusals cursor).capacity
      (a.recast c w refusals cursor).totals =
      (LedgerPlan.start a.capacity a.totals).recount c := rfl
  unfold planned
  rw [hstart]
  refine related_ite ?_ (fun _ => .refuse hmutate.reason ⟨rfl, hw⟩) fun _ =>
    .proceed (hcommit _ _ hmutate.capacity hmutate.totals)
  rw [hmutate.permitted]

/-- The totals of both plans, put back into the accounts. -/
theorem totals_twin {p p' : LedgerPlan}
    (htotals : p'.totals = { p.totals with consumed := p'.totals.consumed }) :
    Twin { a with totals := p.totals }
      { a.recast c w refusals cursor with totals := p'.totals } := by
  refine ⟨?_, hw⟩
  rw [htotals]
  rfl

/-- A change of capacity keeps accounts twins. -/
theorem capacity_twin {p p' : LedgerPlan} (hcapacity : p'.capacity = p.capacity) :
    Twin { a with capacity := p.capacity }
      { a.recast c w refusals cursor with capacity := p'.capacity } := by
  refine ⟨?_, hw⟩
  rw [hcapacity]
  rfl

/-- The last step of both advances of the era. -/
theorem advanced_twin (nextEpoch : EpochId) (nextGeneration : Generation) :
    let plan := (LedgerPlan.start a.capacity a.totals).quarantineInFlight
    let plan' := ((LedgerPlan.start a.capacity a.totals).recount c).quarantineInFlight
    DecisionTwin
      (if !plan.1 then .reject plan.2.status a
        else .proceed { a with totals := plan.2.totals, epoch := nextEpoch,
                               generation := nextGeneration }.forgetLiveness)
      (if !plan'.1 then .reject plan'.2.status (a.recast c w refusals cursor)
        else .proceed { a.recast c w refusals cursor with
          totals := plan'.2.totals, epoch := nextEpoch,
          generation := nextGeneration }.forgetLiveness) := by
  intro plan plan'
  have hplan : LedgerPlan.Alike plan plan' := uncounted_alike a c .quarantineInFlight rfl
  refine related_ite ?_ (fun _ => .reject hplan.reason ⟨rfl, hw⟩) fun _ => .proceed ⟨?_, hw⟩
  · rw [hplan.permitted]
  · rw [hplan.totals]
    rfl

/-- A control request the count does not stop decides alike. -/
theorem decideControl_twin (limits : EngineLimits) {r : CreditRequest}
    (hgate : ¬ GatedAt a c r) :
    DecisionTwin (decideControl limits a r)
      (decideControl limits (a.recast c w refusals cursor) r) := by
  unfold decideControl
  cases hop : r.op with
  | exhaust =>
    refine related_ite Iff.rfl (fun _ => .refuse rfl ⟨rfl, hw⟩) fun _ => ?_
    exact related_ite Iff.rfl (fun _ => .reject rfl ⟨rfl, hw⟩) fun _ => .proceed ⟨rfl, hw⟩
  | clearExhaustion =>
    exact related_ite Iff.rfl (fun _ => .refuse rfl ⟨rfl, hw⟩) fun _ => .proceed ⟨rfl, hw⟩
  | setCapacity =>
    exact planned_twin hw (uncounted_alike a c (.setCapacity _ _ _) rfl) fun _ _ hcapacity _ =>
      capacity_twin hw hcapacity
  | retire =>
    exact planned_twin hw (uncounted_alike a c (.retireStale _) rfl) fun _ _ _ htotals =>
      totals_twin hw htotals
  | revalidate =>
    refine related_ite Iff.rfl (fun _ => .reject rfl ⟨rfl, hw⟩) fun hdecision => ?_
    -- only the way to Consumed reads the count
    refine planned_twin hw ?_ fun _ _ _ htotals => totals_twin hw htotals
    by_cases hreturned : r.decision = .toReturned
    · simp only [hreturned, if_true]
      exact uncounted_alike a c (.revalidateToReturned _) rfl
    · simp only [hreturned, if_false]
      refine counted_alike hgate (u := .revalidateToConsumed r.count) ?_
      unfold countingMove
      rw [hop]
      refine if_pos ?_
      cases hcase : r.decision with
      | none => exact absurd hcase hdecision
      | toReturned => exact absurd hcase hreturned
      | toConsumed => rfl
  -- both advances quarantine, which the count does not stop
  | advanceEpoch =>
    simp only [reduceCtorEq, false_and, if_false]
    refine related_ite Iff.rfl (fun _ => .reject rfl ⟨rfl, hw⟩) fun _ => ?_
    exact related_ite Iff.rfl (fun _ => .reject rfl ⟨rfl, hw⟩) fun _ => advanced_twin hw _ _
  | rotate =>
    simp only [true_and, if_true]
    refine related_ite Iff.rfl (fun _ => .reject rfl ⟨rfl, hw⟩) fun _ => ?_
    refine related_ite Iff.rfl (fun _ => .reject rfl ⟨rfl, hw⟩) fun _ => ?_
    exact related_ite Iff.rfl (fun _ => .reject rfl ⟨rfl, hw⟩) fun _ => advanced_twin hw _ _
  | fence =>
    have hview : (a.recast c w refusals cursor).view = { a.view with consumed := c } :=
      LedgerPlan.view_recount (.start a.capacity a.totals) c
    -- a fence records the view, with the count in it
    have hfence : fenceOf (a.recast c w refusals cursor) r = fenceOf a r := by
      unfold fenceOf
      rw [hview]
      rfl
    let record := (a.findIncarnation r.target).getD { id := r.target }
    let fenced : IncarnationRecord :=
      { record with state := .fenced, fencedAtSequence := r.sequence }
    refine related_ite Iff.rfl (fun _ => .reject rfl ⟨rfl, hw⟩) fun _ => ?_
    refine related_ite Iff.rfl (fun _ => .reject rfl ⟨rfl, hw⟩) fun _ => ?_
    refine related_ite Iff.rfl (fun _ => .refuse rfl ⟨rfl, hw⟩) fun _ => ?_
    refine related_ite Iff.rfl (fun _ => .reject rfl ⟨rfl, hw⟩) fun _ => ?_
    refine related_ite Iff.rfl (fun _ => .reject rfl ⟨rfl, hw⟩) fun _ => .proceed ⟨?_, hw⟩
    exact congrArg (fun fence => ({ a with
      incarnations := (a.incarnations.insert r.target record).insert r.target fenced
      fences := a.fences ++ [fence] } : AccountState).recast c w refusals cursor) hfence
  | retireIncarnation =>
    refine related_ite Iff.rfl (fun _ => .reject rfl ⟨rfl, hw⟩) fun _ => ?_
    have hfound : (a.recast c w refusals cursor).findIncarnation r.target =
        a.findIncarnation r.target := rfl
    rw [hfound]
    cases a.findIncarnation r.target with
    | none => exact .reject rfl ⟨rfl, hw⟩
    | some record =>
      exact related_ite Iff.rfl (fun _ => .refuse rfl ⟨rfl, hw⟩) fun _ => .proceed ⟨rfl, hw⟩
  | _ => exact .reject rfl ⟨rfl, hw⟩

/-- The results of a ledger operation agree on everything but the counter and the detail. -/
structure LedgerAlike (x y : Status × LedgerPlan) : Prop where
  reason : y.1.reason = x.1.reason
  totals : y.2.totals = { x.2.totals with consumed := y.2.totals.consumed }

omit hw in
/-- So does the ledger's part of one. -/
theorem ledgerApply_alike {r : CreditRequest} (hgate : ¬ GatedAt a c r) :
    LedgerAlike (ledgerApply (.start a.capacity a.totals) a r)
      (ledgerApply ((LedgerPlan.start a.capacity a.totals).recount c)
        (a.recast c w refusals cursor) r) := by
  have hsettled : ∀ {x y : Bool × LedgerPlan}, LedgerPlan.Alike x y →
      LedgerAlike (if x.1 then .success else x.2.status, x.2)
        (if y.1 then .success else y.2.status, y.2) := by
    intro x y h
    refine ⟨?_, h.totals⟩
    rw [h.permitted]
    split_ifs
    · rfl
    · exact h.reason
  unfold ledgerApply
  cases hop : r.op with
  | issue => exact hsettled (uncounted_alike a c (.issue _ _ _) rfl)
  | consume =>
    refine hsettled (counted_alike hgate (u := .consume r.count) ?_)
    unfold countingMove
    rw [hop]
  | return_ =>
    refine related_ite Iff.rfl (fun _ => ⟨rfl, rfl⟩) fun _ => ?_
    exact hsettled (uncounted_alike a c (.giveBack _) rfl)
  | protect => exact hsettled (uncounted_alike a c (.protect _ _) rfl)
  | unprotect => exact hsettled (uncounted_alike a c (.unprotect _) rfl)
  | _ => exact ⟨rfl, rfl⟩

/-- What the ledger decided, put into the accounts. -/
theorem settled_twin {x y : Status × LedgerPlan} (h : LedgerAlike x y) :
    DecisionTwin
      (if !x.1.ok then .refuse x.1 a else .proceed { a with totals := x.2.totals })
      (if !y.1.ok then .refuse y.1 (a.recast c w refusals cursor)
        else .proceed { a.recast c w refusals cursor with totals := y.2.totals }) := by
  refine related_ite ?_ (fun _ => .refuse h.reason ⟨rfl, hw⟩) fun _ =>
    .proceed (totals_twin hw h.totals)
  unfold Status.ok
  rw [h.reason]

/-- So does a ledger request. -/
theorem decideLedger_twin {r : CreditRequest} (hgate : ¬ GatedAt a c r) :
    DecisionTwin (decideLedger a r) (decideLedger (a.recast c w refusals cursor) r) := by
  have hfound : (a.recast c w refusals cursor).findIncarnation r.authority.incarnation =
      a.findIncarnation r.authority.incarnation := rfl
  unfold decideLedger
  refine related_ite Iff.rfl (fun _ => .reject rfl ⟨rfl, hw⟩) fun _ => ?_
  refine related_ite Iff.rfl (fun _ => .refuse rfl ⟨rfl, hw⟩) fun _ => ?_
  by_cases hissue : r.op = .issue
  · simp only [hissue, if_true, hfound]
    cases a.findIncarnation r.authority.incarnation with
    | none => exact .reject rfl ⟨rfl, hw⟩
    | some binding =>
      simp only [Option.map_some]
      cases (bindIssue binding r).2 with
      | some refusal => exact .refuse rfl ⟨rfl, hw⟩
      | none =>
        -- the binding is written into the record on both sides
        let bound : AccountState := { a with
          incarnations := a.incarnations.insert r.authority.incarnation (bindIssue binding r).1 }
        have hbound : ¬ GatedAt bound c r := hgate
        exact settled_twin (a := bound) hw (ledgerApply_alike hbound)
  · simp only [hissue, if_false]
    exact settled_twin hw (ledgerApply_alike hgate)

end Accounts

/-! ### Publishing -/

/-- An account is its own twin. -/
theorem Twin.refl (a : AccountState) : Twin a a := ⟨rfl, .refl a.window⟩

/-- A change that neither reads nor writes what the accounts differ in. -/
theorem Twin.map {a b : AccountState} (h : Twin a b) {f : AccountState → AccountState}
    (hf : ∀ a : AccountState, (f a).window = a.window)
    (hrecast : ∀ a c w refusals cursor,
      f (AccountState.recast a c w refusals cursor) = (f a).recast c w refusals cursor) :
    Twin (f a) (f b) := by
  have hb := h.eq
  have hwindow := h.window
  generalize b.totals.consumed = c at hb
  generalize hw : b.window = w at hb hwindow
  generalize b.refusals = refusals at hb
  generalize b.refusalCursor = cursor at hb
  rw [hb, hrecast]
  refine ⟨rfl, ?_⟩
  rw [hf]
  exact hwindow

/-- Updating a record keeps accounts twins. -/
theorem updateIncarnation_twin {a b : AccountState} (h : Twin a b) (id : IncarnationId)
    (f : IncarnationRecord → IncarnationRecord) :
    Twin (a.updateIncarnation id f) (b.updateIncarnation id f) := by
  refine h.map (f := fun a => a.updateIncarnation id f) (fun a => ?_) fun a c w refusals cursor => ?_
  · rw [AccountState.updateIncarnation_eq]
  · have hrecords : (a.recast c w refusals cursor).incarnations = a.incarnations := rfl
    unfold AccountState.updateIncarnation
    rw [hrecords]
    cases a.incarnations[id]? <;> rfl

/-- Counting a commit does. -/
theorem countCommitted_twin {a b : AccountState} (h : Twin a b) (caller : IncarnationId) :
    Twin (countCommitted a caller) (countCommitted b caller) :=
  updateIncarnation_twin (h.map (f := fun a =>
    { a with committedAttempts := a.committedAttempts + 1 }) (fun _ => rfl) fun _ _ _ _ _ => rfl) _ _

/-- Counting a refusal does. -/
theorem countRefused_twin {a b : AccountState} (h : Twin a b) (caller : IncarnationId) :
    Twin (countRefused a caller) (countRefused b caller) :=
  updateIncarnation_twin (h.map (f := fun a =>
    { a with refusedAttempts := a.refusedAttempts + 1 }) (fun _ => rfl) fun _ _ _ _ _ => rfl) _ _

/-- Twin windows do. -/
theorem Twin.setWindow {a b : AccountState} (h : Twin a b) {w w' : AttemptWindow}
    (hw : WindowTwin w w') : Twin { a with window := w } { b with window := w' } :=
  ⟨congrArg (fun b' : AccountState => { b' with window := w' }) h.eq, hw⟩

/-- The refusal log does not matter to it. -/
theorem Twin.setRefusals {a b : AccountState} (h : Twin a b) (l l' : List RefusalNote)
    (i i' : Nat) : Twin { a with refusals := l, refusalCursor := i }
      { b with refusals := l', refusalCursor := i' } :=
  ⟨congrArg (fun b' : AccountState => { b' with refusals := l', refusalCursor := i' }) h.eq,
    h.window⟩

/-- Outcomes of one reason are remembered alike. -/
theorem publishWindow_twin {a b : AccountState} (h : Twin a b) (r : CreditRequest)
    {o o' : CreditOutcome} (ho : o'.status.reason = o.status.reason) :
    Twin (a.publishWindow r o) (b.publishWindow r o') := by
  have hinserted := h.setWindow (h.window.insert
    (x := { key := { incarnation := r.authority.incarnation, sequence := r.sequence },
            attempt := r.attempt, request := r.digest, status := o.status,
            applied := o.applied, view := o.view })
    (y := { key := { incarnation := r.authority.incarnation, sequence := r.sequence },
            attempt := r.attempt, request := r.digest, status := o'.status,
            applied := o'.applied, view := o'.view }) rfl ⟨rfl, rfl, ho⟩)
  exact (updateIncarnation_twin hinserted _ _).map
    (f := fun a => a.resolveAmbiguous r.authority.incarnation r.sequence) (fun _ => rfl)
    fun _ _ _ _ _ => rfl

/-- The refusal logs are not compared. -/
theorem recordRefusal_twin {a b : AccountState} (h : Twin a b) (limit : Nat) (r : CreditRequest)
    (o o' : CreditOutcome) : Twin (a.recordRefusal limit r o) (b.recordRefusal limit r o') := by
  rw [AccountState.recordRefusal_eq a, AccountState.recordRefusal_eq b]
  exact h.setRefusals _ _ _ _

/-! ### Admission -/

/-- The authority checks do not look at the count. -/
theorem bindAuthority_twin {a b : AccountState} (h : Twin a b) (limits : EngineLimits)
    (operator : Incarnation) (r : CreditRequest) :
    bindAuthority limits operator b r = bindAuthority limits operator a r := by
  rw [h.eq]
  rfl

/-- A retry is found in both windows, with the same reason; any other placement is the same. -/
theorem placeInSequence_twin {a b : AccountState} (h : Twin a b) (r : CreditRequest) :
    (∃ x y, placeInSequence a r = .duplicate x ∧ placeInSequence b r = .duplicate y ∧
        y.status.reason = x.status.reason) ∨
      placeInSequence b r = placeInSequence a r ∧ ∀ x, placeInSequence a r ≠ .duplicate x := by
  have hfind := h.window.byKey { incarnation := r.authority.incarnation, sequence := r.sequence }
  have hrecord : b.findIncarnation r.authority.incarnation =
      a.findIncarnation r.authority.incarnation := by
    rw [h.eq]
    rfl
  have hattempt : (b.window.findByAttempt r.attempt).isSome =
      (a.window.findByAttempt r.attempt).isSome := by
    unfold AttemptWindow.findByAttempt
    rw [h.window.byAttempt]
    cases a.window.byAttempt[r.attempt]? with
    | none => rfl
    | some key => exact (isSome_of_rel (h.window.byKey key)).symm
  unfold placeInSequence AttemptWindow.find
  rw [hrecord, hattempt]
  generalize a.window.byKey[(_ : WindowKey)]? = found at hfind ⊢
  generalize b.window.byKey[(_ : WindowKey)]? = found' at hfind ⊢
  cases hfind with
  | none =>
    refine .inr ⟨rfl, fun x => ?_⟩
    simp only
    split_ifs <;> simp
  | @some x y hentry =>
    simp only [hentry.request]
    by_cases hrequest : x.request = r.digest
    · exact .inl ⟨x, y, if_pos hrequest, if_pos hrequest, hentry.reason⟩
    · rw [if_neg hrequest, if_neg hrequest]
      exact .inr ⟨rfl, by simp⟩

/-! ### Two engines -/

/-- What a request is told: whether it was applied, decided, absorbed, and the reason. -/
structure Verdict where
  applied : Bool
  decided : Bool
  duplicate : Bool
  reason : Reason
deriving DecidableEq, Repr

/-- The part of an outcome the count may not change. -/
def CreditOutcome.verdict (o : CreditOutcome) : Verdict :=
  ⟨o.applied, o.decided, o.duplicate, o.status.reason⟩

/-- The verdict on an admitted request. -/
def Decision.verdict : Decision → Verdict
  | .reject s _ => ⟨false, false, false, s.reason⟩
  | .refuse s _ => ⟨false, true, false, s.reason⟩
  | .proceed _ => ⟨true, true, false, .ok⟩

/-- Twin decisions have one verdict. -/
theorem DecisionTwin.verdict {d d' : Decision} (h : DecisionTwin d d') :
    d'.verdict = d.verdict := by
  cases h with
  | reject hreason _ => simp only [Decision.verdict, hreason]
  | refuse hreason _ => simp only [Decision.verdict, hreason]
  | proceed _ => rfl

namespace CreditEngine

/-- The outcome of a decision has the decision's verdict. -/
theorem verdict_decidedOutcome (a : AccountState) (r : CreditRequest) (d : Decision) :
    (decidedOutcome a r d).verdict = d.verdict := by
  cases d <;> rfl

variable {J J₁ J₂ : Type} [Journal J] [Journal J₁] [Journal J₂]

/-- The engines agree on what decides a call, up to the counters of their accounts. -/
structure Twins (e₁ : CreditEngine J₁) (e₂ : CreditEngine J₂) : Prop where
  limits : e₂.limits = e₁.limits
  operatorIncarnation : e₂.operatorIncarnation = e₁.operatorIncarnation
  challenge : e₂.challenge = e₁.challenge
  recovered : e₂.recovered = e₁.recovered
  accounts : ∀ key : UInt64, Option.Rel Twin e₁.accounts[key]? e₂.accounts[key]?

/-- The request counts credits that its account affords, and the sum with the counter wraps in
    one of the engines only. -/
def Gated (e₁ : CreditEngine J₁) (e₂ : CreditEngine J₂) (r : CreditRequest) : Prop :=
  ∃ a b, Admitted e₁ r a ∧ e₂.accounts[r.authority.account]? = some b ∧
    GatedAt a b.totals.consumed r

/-- The verdicts of a run. -/
def verdicts : CreditEngine J → List CreditRequest → List Verdict
  | _, [] => []
  | e, r :: rs => (e.apply r).1.verdict :: verdicts (e.apply r).2 rs

/-- No request of the run is gated in the states it reaches. -/
def NeverGated : CreditEngine J₁ → CreditEngine J₂ → List CreditRequest → Prop
  | _, _, [] => True
  | e₁, e₂, r :: rs => ¬ Gated e₁ e₂ r ∧ NeverGated (e₁.apply r).2 (e₂.apply r).2 rs

omit [Journal J₁] [Journal J₂] in
/-- Twin engines have as many accounts. -/
theorem Twins.size {e₁ : CreditEngine J₁} {e₂ : CreditEngine J₂} (h : Twins e₁ e₂) :
    e₂.accounts.size = e₁.accounts.size := by
  have hsome : ∀ key : UInt64, e₁.accounts[key]?.isSome = e₂.accounts[key]?.isSome :=
    fun key => isSome_of_rel (h.accounts key)
  refine Nat.le_antisymm ?_ ?_
  · exact Lib.size_le_of_keys fun key hkey => by rw [hsome, hkey]
  · exact Lib.size_le_of_keys fun key hkey => by rw [← hsome, hkey]

omit [Journal J₁] [Journal J₂] in
/-- An Open is validated alike. -/
theorem Twins.validateOpen {e₁ : CreditEngine J₁} {e₂ : CreditEngine J₂} (h : Twins e₁ e₂)
    (r : CreditRequest) : validateOpen e₂.limits e₂.challenge e₂.accounts r =
      CreditFabric.validateOpen e₁.limits e₁.challenge e₁.accounts r := by
  have hcontains : e₂.accounts.contains r.authority.account =
      e₁.accounts.contains r.authority.account := by
    rw [ExtTreeMap.contains_eq_isSome_getElem?, ExtTreeMap.contains_eq_isSome_getElem?]
    exact (isSome_of_rel (h.accounts _)).symm
  unfold CreditFabric.validateOpen
  rw [h.limits, h.challenge, hcontains, h.size]

omit [Journal J₁] [Journal J₂] in
/-- The decisions of both engines on twin accounts, outside the gate. -/
theorem Twins.decision {e₁ : CreditEngine J₁} {e₂ : CreditEngine J₂} (h : Twins e₁ e₂)
    {a b : AccountState} (hab : Twin a b) {r : CreditRequest}
    (hgate : ¬ GatedAt a b.totals.consumed r) :
    DecisionTwin (e₁.decision a r) (e₂.decision b r) := by
  have hb := hab.eq
  have hw := hab.window
  generalize b.totals.consumed = c at hb hgate
  generalize b.window = w at hb hw
  generalize b.refusals = refusals at hb
  generalize b.refusalCursor = cursor at hb
  rw [hb]
  unfold CreditEngine.decision
  rw [h.limits, h.challenge]
  refine related_ite Iff.rfl (fun _ => decideControl_twin hw e₁.limits hgate) fun _ => ?_
  exact related_ite Iff.rfl (fun _ => decideReconcile_twin hw e₁.challenge r) fun _ =>
    decideLedger_twin hw hgate

/-- What both engines keep of their configuration, with the account of a call. -/
theorem Twins.step {e₁ : CreditEngine J₁} {e₂ : CreditEngine J₂} (h : Twins e₁ e₂)
    {r : CreditRequest}
    (hslot : Option.Rel Twin (e₁.apply r).2.accounts[r.authority.account]?
      (e₂.apply r).2.accounts[r.authority.account]?) : Twins (e₁.apply r).2 (e₂.apply r).2 := by
  have hconfig₁ := apply_sameConfig e₁ r
  have hconfig₂ := apply_sameConfig e₂ r
  refine ⟨?_, ?_, ?_, ?_, fun key => ?_⟩
  · rw [hconfig₁.limits, hconfig₂.limits, h.limits]
  · rw [hconfig₁.operatorIncarnation, hconfig₂.operatorIncarnation, h.operatorIncarnation]
  · rw [hconfig₁.challenge, hconfig₂.challenge, h.challenge]
  · rw [hconfig₁.recovered, hconfig₂.recovered, h.recovered]
  · by_cases hkey : key = r.authority.account
    · rw [hkey]
      exact hslot
    · rw [getElem?_apply_of_ne e₁ hkey, getElem?_apply_of_ne e₂ hkey]
      exact h.accounts key

/-- The call has one verdict on both engines and leaves twins in the slot. -/
def AnsweredAlike (e₁ : CreditEngine J₁) (e₂ : CreditEngine J₂) (r : CreditRequest) : Prop :=
  (e₂.apply r).1.verdict = (e₁.apply r).1.verdict ∧
    Option.Rel Twin (e₁.apply r).2.accounts[r.authority.account]?
      (e₂.apply r).2.accounts[r.authority.account]?

/-- An Open is answered alike. -/
theorem opened_twins {e₁ : CreditEngine J₁} {e₂ : CreditEngine J₂} {r : CreditRequest}
    (h : Twins e₁ e₂) (hopens₁ : Opens e₁ r) (hopens₂ : Opens e₂ r)
    (h₁ : (e₁.apply r).2.journalFailed = false) (h₂ : (e₂.apply r).2.journalFailed = false) :
    AnsweredAlike e₁ e₂ r := by
  unfold AnsweredAlike
  rw [apply_of_opens hopens₁] at h₁ ⊢
  rw [apply_of_opens hopens₂] at h₂ ⊢
  obtain ⟨houtcome₁, haccount₁⟩ := settleOpen_of_healthy hopens₁ h₁
  obtain ⟨houtcome₂, haccount₂⟩ := settleOpen_of_healthy hopens₂ h₂
  have hsame : e₂.openOutcome r = e₁.openOutcome r := by
    unfold openOutcome
    rw [h.limits]
  rw [houtcome₁, houtcome₂, haccount₁, haccount₂, hsame]
  refine ⟨rfl, .some ?_⟩
  unfold publishedOpen
  rw [hsame, h.limits]
  exact .refl _

/-- So is a request the count does not stop. -/
private theorem decided_twins {e₁ : CreditEngine J₁} {e₂ : CreditEngine J₂} {r : CreditRequest}
    {a b : AccountState} (h : Twins e₁ e₂) (hab : Twin a b) (hadm₁ : Admitted e₁ r a)
    (hadm₂ : Admitted e₂ r b) (hgate : ¬ GatedAt a b.totals.consumed r)
    (h₁ : (e₁.apply r).2.journalFailed = false) (h₂ : (e₂.apply r).2.journalFailed = false) :
    AnsweredAlike e₁ e₂ r := by
  unfold AnsweredAlike
  rw [apply_of_admitted hadm₁] at h₁ ⊢
  rw [apply_of_admitted hadm₂] at h₂ ⊢
  obtain ⟨houtcome₁, haccount₁⟩ := settleDecision_of_healthy h₁
  obtain ⟨houtcome₂, haccount₂⟩ := settleDecision_of_healthy h₂
  have hdecision := h.decision hab hgate
  rw [houtcome₁, houtcome₂, haccount₁, haccount₂, h.limits]
  rw [verdict_decidedOutcome, verdict_decidedOutcome, hdecision.verdict]
  refine ⟨rfl, ?_⟩
  generalize e₁.decision a r = d at hdecision ⊢
  generalize e₂.decision b r = d' at hdecision ⊢
  cases hdecision with
  | reject _ hafter => exact .some hafter
  | refuse hreason hafter =>
    exact .some (recordRefusal_twin (publishWindow_twin (countRefused_twin hafter _) r hreason)
      _ r _ _)
  | proceed hafter => exact .some (publishWindow_twin (countCommitted_twin hafter _) r rfl)

/-- A request without evidence that reaches its account, outside the gate. -/
private theorem found_twins {e₁ : CreditEngine J₁} {e₂ : CreditEngine J₂} {r : CreditRequest}
    {a b : AccountState} (h : Twins e₁ e₂) (hab : Twin a b) (hfound₁ : Found e₁ r a)
    (hfound₂ : Found e₂ r b) (hstate : r.expectedState.isZero = true) (hgate : ¬ Gated e₁ e₂ r)
    (h₁ : (e₁.apply r).2.journalFailed = false) (h₂ : (e₂.apply r).2.journalFailed = false) :
    AnsweredAlike e₁ e₂ r := by
  have hslots : Option.Rel Twin e₁.accounts[r.authority.account]?
      e₂.accounts[r.authority.account]? := h.accounts _
  have hbindings : bindAuthority e₂.limits e₂.operatorIncarnation b r =
      bindAuthority e₁.limits e₁.operatorIncarnation a r := by
    rw [h.limits, h.operatorIncarnation, bindAuthority_twin hab]
  unfold AnsweredAlike
  cases hbound : bindAuthority e₁.limits e₁.operatorIncarnation a r with
  | some status =>
    rw [apply_of_found hfound₁, apply_of_found hfound₂]
    simp only [applyToAccount, hbindings, hbound]
    exact ⟨trivial, hslots⟩
  -- bound alike, the two are placed alike or retried alike
  | none =>
  obtain ⟨x, y, hx, hy, hreason⟩ | ⟨hsame, hnew⟩ := placeInSequence_twin hab r
  · -- a retry is answered from both windows
    rw [apply_of_found hfound₁, apply_of_found hfound₂]
    simp only [applyToAccount, hbindings, hbound, hx, hy]
    refine ⟨?_, hslots⟩
    show Verdict.mk _ _ _ _ = Verdict.mk _ _ _ _
    simp only [duplicateOutcome, hreason]
  · cases hplaced : placeInSequence a r with
    | duplicate x => exact absurd hplaced (hnew x)
    | conflict =>
      rw [apply_of_found hfound₁, apply_of_found hfound₂]
      simp only [applyToAccount, hbindings, hbound, hsame, hplaced]
      exact ⟨trivial, hslots⟩
    | refused status =>
      rw [apply_of_found hfound₁, apply_of_found hfound₂]
      simp only [applyToAccount, hbindings, hbound, hsame, hplaced]
      exact ⟨trivial, hslots⟩
    | admitted =>
      -- no digest was named, so none can be stale
      have hevidence : ∀ digest : Digest128,
          classify r.op = .control → ¬ (r.expectedState.isZero = false ∧ r.expectedState ≠ digest) :=
        fun _ _ hstale => by simp [hstate] at hstale
      have hadm₁ : Admitted e₁ r a := ⟨hfound₁.recovered, hfound₁.healthy, hfound₁.valid,
        hfound₁.notDescribe, hfound₁.notOpen, hfound₁.found, hbound, hplaced, hevidence _⟩
      have hadm₂ : Admitted e₂ r b := ⟨hfound₂.recovered, hfound₂.healthy, hfound₂.valid,
        hfound₂.notDescribe, hfound₂.notOpen, hfound₂.found, by rw [hbindings, hbound],
        by rw [hsame, hplaced], hevidence _⟩
      exact decided_twins h hab hadm₁ hadm₂
        (fun hgated => hgate ⟨a, b, hadm₁, hfound₂.found, hgated⟩) h₁ h₂

/-- **Step lemma.**  A request without evidence has one verdict on twin engines, unless it is
    gated, and leaves twin engines. -/
theorem apply_twins {e₁ : CreditEngine J₁} {e₂ : CreditEngine J₂} {r : CreditRequest}
    (h : Twins e₁ e₂) (hstate : r.expectedState.isZero = true) (hgate : ¬ Gated e₁ e₂ r)
    (h₁ : (e₁.apply r).2.journalFailed = false) (h₂ : (e₂.apply r).2.journalFailed = false) :
    AnsweredAlike e₁ e₂ r := by
  have hhealthy₁ := healthy_of_apply h₁
  have hhealthy₂ := healthy_of_apply h₂
  have hslots : Option.Rel Twin e₁.accounts[r.authority.account]?
      e₂.accounts[r.authority.account]? := h.accounts _
  have hopened := fun hopens₁ hopens₂ => opened_twins h hopens₁ hopens₂ h₁ h₂
  have hfound := fun a b (hab : Twin a b) hfound₁ hfound₂ =>
    found_twins h hab hfound₁ hfound₂ hstate hgate h₁ h₂
  clear h₁ h₂
  -- both engines answer in the same branch, in front of the account's slot
  cases hrec : e₁.recovered with
  | false =>
    have hrec₂ := h.recovered.trans hrec
    unfold AnsweredAlike
    simp only [apply, hrec, hrec₂, Bool.not_false, if_true]
    exact ⟨trivial, hslots⟩
  | true =>
  have hrec₂ := h.recovered.trans hrec
  cases hvalid : validateRequest e₁.limits r with
  | some status =>
    unfold AnsweredAlike
    simp only [apply, applyLocked, hrec, hrec₂, hhealthy₁, hhealthy₂, h.limits, hvalid,
      Bool.not_true, Bool.false_eq_true, if_false]
    exact ⟨trivial, hslots⟩
  | none =>
  have hvalid₂ : validateRequest e₂.limits r = none := by rw [h.limits, hvalid]
  by_cases hdescribe : r.op = .describe
  · unfold AnsweredAlike
    simp only [apply, applyLocked, describe, hrec, hrec₂, hhealthy₁, hhealthy₂, hvalid, hvalid₂,
      hdescribe, Bool.not_true, Bool.false_eq_true, if_false, if_true]
    refine ⟨?_, hslots⟩
    generalize e₁.accounts[r.authority.account]? = slot at hslots ⊢
    generalize e₂.accounts[r.authority.account]? = slot' at hslots ⊢
    cases hslots with
    | none => rfl
    | @some a b hab =>
      have hdomain : b.domain = a.domain := by
        rw [hab.eq]
        rfl
      simp only [hdomain]
      split_ifs <;> rfl
  by_cases hopen : r.op = .open_
  · have hvalidate := h.validateOpen r
    cases haccept : CreditFabric.validateOpen e₁.limits e₁.challenge e₁.accounts r with
    | some status =>
      rw [haccept] at hvalidate
      unfold AnsweredAlike
      simp only [apply, applyLocked, createAccountLocked, hrec, hrec₂, hhealthy₁, hhealthy₂, hvalid,
        hvalid₂, hopen, haccept, hvalidate, Bool.not_true, Bool.false_eq_true, if_false, if_true,
        reduceCtorEq]
      exact ⟨trivial, hslots⟩
    | none =>
      rw [haccept] at hvalidate
      exact hopened ⟨hrec, hhealthy₁, hvalid, hopen, haccept⟩
        ⟨hrec₂, hhealthy₂, hvalid₂, hopen, hvalidate⟩
  -- from here on the answer depends on the two accounts, which are twins
  cases hslot₁ : e₁.accounts[r.authority.account]? with
  | none =>
    rw [hslot₁] at hslots
    cases hslot₂ : e₂.accounts[r.authority.account]? with
    | some b =>
      rw [hslot₂] at hslots
      cases hslots
    | none =>
      unfold AnsweredAlike
      simp only [apply, applyLocked, hrec, hrec₂, hhealthy₁, hhealthy₂, hvalid, hvalid₂, hdescribe,
        hopen, hslot₁, hslot₂, Bool.not_true, Bool.false_eq_true, if_false]
      exact ⟨trivial, .none⟩
  | some a =>
    rw [hslot₁] at hslots
    cases hslot₂ : e₂.accounts[r.authority.account]? with
    | none =>
      rw [hslot₂] at hslots
      cases hslots
    | some b =>
      rw [hslot₂] at hslots
      cases hslots with
      | some hab =>
        exact hfound a b hab ⟨hrec, hhealthy₁, hvalid, hdescribe, hopen, hslot₁⟩
          ⟨hrec₂, hhealthy₂, hvalid₂, hdescribe, hopen, hslot₂⟩

omit [Journal J] in
/-- A counting request is applied exactly when its mutator is permitted. -/
theorem decision_counting (e : CreditEngine J) {a : AccountState} {r : CreditRequest}
    {u : Mutator} (hu : countingMove r = some u)
    (hafford : (LedgerPlan.start a.capacity a.totals).Affords u) :
    (e.decision a r).verdict.applied = ((LedgerPlan.start a.capacity a.totals).mutate u).1 := by
  unfold countingMove at hu
  unfold CreditEngine.decision
  cases hop : r.op with
  | consume =>
    rw [hop] at hu
    rw [← Option.some.inj hu] at hafford ⊢
    have hrefines := LedgerPlan.consume_refines hafford.1
      ((checkInvariants_ok_iff _ _).mp hafford.1) r.count
    simp only [classify, decideLedger, opIsLedger, ledgerApply, hop, LedgerPlan.mutate,
      reduceCtorEq, and_false, Bool.not_true, Bool.false_eq_true, if_false]
    generalize (LedgerPlan.start a.capacity a.totals).consume r.count = result at hrefines ⊢
    cases hrefines with
    | moved => rfl
    | refused reason detail refusal h =>
      have hfailed : (Status.refused reason detail).ok = false := by
        show (reason == Reason.ok) = false
        simpa using h
      simp only [LedgerPlan.refuse, hfailed, Bool.false_eq_true, if_false, Bool.not_false, if_true,
        Decision.verdict]
  | revalidate =>
    simp only [hop, Option.ite_none_right_eq_some] at hu
    obtain ⟨hdecision, hmove⟩ := hu
    rw [← Option.some.inj hmove]
    simp only [classify, decideControl, planned, hop, hdecision, LedgerPlan.mutate, reduceCtorEq,
      if_true, if_false]
    cases ((LedgerPlan.start a.capacity a.totals).revalidateToConsumed r.count).1 <;> rfl
  | _ =>
    rw [hop] at hu
    exact absurd hu (by simp)

/-- At the gate the verdicts differ. -/
theorem gated_differs {e₁ : CreditEngine J₁} {e₂ : CreditEngine J₂} {r : CreditRequest}
    (h : Twins e₁ e₂) (hstate : r.expectedState.isZero = true) (hgate : Gated e₁ e₂ r)
    (h₁ : (e₁.apply r).2.journalFailed = false) (h₂ : (e₂.apply r).2.journalFailed = false) :
    (e₂.apply r).1.verdict ≠ (e₁.apply r).1.verdict := by
  obtain ⟨a, b, hadm₁, hfound₂, u, hu, hafford, hsplits⟩ := hgate
  have hab : Twin a b := by
    have hslots := h.accounts r.authority.account
    rw [hadm₁.found, hfound₂] at hslots
    cases hslots with
    | some hab => exact hab
  -- the other engine admits the request too
  have hplaced : placeInSequence b r = .admitted := by
    obtain ⟨x, y, hx, -, -⟩ | ⟨hsame, -⟩ := placeInSequence_twin hab r
    · rw [hadm₁.placed] at hx
      exact absurd hx (by simp)
    · rw [hsame, hadm₁.placed]
  have hadm₂ : Admitted e₂ r b := by
    refine ⟨h.recovered.trans hadm₁.recovered, healthy_of_apply h₂, ?_, hadm₁.notDescribe,
      hadm₁.notOpen, hfound₂, ?_, hplaced, fun _ hstale => by simp [hstate] at hstale⟩
    · rw [h.limits, hadm₁.valid]
    · rw [h.limits, h.operatorIncarnation, bindAuthority_twin hab, hadm₁.bound]
  have hstart : LedgerPlan.start b.capacity b.totals =
      (LedgerPlan.start a.capacity a.totals).recount b.totals.consumed := by
    rw [hab.eq]
    rfl
  have hok : (LedgerPlan.start a.capacity a.totals).status.ok = true := by
    cases u <;> first | exact hafford.1 | exact hafford.elim
  have hclosed : Closed a.capacity a.totals := (checkInvariants_ok_iff _ _).mp hok
  have hmutate := LedgerPlan.mutate_splits hclosed hafford hsplits
  rw [← hstart] at hmutate
  rw [apply_of_admitted hadm₁] at h₁ ⊢
  rw [apply_of_admitted hadm₂] at h₂ ⊢
  rw [(settleDecision_of_healthy h₁).1, (settleDecision_of_healthy h₂).1, verdict_decidedOutcome,
    verdict_decidedOutcome]
  intro heq
  have happlied := congrArg Verdict.applied heq
  rw [decision_counting e₁ hu hafford] at happlied
  have hafford₂ : (LedgerPlan.start b.capacity b.totals).Affords u := by
    rw [hstart]
    exact LedgerPlan.affords_recount.mpr hafford
  rw [decision_counting e₂ hu hafford₂] at happlied
  exact hmutate happlied.symm

/-! ### Runs -/

/-- **What the telemetry counter decides.**  Two engines whose accounts differ in their counters
    alone give the requests of a run the same verdicts if and only if none of them is gated: a
    Consume or a Revalidate to consumed is refused when the sum of counter and count wraps. -/
theorem verdicts_iff_neverGated (e₁ : CreditEngine J₁) (e₂ : CreditEngine J₂)
    (rs : List CreditRequest) (h : Twins e₁ e₂)
    (hstate : ∀ r ∈ rs, r.expectedState.isZero = true)
    (h₁ : (e₁.run rs).journalFailed = false) (h₂ : (e₂.run rs).journalFailed = false) :
    verdicts e₂ rs = verdicts e₁ rs ↔ NeverGated e₁ e₂ rs := by
  induction rs generalizing e₁ e₂ with
  | nil => exact iff_of_true rfl trivial
  | cons r rs ih =>
    have hr := hstate r List.mem_cons_self
    have hrs := fun r' hr' => hstate r' (List.mem_cons_of_mem r hr')
    have hlate₁ : (e₁.apply r).2.journalFailed = false := healthy_of_run h₁
    have hlate₂ : (e₂.apply r).2.journalFailed = false := healthy_of_run h₂
    show _ :: _ = _ :: _ ↔ ¬ Gated e₁ e₂ r ∧ _
    rw [List.cons.injEq]
    by_cases hgate : Gated e₁ e₂ r
    · refine iff_of_false ?_ fun hnever => hnever.1 hgate
      exact fun heq => gated_differs h hr hgate hlate₁ hlate₂ heq.1
    · obtain ⟨hverdict, hslot⟩ := apply_twins h hr hgate hlate₁ hlate₂
      rw [ih _ _ (h.step hslot) hrs h₁ h₂]
      exact ⟨fun hall => ⟨hgate, hall.2⟩, fun hall => ⟨hverdict, hall.2⟩⟩

/-! ### A full counter -/

/-- The engine with another telemetry counter in one account. -/
def recount (e : CreditEngine J) (key c : UInt64) : CreditEngine J :=
  match e.accounts[key]? with
  | some a => e.put key { a with totals := { a.totals with consumed := c } }
  | none => e

omit [Journal J] in
/-- Setting a count leaves a twin. -/
theorem twins_recount (e : CreditEngine J) (key c : UInt64) : Twins e (e.recount key c) := by
  have hsame : ∀ k : UInt64, Option.Rel Twin e.accounts[k]? e.accounts[k]? := by
    intro k
    cases e.accounts[k]? with
    | none => exact .none
    | some a => exact .some (.refl a)
  unfold recount
  cases ha : e.accounts[key]? with
  | none => exact ⟨rfl, rfl, rfl, rfl, hsame⟩
  | some a =>
    refine ⟨rfl, rfl, rfl, rfl, fun k => ?_⟩
    rw [put_accounts]
    by_cases hk : k = key
    · rw [hk, ha, ExtTreeMap.getElem?_insert_self]
      exact .some ⟨rfl, .refl a.window⟩
    · rw [Lib.getElem?_insert_of_ne _ _ hk]
      exact hsame k

namespace FullCounter

open Fixture

/-- The boot's nonce. -/
def nonce : Digest128 := ⟨0x38, 0x83⟩

/-- A request of the operator for an account of the largest capacity. -/
def call (epoch : EpochId) (op : OpKind) (sequence count : UInt64) : CreditRequest :=
  let config := { config with capacity := 0xFFFFFFFFFFFFFFFF, maxCapacity := 0xFFFFFFFFFFFFFFFF }
  { requestIn epoch epoch nonce me op sequence with
    config, count, decision := .toConsumed }

/-- Half of the range is spent twice: once when it is issued, and once when the era has advanced
    and it is revalidated. -/
def calls : List CreditRequest :=
  [call 1 .open_ 1 1, call 1 .issue 2 0x8000000000000000, call 1 .consume 3 0x8000000000000000,
    call 1 .advanceEpoch 4 1, call 2 .reconcile 5 1, call 2 .revalidate 6 0x7FFFFFFFFFFFFFFF,
    call 2 .issue 7 1]

/-- An engine over an empty journal. -/
def booted : CreditEngine InMemoryJournal := Fixture.boot {} {} nonce

/-- One more credit is refused for the counter alone. -/
theorem counter_gates : ¬ ∀ (e : CreditEngine InMemoryJournal) (key c : UInt64)
    (rs : List CreditRequest), (∀ r ∈ rs, r.expectedState.isZero = true) →
    verdicts (e.recount key c) rs = verdicts e rs := by
  intro hclaim
  have hverdicts := hclaim (booted.run calls) account 0 [call 2 .consume 8 1] (by decide)
  have hdiffer : verdicts ((booted.run calls).recount account 0) [call 2 .consume 8 1] ≠
      verdicts (booted.run calls) [call 2 .consume 8 1] := by decide +kernel
  exact hdiffer hverdicts

/-- Neither run latches, evaluated once. -/
theorem seven_healthy :
    ((booted.run [call 1 .open_ 1 1]).run
      [call 1 .issue 2 4, call 1 .consume 3 2]).journalFailed = false ∧
    (((booted.run [call 1 .open_ 1 1]).recount account 7).run
      [call 1 .issue 2 4, call 1 .consume 3 2]).journalFailed = false := by
  decide +kernel

/-- A new account whose counter starts at seven. -/
theorem seven_unseen :
    verdicts (((booted.run [call 1 .open_ 1 1]).recount account 7))
        [call 1 .issue 2 4, call 1 .consume 3 2] =
      verdicts (booted.run [call 1 .open_ 1 1]) [call 1 .issue 2 4, call 1 .consume 3 2] ↔
    NeverGated (booted.run [call 1 .open_ 1 1])
      ((booted.run [call 1 .open_ 1 1]).recount account 7)
      [call 1 .issue 2 4, call 1 .consume 3 2] :=
  verdicts_iff_neverGated _ _ _ (twins_recount _ _ _) (by decide) seven_healthy.1 seven_healthy.2

end FullCounter

end CreditEngine

end CreditFabric
