import CreditFabric.Transfer

namespace CreditFabric

/-!
# The ledger as a bucket machine

The reference machine holds every credit of the capacity in one of five buckets, over unbounded
integers, next to the cumulative counters.  A mutator is refused for the first of its guards
that fails, and otherwise moves credits between two buckets.  The first refusal ends it.

`LedgerPlan.mutate_refines` is the step of the simulation: on a plan that is closed and not
refused, the 64-bit mutator does what the machine does on the buckets of the derived view.
-/

/-- The buckets of the capacity, and the cumulative counters. -/
structure BucketMachine where
  available : Nat
  protectedCredits : Nat
  outstanding : Nat
  spent : Nat
  stale : Nat
  issued : Nat
  consumed : Nat
  returned : Nat
deriving DecidableEq, Repr

/-- The ten mutators of a plan, with their arguments. -/
inductive Mutator where
  | issue (count minIssue maxIssue : UInt64)
  | consume (count : UInt64)
  | giveBack (count : UInt64)
  | protect (count : UInt64) (allowed : Bool)
  | unprotect (count : UInt64)
  | retireStale (count : UInt64)
  | quarantineInFlight
  | revalidateToReturned (count : UInt64)
  | revalidateToConsumed (count : UInt64)
  | setCapacity (newCapacity maxCapacity : UInt64) (allowGrowth : Bool)
deriving DecidableEq, Repr

namespace BucketMachine

/-- What occupies capacity: the reserved credits and those in flight. -/
def obligations (m : BucketMachine) : Nat := m.protectedCredits + m.outstanding + m.spent + m.stale

/-- All the credits of the machine. -/
def capacity (m : BucketMachine) : Nat := m.available + m.obligations

/-- The guards, in the order in which their refusals are reported. -/
def refusal (m : BucketMachine) : Mutator → Option Reason
  | .issue count minIssue maxIssue =>
    if count = 0 then some .countZero
    else if count < minIssue ∨ maxIssue < count then some .policyRefused
    else if m.available < count.toNat then some .insufficientAvailable
    else if 2 ^ 64 ≤ m.issued + count.toNat then some .countOverflow
    else none
  | .consume count =>
    if count = 0 then some .countZero
    else if m.outstanding < count.toNat then some .insufficientOutstanding
    else if 2 ^ 64 ≤ m.consumed + count.toNat then some .countOverflow
    else none
  | .giveBack count =>
    if count = 0 then some .countZero
    else if m.outstanding + m.spent < count.toNat then some .insufficientOutstanding
    else none
  | .protect count allowed =>
    if allowed = false then some .policyRefused
    else if count = 0 then some .countZero
    else if m.available < count.toNat then some .insufficientAvailable
    else none
  | .unprotect count =>
    if count = 0 then some .countZero
    else if m.protectedCredits < count.toNat then some .insufficientProtected
    else none
  | .retireStale count =>
    if count = 0 then some .countZero
    else if m.outstanding < count.toNat then some .insufficientOutstanding
    else none
  | .quarantineInFlight => none
  | .revalidateToReturned count =>
    if count = 0 then some .countZero
    else if m.stale < count.toNat then some .nothingToRetire
    else none
  | .revalidateToConsumed count =>
    if count = 0 then some .countZero
    else if m.stale < count.toNat then some .nothingToRetire
    else if 2 ^ 64 ≤ m.consumed + count.toNat then some .countOverflow
    else none
  | .setCapacity newCapacity maxCapacity allowGrowth =>
    if newCapacity = 0 then some .capacityOutOfRange
    else if maxCapacity < newCapacity then some .capacityExceeded
    else if m.capacity < newCapacity.toNat ∧ allowGrowth = false then some .policyRefused
    else if newCapacity.toNat < m.obligations then some .capacityShrinkViolation
    else none

/-- The move of a mutator that is not refused.  Credits are given back from the spent ones
    first. -/
def move (m : BucketMachine) : Mutator → BucketMachine
  | .issue count _ _ =>
    { m with available := m.available - count.toNat, outstanding := m.outstanding + count.toNat,
             issued := m.issued + count.toNat }
  | .consume count =>
    { m with outstanding := m.outstanding - count.toNat, spent := m.spent + count.toNat,
             consumed := m.consumed + count.toNat }
  | .giveBack count =>
    let fromSpent := min m.spent count.toNat
    { m with spent := m.spent - fromSpent, outstanding := m.outstanding - (count.toNat - fromSpent),
             available := m.available + count.toNat, returned := m.returned + count.toNat }
  | .protect count _ =>
    { m with available := m.available - count.toNat,
             protectedCredits := m.protectedCredits + count.toNat }
  | .unprotect count =>
    { m with protectedCredits := m.protectedCredits - count.toNat,
             available := m.available + count.toNat }
  | .retireStale count =>
    { m with outstanding := m.outstanding - count.toNat, stale := m.stale + count.toNat }
  | .quarantineInFlight =>
    { m with outstanding := 0, spent := 0, stale := m.stale + m.outstanding + m.spent }
  | .revalidateToReturned count =>
    { m with stale := m.stale - count.toNat, available := m.available + count.toNat,
             returned := m.returned + count.toNat }
  | .revalidateToConsumed count =>
    { m with stale := m.stale - count.toNat, spent := m.spent + count.toNat,
             consumed := m.consumed + count.toNat }
  | .setCapacity newCapacity _ _ => { m with available := newCapacity.toNat - m.obligations }

end BucketMachine

/-- The machine and the refusal that ended it, if any. -/
structure BucketRun where
  machine : BucketMachine
  refused : Option Reason := none
deriving DecidableEq, Repr

/-- One mutator of the reference: the machine moves, or the first refusal ends it. -/
def BucketRun.step (s : BucketRun) (u : Mutator) : Bool × BucketRun :=
  match s.refused with
  | some _ => (false, s)
  | none =>
    match s.machine.refusal u with
    | some reason => (false, { s with refused := some reason })
    | none => (true, { s with machine := s.machine.move u })

/-- Mutators one after the other. -/
def BucketRun.steps (s : BucketRun) (us : List Mutator) : BucketRun :=
  us.foldl (fun s u => (s.step u).2) s

namespace LedgerPlan

/-- The mutator of a plan that a constructor names. -/
def mutate (p : LedgerPlan) : Mutator → Bool × LedgerPlan
  | .issue count minIssue maxIssue => p.issue count minIssue maxIssue
  | .consume count => p.consume count
  | .giveBack count => p.giveBack count
  | .protect count allowed => p.protect count allowed
  | .unprotect count => p.unprotect count
  | .retireStale count => p.retireStale count
  | .quarantineInFlight => p.quarantineInFlight
  | .revalidateToReturned count => p.revalidateToReturned count
  | .revalidateToConsumed count => p.revalidateToConsumed count
  | .setCapacity newCapacity maxCapacity allowGrowth =>
    p.setCapacity newCapacity maxCapacity allowGrowth

/-- Mutators of a plan one after the other. -/
def mutateAll (p : LedgerPlan) (us : List Mutator) : LedgerPlan :=
  us.foldl (fun p u => (p.mutate u).2) p

/-- The buckets of a plan, read off its view. -/
def machine (p : LedgerPlan) : BucketMachine where
  available := p.view.available.toNat
  protectedCredits := p.view.protectedCredits.toNat
  outstanding := p.view.outstanding.toNat
  spent := p.view.spent.toNat
  stale := p.view.stale.toNat
  issued := p.view.issued.toNat
  consumed := p.view.consumed.toNat
  returned := p.view.returned.toNat

/-- The state of the reference that a plan stands for. -/
def bucketRun (p : LedgerPlan) : BucketRun where
  machine := p.machine
  refused := if p.status.ok then none else some p.status.reason

variable {p : LedgerPlan}

/-- The machine of a closed plan, as differences of its counters. -/
theorem machine_of_closed (h : Closed p.capacity p.totals) :
    p.machine = {
      available := p.capacity.toNat - p.totals.protectedCredits.toNat -
        (p.totals.issued.toNat - p.totals.returned.toNat)
      protectedCredits := p.totals.protectedCredits.toNat
      outstanding := p.totals.issued.toNat - p.totals.returned.toNat -
        (p.totals.spent.toNat + p.totals.stale.toNat)
      spent := p.totals.spent.toNat
      stale := p.totals.stale.toNat
      issued := p.totals.issued.toNat
      consumed := p.totals.consumed.toNat
      returned := p.totals.returned.toNat } := by
  have hview : ExactView p.capacity p.totals p.view := computeView_of_closed h
  have hin := hview.inFlight
  have hout := hview.outstanding
  have havailable := hview.available
  have heq : p.view = _ := computeView_eq p.capacity p.totals
  unfold machine
  rw [BucketMachine.mk.injEq]
  refine ⟨by omega, ?_, by omega, ?_, ?_, ?_, ?_, ?_⟩ <;> rw [heq]

/-- Every credit of a closed plan is in one bucket. -/
theorem capacity_machine (h : Closed p.capacity p.totals) :
    p.machine.capacity = p.capacity.toNat := by
  have hreserved := h.reserved
  have hclaimed := h.claimed
  rw [machine_of_closed h]
  simp only [BucketMachine.capacity, BucketMachine.obligations]
  omega

/-- Counters that are closed are committed. -/
theorem commit_of_closed {c : CreditTotals} (hok : p.status.ok = true)
    (hc : Closed p.capacity c) : p.commit c = (true, { p with totals := c }) := by
  unfold commit
  simp only [hok, (checkInvariants_ok_iff _ _).mpr hc, Bool.not_true, Bool.false_eq_true, if_false]

/-- What one mutator does, on the plan and on the machine. -/
inductive Refines (p : LedgerPlan) (u : Mutator) : Bool × LedgerPlan → Prop
  | moved (p' : LedgerPlan) (permitted : p.machine.refusal u = none)
      (status : p'.status = p.status) (closed : Closed p'.capacity p'.totals)
      (machine : p'.machine = p.machine.move u) : Refines p u (true, p')
  | refused (reason : Reason) (detail : UInt64) (refusal : p.machine.refusal u = some reason)
      (h : reason ≠ .ok) : Refines p u (p.refuse reason detail)

/-- One guard in front of the rest of a mutator. -/
theorem Refines.guard {u : Mutator} {c : Prop} [Decidable c] {reason : Reason} {detail : UInt64}
    {rest : Bool × LedgerPlan} (hrefusal : c → p.machine.refusal u = some reason)
    (hreason : reason ≠ .ok) (hrest : ¬ c → Refines p u rest) :
    Refines p u (if c then p.refuse reason detail else rest) := by
  by_cases hc : c
  · rw [if_pos hc]
    exact .refused _ _ (hrefusal hc) hreason
  · rw [if_neg hc]
    exact hrest hc

/-- A wrapped sum is one that does not fit. -/
theorem add_lt_self_iff {a b : UInt64} : a + b < a ↔ 2 ^ 64 ≤ a.toNat + b.toNat := by
  constructor
  · intro h
    by_contra hlt
    have hnat := (addOverflow_of_lt (Nat.not_le.mp hlt)).2
    rw [UInt64.lt_iff_toNat_lt, hnat] at h
    omega
  · intro h
    exact of_decide_eq_true (addOverflow_of_ge h)

/-- A mutator that passed its guards publishes its candidate. -/
theorem commit_refines (hok : p.status.ok = true) {u : Mutator} {c : CreditTotals}
    (hpermitted : p.machine.refusal u = none) (hc : Closed p.capacity c)
    (hmachine : { p with totals := c }.machine = p.machine.move u) :
    Refines p u (p.commit c) := by
  rw [commit_of_closed hok hc]
  exact .moved _ hpermitted rfl hc hmachine

section Mutators

variable (hok : p.status.ok = true) (hclosed : Closed p.capacity p.totals)
include hok hclosed

/-- `issue` against its machine. -/
theorem issue_refines (n lo hi : UInt64) : Refines p (.issue n lo hi) (p.issue n lo hi) := by
  have hmachine := machine_of_closed hclosed
  have hroom_iff : p.view.available < n ↔ p.machine.available < n.toNat :=
    UInt64.lt_iff_toNat_lt
  have hissued : p.machine.issued = p.totals.issued.toNat := by rw [hmachine]
  unfold issue
  simp only [hok, Bool.not_true, Bool.false_eq_true, if_false, addOverflow, decide_eq_true_eq]
  refine .guard (fun hzero => ?_) (by decide) fun hzero => ?_
  · simp only [BucketMachine.refusal, hzero, if_true]
  refine .guard (fun hwindow => ?_) (by decide) fun hwindow => ?_
  · simp only [BucketMachine.refusal, hzero, hwindow, if_true, if_false]
  refine .guard (fun hroom => ?_) (by decide) fun hroom => ?_
  · simp only [BucketMachine.refusal, hzero, hwindow, hroom_iff.mp hroom, if_true, if_false]
  refine .guard (fun hover => ?_) (by decide) fun hover => ?_
  · simp only [BucketMachine.refusal, hzero, hwindow, mt hroom_iff.mpr hroom, hissued,
      add_lt_self_iff.mp hover, if_true, if_false]
  have hnat := toNat_add_of_fits hover
  have hreturned := hclosed.returned
  have hreserved := hclosed.reserved
  have hclaimed := hclosed.claimed
  have hroom' := mt hroom_iff.mpr hroom
  have hc : Closed p.capacity { p.totals with issued := p.totals.issued + n } := by
    rw [hmachine] at hroom'
    exact ⟨by simp only; omega, by simp only; omega, by simp only at *; omega⟩
  refine commit_refines hok ?_ hc ?_
  · simp only [BucketMachine.refusal, hzero, hwindow, hroom', hissued, mt add_lt_self_iff.mpr hover,
      if_false]
  · rw [machine_of_closed hc, hmachine]
    simp only [BucketMachine.move, BucketMachine.mk.injEq, hnat, and_true, true_and]
    omega

/-- `consume` against its machine. -/
theorem consume_refines (n : UInt64) : Refines p (.consume n) (p.consume n) := by
  have hmachine := machine_of_closed hclosed
  have hroom_iff : p.view.outstanding < n ↔ p.machine.outstanding < n.toNat :=
    UInt64.lt_iff_toNat_lt
  have hconsumed : p.machine.consumed = p.totals.consumed.toNat := by rw [hmachine]
  have hreturned := hclosed.returned
  have hreserved := hclosed.reserved
  have hclaimed := hclosed.claimed
  have hissued := p.totals.issued.toNat_lt
  unfold consume
  simp only [hok, Bool.not_true, Bool.false_eq_true, if_false, addOverflow, decide_eq_true_eq]
  refine .guard (fun hzero => ?_) (by decide) fun hzero => ?_
  · simp only [BucketMachine.refusal, hzero, if_true]
  refine .guard (fun hroom => ?_) (by decide) fun hroom => ?_
  · simp only [BucketMachine.refusal, hzero, hroom_iff.mp hroom, if_true, if_false]
  have hroom' := mt hroom_iff.mpr hroom
  have hfits : n.toNat + (p.totals.spent.toNat + p.totals.stale.toNat) ≤
      p.totals.issued.toNat - p.totals.returned.toNat := by
    rw [hmachine] at hroom'
    simp only at hroom'
    omega
  -- the spent credits stay below those in flight
  refine .guard (fun hover => ?_) (by decide) fun hspent => ?_
  · have := add_lt_self_iff.mp hover
    omega
  refine .guard (fun hover => ?_) (by decide) fun hover => ?_
  · simp only [BucketMachine.refusal, hzero, hroom', hconsumed, add_lt_self_iff.mp hover, if_true,
      if_false]
  have hspentNat := toNat_add_of_fits hspent
  have hconsumedNat := toNat_add_of_fits hover
  have hc : Closed p.capacity { p.totals with
      spent := p.totals.spent + n, consumed := p.totals.consumed + n } :=
    ⟨hreturned, by simp only; omega, hclaimed⟩
  refine commit_refines hok ?_ hc ?_
  · simp only [BucketMachine.refusal, hzero, hroom', hconsumed, mt add_lt_self_iff.mpr hover,
      if_false]
  · rw [machine_of_closed hc, hmachine]
    simp only [BucketMachine.move, BucketMachine.mk.injEq, hspentNat, hconsumedNat, and_true,
      true_and]
    omega

/-- `giveBack` against its machine. -/
theorem giveBack_refines (n : UInt64) : Refines p (.giveBack n) (p.giveBack n) := by
  have hmachine := machine_of_closed hclosed
  have hview : ExactView p.capacity p.totals p.view := computeView_of_closed hclosed
  have hreturned := hclosed.returned
  have hreserved := hclosed.reserved
  have hclaimed := hclosed.claimed
  have hissued := p.totals.issued.toNat_lt
  have hroom_iff : (p.view.inFlight < n ∨ p.view.inFlight - p.view.stale < n) ↔
      p.machine.outstanding + p.machine.spent < n.toNat := by
    have hin := hview.inFlight
    rw [UInt64.lt_iff_toNat_lt, UInt64.lt_iff_toNat_lt,
      UInt64.toNat_sub_of_le _ _ hview.stale_le, hview.stale, hmachine]
    simp only
    omega
  -- what is left of the spent credits, as one word for both branches
  have hspent : (p.totals.spent - if p.totals.spent < n then p.totals.spent else n).toNat =
      p.totals.spent.toNat - n.toNat := by
    split_ifs with hless
    · rw [UInt64.lt_iff_toNat_lt] at hless
      rw [UInt64.toNat_sub_of_le _ _ (UInt64.le_refl _)]
      omega
    · exact UInt64.toNat_sub_of_le _ _ (UInt64.not_lt.mp hless)
  unfold giveBack
  simp only [hok, Bool.not_true, Bool.false_eq_true, if_false, addOverflow, decide_eq_true_eq]
  generalize (p.totals.spent - if p.totals.spent < n then p.totals.spent else n) = spent at hspent
  refine .guard (fun hzero => ?_) (by decide) fun hzero => ?_
  · simp only [BucketMachine.refusal, hzero, if_true]
  refine .guard (fun hroom => ?_) (by decide) fun hroom => ?_
  · simp only [BucketMachine.refusal, hzero, hroom_iff.mp hroom, if_true, if_false]
  have hroom' := mt hroom_iff.mpr hroom
  have hfits : n.toNat + p.totals.stale.toNat ≤
      p.totals.issued.toNat - p.totals.returned.toNat := by
    rw [hmachine] at hroom'
    simp only at hroom'
    omega
  refine .guard (fun hover => ?_) (by decide) fun hover => ?_
  · have := add_lt_self_iff.mp hover
    omega
  have hnat := toNat_add_of_fits hover
  have hc : Closed p.capacity { p.totals with spent, returned := p.totals.returned + n } :=
    ⟨by simp only; omega, by simp only; omega, by simp only; omega⟩
  refine commit_refines hok ?_ hc ?_
  · simp only [BucketMachine.refusal, hzero, hroom', if_false]
  · rw [machine_of_closed hc, hmachine]
    simp only [BucketMachine.move, BucketMachine.mk.injEq, hspent, hnat, and_true, true_and]
    omega

/-- `protect` against its machine. -/
theorem protect_refines (n : UInt64) (allowed : Bool) :
    Refines p (.protect n allowed) (p.protect n allowed) := by
  have hmachine := machine_of_closed hclosed
  have hroom_iff : p.view.available < n ↔ p.machine.available < n.toNat :=
    UInt64.lt_iff_toNat_lt
  have hclaimed := hclosed.claimed
  have hcapacity := p.capacity.toNat_lt
  unfold protect
  simp only [hok, Bool.not_true, Bool.false_eq_true, if_false, addOverflow, decide_eq_true_eq]
  refine .guard (fun hpolicy => ?_) (by decide) fun hpolicy => ?_
  · have hforbidden : allowed = false := by simpa using hpolicy
    simp only [BucketMachine.refusal, hforbidden, if_true]
  have hallowed : (allowed = false) = False := by simpa using hpolicy
  refine .guard (fun hzero => ?_) (by decide) fun hzero => ?_
  · simp only [BucketMachine.refusal, hallowed, hzero, if_true, if_false]
  refine .guard (fun hroom => ?_) (by decide) fun hroom => ?_
  · simp only [BucketMachine.refusal, hallowed, hzero, hroom_iff.mp hroom, if_true, if_false]
  have hroom' := mt hroom_iff.mpr hroom
  have hfits : n.toNat + p.totals.protectedCredits.toNat +
      (p.totals.issued.toNat - p.totals.returned.toNat) ≤ p.capacity.toNat := by
    rw [hmachine] at hroom'
    simp only at hroom'
    omega
  refine .guard (fun hover => ?_) (by decide) fun hover => ?_
  · have := add_lt_self_iff.mp hover
    omega
  have hnat := toNat_add_of_fits hover
  have hc : Closed p.capacity { p.totals with
      protectedCredits := p.totals.protectedCredits + n } :=
    ⟨hclosed.returned, hclosed.reserved, by simp only; omega⟩
  refine commit_refines hok ?_ hc ?_
  · simp only [BucketMachine.refusal, hallowed, hzero, hroom', if_false]
  · rw [machine_of_closed hc, hmachine]
    simp only [BucketMachine.move, BucketMachine.mk.injEq, hnat, and_true]
    omega

/-- `unprotect` against its machine. -/
theorem unprotect_refines (n : UInt64) : Refines p (.unprotect n) (p.unprotect n) := by
  have hmachine := machine_of_closed hclosed
  have hheld_iff : p.totals.protectedCredits < n ↔ p.machine.protectedCredits < n.toNat := by
    rw [hmachine]
    exact UInt64.lt_iff_toNat_lt
  have hclaimed := hclosed.claimed
  unfold unprotect
  simp only [hok, Bool.not_true, Bool.false_eq_true, if_false]
  refine .guard (fun hzero => ?_) (by decide) fun hzero => ?_
  · simp only [BucketMachine.refusal, hzero, if_true]
  refine .guard (fun hheld => ?_) (by decide) fun hheld => ?_
  · simp only [BucketMachine.refusal, hzero, hheld_iff.mp hheld, if_true, if_false]
  have hheld' := mt hheld_iff.mpr hheld
  have hle : n.toNat ≤ p.totals.protectedCredits.toNat :=
    UInt64.le_iff_toNat_le.mp (UInt64.not_lt.mp hheld)
  have hnat := UInt64.toNat_sub_of_le _ _ (UInt64.not_lt.mp hheld)
  have hc : Closed p.capacity { p.totals with
      protectedCredits := p.totals.protectedCredits - n } :=
    ⟨hclosed.returned, hclosed.reserved, by simp only; omega⟩
  refine commit_refines hok ?_ hc ?_
  · simp only [BucketMachine.refusal, hzero, hheld', if_false]
  · rw [machine_of_closed hc, hmachine]
    simp only [BucketMachine.move, BucketMachine.mk.injEq, hnat, and_true]
    omega

/-- `retireStale` against its machine. -/
theorem retireStale_refines (n : UInt64) : Refines p (.retireStale n) (p.retireStale n) := by
  have hmachine := machine_of_closed hclosed
  have hroom_iff : p.view.outstanding < n ↔ p.machine.outstanding < n.toNat :=
    UInt64.lt_iff_toNat_lt
  have hreserved := hclosed.reserved
  have hissued := p.totals.issued.toNat_lt
  unfold retireStale
  simp only [hok, Bool.not_true, Bool.false_eq_true, if_false, addOverflow, decide_eq_true_eq]
  refine .guard (fun hzero => ?_) (by decide) fun hzero => ?_
  · simp only [BucketMachine.refusal, hzero, if_true]
  refine .guard (fun hroom => ?_) (by decide) fun hroom => ?_
  · simp only [BucketMachine.refusal, hzero, hroom_iff.mp hroom, if_true, if_false]
  have hroom' := mt hroom_iff.mpr hroom
  have hfits : n.toNat + (p.totals.spent.toNat + p.totals.stale.toNat) ≤
      p.totals.issued.toNat - p.totals.returned.toNat := by
    rw [hmachine] at hroom'
    simp only at hroom'
    omega
  refine .guard (fun hover => ?_) (by decide) fun hover => ?_
  · have := add_lt_self_iff.mp hover
    omega
  have hnat := toNat_add_of_fits hover
  have hc : Closed p.capacity { p.totals with stale := p.totals.stale + n } :=
    ⟨hclosed.returned, by simp only; omega, hclosed.claimed⟩
  refine commit_refines hok ?_ hc ?_
  · simp only [BucketMachine.refusal, hzero, hroom', if_false]
  · rw [machine_of_closed hc, hmachine]
    simp only [BucketMachine.move, BucketMachine.mk.injEq, hnat, and_true, true_and]
    omega

/-- `quarantineInFlight` against its machine. -/
theorem quarantineInFlight_refines :
    Refines p .quarantineInFlight p.quarantineInFlight := by
  have hmachine := machine_of_closed hclosed
  have hview : ExactView p.capacity p.totals p.view := computeView_of_closed hclosed
  have hreserved := hclosed.reserved
  have hissued := p.totals.issued.toNat_lt
  have hin := hview.inFlight
  have hamount := UInt64.toNat_sub_of_le _ _ hview.stale_le
  rw [hview.stale] at hamount
  have hzero : (0 : UInt64).toNat = 0 := rfl
  unfold quarantineInFlight
  simp only [hok, Bool.not_true, Bool.false_eq_true, if_false, addOverflow, decide_eq_true_eq,
    hview.stale]
  generalize p.view.inFlight - p.totals.stale = amount at hamount
  by_cases hnone : amount = 0
  · -- nothing is outstanding or spent
    rw [if_pos hnone]
    rw [hnone] at hamount
    refine .moved p rfl rfl hclosed ?_
    rw [hmachine]
    simp only [BucketMachine.move, BucketMachine.mk.injEq, and_true, true_and]
    omega
  rw [if_neg hnone]
  refine .guard (fun hover => ?_) (by decide) fun hover => ?_
  · have := add_lt_self_iff.mp hover
    omega
  have hnat := toNat_add_of_fits hover
  have hc : Closed p.capacity { p.totals with spent := 0, stale := p.totals.stale + amount } :=
    ⟨hclosed.returned, by simp only; omega, hclosed.claimed⟩
  refine commit_refines hok rfl hc ?_
  rw [machine_of_closed hc, hmachine]
  simp only [BucketMachine.move, BucketMachine.mk.injEq, hnat, and_true, true_and]
  omega

/-- `revalidateToReturned` against its machine. -/
theorem revalidateToReturned_refines (n : UInt64) :
    Refines p (.revalidateToReturned n) (p.revalidateToReturned n) := by
  have hmachine := machine_of_closed hclosed
  have hstale_iff : p.totals.stale < n ↔ p.machine.stale < n.toNat := by
    rw [hmachine]
    exact UInt64.lt_iff_toNat_lt
  have hreturned := hclosed.returned
  have hreserved := hclosed.reserved
  have hclaimed := hclosed.claimed
  have hissued := p.totals.issued.toNat_lt
  unfold revalidateToReturned
  simp only [hok, Bool.not_true, Bool.false_eq_true, if_false, addOverflow, decide_eq_true_eq]
  refine .guard (fun hzero => ?_) (by decide) fun hzero => ?_
  · simp only [BucketMachine.refusal, hzero, if_true]
  refine .guard (fun hheld => ?_) (by decide) fun hheld => ?_
  · simp only [BucketMachine.refusal, hzero, hstale_iff.mp hheld, if_true, if_false]
  have hle : n.toNat ≤ p.totals.stale.toNat :=
    UInt64.le_iff_toNat_le.mp (UInt64.not_lt.mp hheld)
  refine .guard (fun hover => ?_) (by decide) fun hover => ?_
  · have := add_lt_self_iff.mp hover
    omega
  have hnat := toNat_add_of_fits hover
  have hstaleNat := UInt64.toNat_sub_of_le _ _ (UInt64.not_lt.mp hheld)
  have hc : Closed p.capacity { p.totals with
      stale := p.totals.stale - n, returned := p.totals.returned + n } :=
    ⟨by simp only; omega, by simp only; omega, by simp only; omega⟩
  refine commit_refines hok ?_ hc ?_
  · simp only [BucketMachine.refusal, hzero, mt hstale_iff.mpr hheld, if_false]
  · rw [machine_of_closed hc, hmachine]
    simp only [BucketMachine.move, BucketMachine.mk.injEq, hnat, hstaleNat, and_true, true_and]
    omega

/-- `revalidateToConsumed` against its machine. -/
theorem revalidateToConsumed_refines (n : UInt64) :
    Refines p (.revalidateToConsumed n) (p.revalidateToConsumed n) := by
  have hmachine := machine_of_closed hclosed
  have hstale_iff : p.totals.stale < n ↔ p.machine.stale < n.toNat := by
    rw [hmachine]
    exact UInt64.lt_iff_toNat_lt
  have hconsumed : p.machine.consumed = p.totals.consumed.toNat := by rw [hmachine]
  have hreserved := hclosed.reserved
  have hissued := p.totals.issued.toNat_lt
  unfold revalidateToConsumed
  simp only [hok, Bool.not_true, Bool.false_eq_true, if_false, addOverflow, decide_eq_true_eq]
  -- zero credit, too little held, and the two sums that may overflow
  refine .guard (fun hzero => ?_) (by decide) fun hzero => ?_
  · simp only [BucketMachine.refusal, hzero, if_true]
  refine .guard (fun hheld => ?_) (by decide) fun hheld => ?_
  · simp only [BucketMachine.refusal, hzero, hstale_iff.mp hheld, if_true, if_false]
  have hle : n.toNat ≤ p.totals.stale.toNat :=
    UInt64.le_iff_toNat_le.mp (UInt64.not_lt.mp hheld)
  refine .guard (fun hover => ?_) (by decide) fun hspent => ?_
  · have := add_lt_self_iff.mp hover
    omega
  refine .guard (fun hover => ?_) (by decide) fun hover => ?_
  · simp only [BucketMachine.refusal, hzero, mt hstale_iff.mpr hheld, hconsumed,
      add_lt_self_iff.mp hover, if_true, if_false]
  have hspentNat := toNat_add_of_fits hspent
  have hconsumedNat := toNat_add_of_fits hover
  have hstaleNat := UInt64.toNat_sub_of_le _ _ (UInt64.not_lt.mp hheld)
  have hc : Closed p.capacity { p.totals with
      stale := p.totals.stale - n, spent := p.totals.spent + n,
      consumed := p.totals.consumed + n } :=
    ⟨hclosed.returned, by simp only; omega, hclosed.claimed⟩
  refine commit_refines hok ?_ hc ?_
  · simp only [BucketMachine.refusal, hzero, mt hstale_iff.mpr hheld, hconsumed,
      mt add_lt_self_iff.mpr hover, if_false]
  · rw [machine_of_closed hc, hmachine]
    simp only [BucketMachine.move, BucketMachine.mk.injEq, hspentNat, hconsumedNat, hstaleNat,
      and_true, true_and]
    omega

/-- `setCapacity` against its machine. -/
theorem setCapacity_refines (n limit : UInt64) (allowGrowth : Bool) :
    Refines p (.setCapacity n limit allowGrowth) (p.setCapacity n limit allowGrowth) := by
  have hmachine := machine_of_closed hclosed
  have hcapacity := capacity_machine hclosed
  have hreserved := hclosed.reserved
  have hclaimed := hclosed.claimed
  have hcap := p.capacity.toNat_lt
  have hgrow_iff : (n > p.capacity ∧ (!allowGrowth) = true) ↔
      (p.machine.capacity < n.toNat ∧ allowGrowth = false) := by
    rw [hcapacity, gt_iff_lt, UInt64.lt_iff_toNat_lt, Bool.not_eq_true']
  have hobligations : p.machine.obligations =
      p.totals.protectedCredits.toNat + (p.totals.issued.toNat - p.totals.returned.toNat) := by
    rw [hmachine]
    simp only [BucketMachine.obligations]
    omega
  -- the floor does not saturate, because the claim is below the capacity
  have hfloor : p.obligationFloor.toNat = p.machine.obligations := by
    have hle : p.totals.returned ≤ p.totals.issued := UInt64.le_iff_toNat_le.mpr hclosed.returned
    unfold obligationFloor
    simp only [hle, if_true]
    rw [toNat_saturatingAdd, hclosed.toNat_inFlight, hobligations]
    rw [hclosed.toNat_inFlight]
    omega
  have hfloor_iff : n < p.obligationFloor ↔ n.toNat < p.machine.obligations := by
    rw [UInt64.lt_iff_toNat_lt, hfloor]
  unfold setCapacity
  simp only [hok, Bool.not_true, Bool.false_eq_true, if_false]
  refine .guard (fun hzero => ?_) (by decide) fun hzero => ?_
  · simp only [BucketMachine.refusal, hzero, if_true]
  refine .guard (fun hlimit => ?_) (by decide) fun hlimit => ?_
  · simp only [BucketMachine.refusal, hzero, gt_iff_lt.mp hlimit, if_true, if_false]
  refine .guard (fun hgrow => ?_) (by decide) fun hgrow => ?_
  · simp only [BucketMachine.refusal, hzero, mt gt_iff_lt.mpr hlimit, if_false]
    exact if_pos (hgrow_iff.mp hgrow)
  refine .guard (fun hbelow => ?_) (by decide) fun hbelow => ?_
  · simp only [BucketMachine.refusal, hzero, mt gt_iff_lt.mpr hlimit, mt hgrow_iff.mpr hgrow,
      hfloor_iff.mp hbelow, if_true, if_false]
  have hbelow' := mt hfloor_iff.mpr hbelow
  have hc : Closed n p.totals := ⟨hclosed.returned, hreserved, by omega⟩
  refine .moved { p with capacity := n } ?_ rfl hc ?_
  · simp only [BucketMachine.refusal, hzero, mt gt_iff_lt.mpr hlimit, mt hgrow_iff.mpr hgrow,
      hbelow', if_false]
  · rw [machine_of_closed (p := { p with capacity := n }) hc]
    simp only [BucketMachine.move, hobligations]
    rw [hmachine]
    simp only [BucketMachine.mk.injEq, and_true]
    omega

/-- **Step lemma.**  Every mutator of a closed plan refines the machine. -/
theorem mutate_refines (u : Mutator) : Refines p u (p.mutate u) := by
  cases u with
  | issue n lo hi => exact issue_refines hok hclosed n lo hi
  | consume n => exact consume_refines hok hclosed n
  | giveBack n => exact giveBack_refines hok hclosed n
  | protect n allowed => exact protect_refines hok hclosed n allowed
  | unprotect n => exact unprotect_refines hok hclosed n
  | retireStale n => exact retireStale_refines hok hclosed n
  | quarantineInFlight => exact quarantineInFlight_refines hok hclosed
  | revalidateToReturned n => exact revalidateToReturned_refines hok hclosed n
  | revalidateToConsumed n => exact revalidateToConsumed_refines hok hclosed n
  | setCapacity n limit allowGrowth => exact setCapacity_refines hok hclosed n limit allowGrowth

end Mutators

/-- A refused plan is poisoned: every mutator fails and changes nothing. -/
theorem mutate_of_refused (hrefused : p.status.ok = false) (u : Mutator) :
    p.mutate u = (false, p) := by
  cases u <;> simp only [mutate, issue, consume, giveBack, protect, unprotect, retireStale,
    quarantineInFlight, revalidateToReturned, revalidateToConsumed, setCapacity, hrefused,
    Bool.not_false, if_true]

/-- One mutator of a plan that is closed, refused or not. -/
theorem mutate_step (hclosed : Closed p.capacity p.totals) (u : Mutator) :
    (p.mutate u).1 = (p.bucketRun.step u).1 ∧
      (p.mutate u).2.bucketRun = (p.bucketRun.step u).2 ∧
      Closed (p.mutate u).2.capacity (p.mutate u).2.totals ∧
      ((p.mutate u).1 = false →
        (p.mutate u).2.capacity = p.capacity ∧ (p.mutate u).2.totals = p.totals) := by
  -- a plan that was refused stays refused, and so does the machine
  cases hok : p.status.ok with
  | false =>
    rw [mutate_of_refused hok]
    have hrun : p.bucketRun.refused = some p.status.reason := by
      simp only [bucketRun, hok, Bool.false_eq_true, if_false]
    have hstep : p.bucketRun.step u = (false, p.bucketRun) := by
      unfold BucketRun.step
      rw [hrun]
    rw [hstep]
    exact ⟨rfl, rfl, hclosed, fun _ => ⟨rfl, rfl⟩⟩
  | true =>
    have hrun : p.bucketRun.refused = none := by
      simp only [bucketRun, hok, if_true]
    have hrefines := mutate_refines hok hclosed u
    generalize p.mutate u = result at hrefines ⊢
    unfold BucketRun.step
    rw [hrun]
    -- the machine permits what the plan does
    cases hrefines with
    | moved p' permitted status closed machine =>
      have hpermitted : p.bucketRun.machine.refusal u = none := permitted
      simp only [hpermitted, true_and]
      refine ⟨?_, closed, nofun⟩
      simp only [bucketRun, status, machine, hok, if_true]
    | refused reason detail refusal h =>
      have hrefusal : p.bucketRun.machine.refusal u = some reason := refusal
      simp only [hrefusal, refuse, true_and]
      refine ⟨?_, hclosed, fun _ => trivial⟩
      have hfailed : (Status.refused reason detail).ok = false := by
        show (reason == Reason.ok) = false
        simpa using h
      simp only [bucketRun, hfailed, Bool.false_eq_true, if_false]
      rfl

/-- **The ledger refines the bucket machine.**  Along every sequence of mutators the plan and
    the machine agree on what succeeds, on the buckets, on the counters and on the reason of
    the first refusal; a failed mutator leaves capacity and totals alone, and behind a refusal
    nothing happens any more. -/
theorem mutateAll_refines (capacity : UInt64) (totals : CreditTotals)
    (h : (checkInvariants capacity totals).ok = true) (us : List Mutator) :
    let p := (start capacity totals).mutateAll us
    p.bucketRun = (start capacity totals).bucketRun.steps us ∧
      (start capacity totals).bucketRun.refused = none ∧
      p.machine.capacity = p.capacity.toNat ∧
      ∀ u, (p.mutate u).1 = (p.bucketRun.step u).1 ∧
        (p.mutate u).2.bucketRun = (p.bucketRun.step u).2 ∧
        ((p.mutate u).1 = false →
          (p.mutate u).2.capacity = p.capacity ∧ (p.mutate u).2.totals = p.totals ∧
          ∀ u', (p.mutate u).2.mutate u' = (false, (p.mutate u).2)) := by
  have hstart : Closed (start capacity totals).capacity (start capacity totals).totals :=
    (checkInvariants_ok_iff _ _).mp h
  have hrun : ∀ p : LedgerPlan, Closed p.capacity p.totals → ∀ us,
      (p.mutateAll us).bucketRun = p.bucketRun.steps us ∧
        Closed (p.mutateAll us).capacity (p.mutateAll us).totals := by
    intro p hp us
    induction us generalizing p with
    | nil => exact ⟨rfl, hp⟩
    | cons u us ih =>
      obtain ⟨-, hbuckets, hclosed, -⟩ := mutate_step hp u
      obtain ⟨hagree, hend⟩ := ih (p.mutate u).2 hclosed
      refine ⟨?_, hend⟩
      show ((p.mutate u).2.mutateAll us).bucketRun = (p.bucketRun.step u).2.steps us
      rw [hagree, hbuckets]
  obtain ⟨hagree, hclosed⟩ := hrun _ hstart us
  refine ⟨hagree, ?_, capacity_machine hclosed, fun u => ?_⟩
  · show (if (checkInvariants capacity totals).ok then none else _) = none
    rw [if_pos h]
  · obtain ⟨hresult, hbuckets, -, hunchanged⟩ := mutate_step hclosed u
    refine ⟨hresult, hbuckets, fun hfailed => ?_⟩
    obtain ⟨hcapacity, htotals⟩ := hunchanged hfailed
    refine ⟨hcapacity, htotals, mutate_of_refused ?_⟩
    -- a mutator fails only behind a refusal
    cases hok : ((start capacity totals).mutateAll us).status.ok with
    | false => rw [mutate_of_refused hok, hok]
    | true =>
      have hrefines := mutate_refines hok hclosed u
      generalize ((start capacity totals).mutateAll us).mutate u = result at hrefines hfailed ⊢
      cases hrefines with
      | moved => exact absurd hfailed (by simp)
      | refused reason detail _ hreason =>
        show (reason == Reason.ok) = false
        simpa using hreason

/-- A run from a new account of capacity four, with a refusal in it. -/
theorem fourCredits_refine :
    let p := (start 4 {}).mutateAll [.issue 3 1 8, .consume 2, .consume 2, .giveBack 1]
    p.bucketRun = (start 4 {}).bucketRun.steps
      [.issue 3 1 8, .consume 2, .consume 2, .giveBack 1] :=
  (mutateAll_refines 4 {} (by decide) _).1

end LedgerPlan

end CreditFabric
