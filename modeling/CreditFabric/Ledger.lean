import CreditFabric.Strong

namespace CreditFabric

/-!
# Credit accounting core

`CreditTotals` is the committed counter state of one account, `computeView` derives the
explainable view and `checkInvariants` verifies the two closure invariants.  A `LedgerPlan`
stages one mutation: each mutator checks its guard, builds a candidate and publishes it only
if the candidate satisfies the invariants.  A refused mutation keeps capacity and totals and
latches the refusal in `status`, which makes every later mutator of the same plan fail.
-/

/-! ### Checked arithmetic -/

/-- `add_overflow`: the wrapped sum, and whether it wrapped. -/
def addOverflow (a b : UInt64) : Bool × UInt64 := (decide (a + b < a), a + b)

/-- `saturating_add`. -/
def saturatingAdd (a b : UInt64) : UInt64 :=
  if b > 0xFFFFFFFFFFFFFFFF - a then 0xFFFFFFFFFFFFFFFF else a + b

/-! ### Totals and view -/

/-- Committed counter state of one credit account. -/
structure CreditTotals where
  issued : UInt64 := 0
  consumed : UInt64 := 0
  returned : UInt64 := 0
  stale : UInt64 := 0
  spent : UInt64 := 0
  protectedCredits : UInt64 := 0
deriving DecidableEq, Repr, Inhabited

/-- Derived, explainable view of an account at one instant. -/
structure CreditView where
  capacity : UInt64 := 0
  issued : UInt64 := 0
  consumed : UInt64 := 0
  returned : UInt64 := 0
  stale : UInt64 := 0
  spent : UInt64 := 0
  protectedCredits : UInt64 := 0
  inFlight : UInt64 := 0
  outstanding : UInt64 := 0
  quarantined : UInt64 := 0
  available : UInt64 := 0
  closed : Bool := false
deriving DecidableEq, Repr, Inhabited

/-- Recomputes every derived field with checked arithmetic.  Each early return of the source
    keeps the fields derived before it and leaves `closed` false. -/
def fillDerived (view : CreditView) : CreditView :=
  let view := { view with closed := false }
  if view.returned > view.issued then view else
  let view := { view with inFlight := view.issued - view.returned }
  let (overflow, reserved) := addOverflow view.spent view.stale
  if overflow then view else
  if reserved > view.inFlight then view else
  let view := { view with outstanding := view.inFlight - reserved, quarantined := view.stale }
  let (overflow, claimed) := addOverflow view.protectedCredits view.inFlight
  if overflow then view else
  if claimed > view.capacity then view else
  { view with available := view.capacity - claimed, closed := true }

/-- Derives the view; an account that cannot be reconciled is reported with saturated
    derived fields. -/
def computeView (capacity : UInt64) (totals : CreditTotals) : CreditView :=
  let view := fillDerived
    { capacity, issued := totals.issued, consumed := totals.consumed,
      returned := totals.returned, stale := totals.stale, spent := totals.spent,
      protectedCredits := totals.protectedCredits }
  if view.closed then view
  else { view with inFlight := 0, outstanding := 0, quarantined := view.stale, available := 0 }

/-- Verifies both closure invariants with checked arithmetic. -/
def checkInvariants (capacity : UInt64) (totals : CreditTotals) : Status :=
  if totals.returned > totals.issued then .refused .invalidState 4 else
  let inFlight := totals.issued - totals.returned
  let (overflow, reserved) := addOverflow totals.spent totals.stale
  if overflow then .refused .countOverflow 3 else
  if reserved > inFlight then .refused .invalidState 3 else
  let (overflow, claimed) := addOverflow totals.protectedCredits inFlight
  if overflow then .refused .countOverflow 5 else
  if claimed > capacity then .refused .invalidState 6 else
  .success

/-! ### The plan -/

/-- Stages one authoritative mutation. -/
structure LedgerPlan where
  capacity : UInt64
  totals : CreditTotals
  status : Status
deriving DecidableEq, Repr

namespace LedgerPlan

/-- The constructor: the starting status is the invariant check of the current totals. -/
def start (capacity : UInt64) (current : CreditTotals) : LedgerPlan :=
  { capacity, totals := current, status := checkInvariants capacity current }

/-- `LedgerPlan::view`. -/
def view (p : LedgerPlan) : CreditView := computeView p.capacity p.totals

/-- `LedgerPlan::obligation_floor`: what a capacity must not fall below. -/
def obligationFloor (p : LedgerPlan) : UInt64 :=
  let inFlight :=
    if p.totals.returned ≤ p.totals.issued then p.totals.issued - p.totals.returned else 0
  saturatingAdd p.totals.protectedCredits inFlight

/-- Latches a refusal; every mutator reports it as `false`. -/
def refuse (p : LedgerPlan) (reason : Reason) (detail : UInt64 := 0) : Bool × LedgerPlan :=
  (false, { p with status := .refused reason detail })

/-- `LedgerPlan::commit`: the counters become the candidate if its invariants hold. -/
def commit (p : LedgerPlan) (candidate : CreditTotals) : Bool × LedgerPlan :=
  if !p.status.ok then (false, p) else
  let verdict := checkInvariants p.capacity candidate
  if !verdict.ok then (false, { p with status := verdict }) else
  (true, { p with totals := candidate })

/-- Moves credits from available to outstanding. -/
def issue (p : LedgerPlan) (count minIssue maxIssue : UInt64) : Bool × LedgerPlan :=
  if !p.status.ok then (false, p) else
  if count = 0 then p.refuse .countZero else
  if count < minIssue ∨ count > maxIssue then p.refuse .policyRefused count else
  if p.view.available < count then p.refuse .insufficientAvailable p.view.available else
  let (overflow, issued) := addOverflow p.totals.issued count
  if overflow then p.refuse .countOverflow issued else
  p.commit { p.totals with issued }

/-- Spends outstanding credits; they stay in flight until returned. -/
def consume (p : LedgerPlan) (count : UInt64) : Bool × LedgerPlan :=
  if !p.status.ok then (false, p) else
  if count = 0 then p.refuse .countZero else
  if p.view.outstanding < count then
    p.refuse .insufficientOutstanding p.view.outstanding
  else
  let (overflow, spent) := addOverflow p.totals.spent count
  if overflow then p.refuse .countOverflow spent else
  let (overflow, consumed) := addOverflow p.totals.consumed count
  if overflow then p.refuse .countOverflow consumed else
  p.commit { p.totals with spent, consumed }

/-- Hands in-flight credits back to the pool, spent credits first. -/
def giveBack (p : LedgerPlan) (count : UInt64) : Bool × LedgerPlan :=
  if !p.status.ok then (false, p) else
  if count = 0 then p.refuse .countZero else
  let current := p.view
  let returnable := current.inFlight - current.stale
  if current.inFlight < count ∨ returnable < count then
    p.refuse .insufficientOutstanding returnable
  else
  let fromSpent := if p.totals.spent < count then p.totals.spent else count
  let spent := p.totals.spent - fromSpent
  let (overflow, returned) := addOverflow p.totals.returned count
  if overflow then p.refuse .countOverflow returned else
  p.commit { p.totals with spent, returned }

/-- Reserves available credits so they cannot be issued. -/
def protect (p : LedgerPlan) (count : UInt64) (allowed : Bool) : Bool × LedgerPlan :=
  if !p.status.ok then (false, p) else
  if !allowed then p.refuse .policyRefused 0 else
  if count = 0 then p.refuse .countZero else
  if p.view.available < count then p.refuse .insufficientAvailable p.view.available else
  let (overflow, protectedCredits) := addOverflow p.totals.protectedCredits count
  if overflow then p.refuse .countOverflow protectedCredits else
  p.commit { p.totals with protectedCredits }

/-- Releases reserved credits back to the pool. -/
def unprotect (p : LedgerPlan) (count : UInt64) : Bool × LedgerPlan :=
  if !p.status.ok then (false, p) else
  if count = 0 then p.refuse .countZero else
  if p.totals.protectedCredits < count then
    p.refuse .insufficientProtected p.totals.protectedCredits
  else
  p.commit { p.totals with protectedCredits := p.totals.protectedCredits - count }

/-- Quarantines outstanding credits without advancing the era. -/
def retireStale (p : LedgerPlan) (count : UInt64) : Bool × LedgerPlan :=
  if !p.status.ok then (false, p) else
  if count = 0 then p.refuse .countZero else
  if p.view.outstanding < count then
    p.refuse .insufficientOutstanding p.view.outstanding
  else
  let (overflow, stale) := addOverflow p.totals.stale count
  if overflow then p.refuse .countOverflow stale else
  p.commit { p.totals with stale }

/-- Quarantines every in-flight credit: the authority-advance transition. -/
def quarantineInFlight (p : LedgerPlan) : Bool × LedgerPlan :=
  if !p.status.ok then (false, p) else
  let current := p.view
  let amount := current.inFlight - current.stale
  if amount = 0 then (true, p) else
  let (overflow, stale) := addOverflow p.totals.stale amount
  if overflow then p.refuse .countOverflow stale else
  p.commit { p.totals with spent := 0, stale }

/-- Revalidates quarantined credits as handed back. -/
def revalidateToReturned (p : LedgerPlan) (count : UInt64) : Bool × LedgerPlan :=
  if !p.status.ok then (false, p) else
  if count = 0 then p.refuse .countZero else
  if p.totals.stale < count then p.refuse .nothingToRetire p.totals.stale else
  let (overflow, returned) := addOverflow p.totals.returned count
  if overflow then p.refuse .countOverflow returned else
  p.commit { p.totals with stale := p.totals.stale - count, returned }

/-- Revalidates quarantined credits as spent; they keep occupying capacity. -/
def revalidateToConsumed (p : LedgerPlan) (count : UInt64) : Bool × LedgerPlan :=
  if !p.status.ok then (false, p) else
  if count = 0 then p.refuse .countZero else
  if p.totals.stale < count then p.refuse .nothingToRetire p.totals.stale else
  let (overflow, spent) := addOverflow p.totals.spent count
  if overflow then p.refuse .countOverflow spent else
  let (overflow, consumed) := addOverflow p.totals.consumed count
  if overflow then p.refuse .countOverflow consumed else
  p.commit { p.totals with stale := p.totals.stale - count, spent, consumed }

/-- Changes capacity subject to the obligation floor `protected + in_flight`. -/
def setCapacity (p : LedgerPlan) (newCapacity maxCapacity : UInt64) (allowGrowth : Bool) :
    Bool × LedgerPlan :=
  if !p.status.ok then (false, p) else
  if newCapacity = 0 then p.refuse .capacityOutOfRange 0 else
  if newCapacity > maxCapacity then p.refuse .capacityExceeded maxCapacity else
  if newCapacity > p.capacity ∧ !allowGrowth then p.refuse .policyRefused p.capacity else
  let floor := p.obligationFloor
  if newCapacity < floor then p.refuse .capacityShrinkViolation floor else
  (true, { p with capacity := newCapacity })

end LedgerPlan

end CreditFabric
