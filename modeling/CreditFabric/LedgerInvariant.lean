import CreditFabric.Ledger

namespace CreditFabric

/-!
# Closure of the ledger

`Closed capacity totals` states the accounting invariants over unbounded integers.  The
checked 64-bit arithmetic of the source decides exactly this (`checkInvariants_ok_iff`), the
derived view is then exact in every field (`computeView_of_closed`), and every mutator of a
`LedgerPlan` that succeeds ends in a closed state, because it publishes a candidate only
behind the check.
-/

/-! ### Checked arithmetic -/

/-- A sum that fits is the sum. -/
theorem addOverflow_of_lt {a b : UInt64} (h : a.toNat + b.toNat < 2 ^ 64) :
    addOverflow a b = (false, a + b) ∧ (a + b).toNat = a.toNat + b.toNat := by
  have hadd : (a + b).toNat = a.toNat + b.toNat := by
    rw [UInt64.toNat_add]
    omega
  have hle : ¬ a + b < a := by
    rw [UInt64.lt_iff_toNat_lt, hadd]
    omega
  exact ⟨by simp [addOverflow, hle], hadd⟩

/-- A sum that does not fit is reported. -/
theorem addOverflow_of_ge {a b : UInt64} (h : 2 ^ 64 ≤ a.toNat + b.toNat) :
    (addOverflow a b).1 = true := by
  have ha := a.toNat_lt
  have hb := b.toNat_lt
  have hlt : a + b < a := by
    rw [UInt64.lt_iff_toNat_lt, UInt64.toNat_add]
    omega
  simp [addOverflow, hlt]

/-! ### The invariants -/

/-- The accounting invariants, over unbounded integers. -/
structure Closed (capacity : UInt64) (t : CreditTotals) : Prop where
  returned : t.returned.toNat ≤ t.issued.toNat
  reserved : t.spent.toNat + t.stale.toNat ≤ t.issued.toNat - t.returned.toNat
  claimed : t.protectedCredits.toNat + (t.issued.toNat - t.returned.toNat) ≤ capacity.toNat

/-- The credits in flight, as the 64-bit word of the source. -/
theorem Closed.toNat_inFlight {capacity : UInt64} {t : CreditTotals} (h : Closed capacity t) :
    (t.issued - t.returned).toNat = t.issued.toNat - t.returned.toNat := by
  rw [UInt64.toNat_sub_of_le]
  exact UInt64.le_iff_toNat_le.mpr h.returned

/-- The checked arithmetic of `check_invariants` decides closure exactly. -/
theorem checkInvariants_ok_iff (capacity : UInt64) (t : CreditTotals) :
    (checkInvariants capacity t).ok = true ↔ Closed capacity t := by
  unfold checkInvariants
  have hcap := capacity.toNat_lt
  have hissued := t.issued.toNat_lt
  -- the checks in the order of the source, each without wrap-around
  by_cases hret : t.returned > t.issued
  · simp only [hret, if_true]
    refine iff_of_false (by decide) fun h => ?_
    have := h.returned
    rw [gt_iff_lt, UInt64.lt_iff_toNat_lt] at hret
    omega
  rw [if_neg hret]
  rw [gt_iff_lt, UInt64.lt_iff_toNat_lt, Nat.not_lt] at hret
  have hin : (t.issued - t.returned).toNat = t.issued.toNat - t.returned.toNat := by
    rw [UInt64.toNat_sub_of_le]
    exact UInt64.le_iff_toNat_le.mpr hret
  by_cases hover : 2 ^ 64 ≤ t.spent.toNat + t.stale.toNat
  · have hflag := addOverflow_of_ge hover
    simp only [addOverflow] at hflag ⊢
    simp only [hflag, if_true]
    refine iff_of_false (by decide) fun h => ?_
    have := h.reserved
    omega
  obtain ⟨hsum, hreserved⟩ := addOverflow_of_lt (Nat.not_le.mp hover)
  simp only [hsum, Bool.false_eq_true, if_false]
  by_cases hres : t.spent + t.stale > t.issued - t.returned
  · simp only [hres, if_true]
    refine iff_of_false (by decide) fun h => ?_
    have := h.reserved
    rw [gt_iff_lt, UInt64.lt_iff_toNat_lt, hreserved, hin] at hres
    omega
  rw [if_neg hres]
  rw [gt_iff_lt, UInt64.lt_iff_toNat_lt, hreserved, hin, Nat.not_lt] at hres
  by_cases hover' : 2 ^ 64 ≤ t.protectedCredits.toNat + (t.issued - t.returned).toNat
  · have hflag := addOverflow_of_ge hover'
    simp only [addOverflow] at hflag ⊢
    simp only [hflag, if_true]
    refine iff_of_false (by decide) fun h => ?_
    have := h.claimed
    omega
  obtain ⟨hsum', hclaimed⟩ := addOverflow_of_lt (Nat.not_le.mp hover')
  simp only [hsum', Bool.false_eq_true, if_false]
  by_cases hcl : t.protectedCredits + (t.issued - t.returned) > capacity
  · simp only [hcl, if_true]
    refine iff_of_false (by decide) fun h => ?_
    have := h.claimed
    rw [gt_iff_lt, UInt64.lt_iff_toNat_lt, hclaimed, hin] at hcl
    omega
  · rw [if_neg hcl]
    rw [gt_iff_lt, UInt64.lt_iff_toNat_lt, hclaimed, hin, Nat.not_lt] at hcl
    exact iff_of_true rfl ⟨hret, hres, hcl⟩

/-! ### The view -/

/-- The view of a closed account: it is reported closed, and its derived fields are the exact
    differences. -/
structure ExactView (cap : UInt64) (t : CreditTotals) (v : CreditView) : Prop where
  closed : v.closed = true
  stale : v.stale = t.stale
  inFlight : v.inFlight.toNat + t.returned.toNat = t.issued.toNat
  outstanding : v.inFlight.toNat = v.outstanding.toNat + t.spent.toNat + t.stale.toNat
  available : cap.toNat = v.available.toNat + t.protectedCredits.toNat + v.inFlight.toNat
  quarantined : v.quarantined = t.stale

/-- The view of closed counters is exact. -/
theorem computeView_of_closed {capacity : UInt64} {t : CreditTotals} (h : Closed capacity t) :
    ExactView capacity t (computeView capacity t) := by
  have hcap := capacity.toNat_lt
  have hissued := t.issued.toNat_lt
  have hin := h.toNat_inFlight
  have hret : ¬ t.returned > t.issued := by
    rw [gt_iff_lt, UInt64.lt_iff_toNat_lt]
    have := h.returned
    omega
  have hreserved := h.reserved
  have hclaimed := h.claimed
  obtain ⟨hsum, hsumNat⟩ := addOverflow_of_lt (a := t.spent) (b := t.stale) (by omega)
  obtain ⟨hsum', hsumNat'⟩ := addOverflow_of_lt (a := t.protectedCredits)
    (b := t.issued - t.returned) (by omega)
  have hres : ¬ t.spent + t.stale > t.issued - t.returned := by
    rw [gt_iff_lt, UInt64.lt_iff_toNat_lt]
    omega
  have hcl : ¬ t.protectedCredits + (t.issued - t.returned) > capacity := by
    rw [gt_iff_lt, UInt64.lt_iff_toNat_lt]
    omega
  -- no check of the source fails, so the derived fields are the differences
  unfold computeView fillDerived
  simp only [hret, hsum, hsum', hres, hcl, Bool.false_eq_true, if_false, if_true]
  have hreturned := h.returned
  refine ⟨rfl, rfl, ?_, ?_, ?_, rfl⟩
  · show (t.issued - t.returned).toNat + _ = _
    omega
  · have hsub : (t.issued - t.returned - (t.spent + t.stale)).toNat =
        (t.issued - t.returned).toNat - (t.spent + t.stale).toNat :=
      UInt64.toNat_sub_of_le _ _ (UInt64.le_iff_toNat_le.mpr (by omega))
    show (t.issued - t.returned).toNat =
      (t.issued - t.returned - (t.spent + t.stale)).toNat + _ + _
    omega
  · show _ = (capacity - (t.protectedCredits + (t.issued - t.returned))).toNat + _ +
      (t.issued - t.returned).toNat
    rw [UInt64.toNat_sub_of_le _ _ (UInt64.le_iff_toNat_le.mpr (by omega))]
    omega

/-- `give_back`, `quarantine_in_flight` and the Fence record subtract the stale credits from
    those in flight without a guard of their own; the difference is exact. -/
theorem ExactView.stale_le {cap : UInt64} {t : CreditTotals} {v : CreditView}
    (h : ExactView cap t v) : v.stale ≤ v.inFlight := by
  have hout := h.outstanding
  rw [UInt64.le_iff_toNat_le, h.stale]
  omega

/-- Every view repeats the capacity and the counters it is derived from. -/
theorem computeView_eq (capacity : UInt64) (t : CreditTotals) :
    computeView capacity t =
      { capacity, issued := t.issued, consumed := t.consumed, returned := t.returned,
        stale := t.stale, spent := t.spent, protectedCredits := t.protectedCredits,
        inFlight := (computeView capacity t).inFlight,
        outstanding := (computeView capacity t).outstanding,
        quarantined := (computeView capacity t).quarantined,
        available := (computeView capacity t).available,
        closed := (computeView capacity t).closed } := by
  unfold computeView fillDerived
  simp only
  split_ifs <;> rfl

/-- Every view reports the stale credits as quarantined, reconciled or not. -/
theorem quarantined_computeView (capacity : UInt64) (t : CreditTotals) :
    (computeView capacity t).quarantined = (computeView capacity t).stale := by
  by_cases h : Closed capacity t
  · have hview := computeView_of_closed h
    rw [hview.quarantined, hview.stale]
  · unfold computeView
    simp only
    split_ifs with hclosed
    · -- a derived view is closed only behind both checks, which set the field
      revert hclosed
      unfold fillDerived
      simp only
      split_ifs <;> simp
    · rfl

/-! ### Mutators -/

namespace LedgerPlan

variable {p p' : LedgerPlan}

/-- A mutator that succeeds ends in a closed state of the same capacity. -/
structure Keeps (p p' : LedgerPlan) : Prop where
  capacity : p'.capacity = p.capacity
  closed : Closed p'.capacity p'.totals

/-- The contract of a mutator: a success is closed, a failure is latched in the status. -/
def Settled (p : LedgerPlan) (result : Bool × LedgerPlan) : Prop :=
  if result.1 then Keeps p result.2 else result.2.status.ok = false

/-- A mutator that succeeds keeps the counters closed. -/
theorem Settled.keeps (h : Settled p (true, p')) : Keeps p p' := h

/-- A plan that has failed stays as it is. -/
theorem settled_failed (h : (!p.status.ok) = true) : Settled p (false, p) := by
  show p.status.ok = false
  simpa using h

/-- A refusal is settled. -/
theorem settled_refuse {reason : Reason} (detail : UInt64) (h : reason ≠ .ok) :
    Settled p (p.refuse reason detail) := by
  show (reason == Reason.ok) = false
  simpa using h

/-- A commit publishes its candidate only behind the invariant check. -/
theorem settled_commit (c : CreditTotals) : Settled p (p.commit c) := by
  unfold commit
  by_cases hstatus : (!p.status.ok) = true
  · rw [if_pos hstatus]
    exact settled_failed hstatus
  · rw [if_neg hstatus]
    cases hverdict : (checkInvariants p.capacity c).ok with
    | false =>
      simp only [hverdict]
      exact hverdict
    | true =>
      simp only [hverdict]
      exact ⟨rfl, (checkInvariants_ok_iff _ _).mp hverdict⟩

/-- `issue` commits closed counters or refuses. -/
theorem issue_settled (count lo hi : UInt64) : Settled p (p.issue count lo hi) := by
  unfold issue
  simp only
  split_ifs with hstatus
  · exact settled_failed hstatus
  · exact settled_refuse _ (by decide)
  · exact settled_refuse _ (by decide)
  · exact settled_refuse _ (by decide)
  · exact settled_refuse _ (by decide)
  · exact settled_commit _

/-- `consume` commits closed counters or refuses. -/
theorem consume_settled (count : UInt64) : Settled p (p.consume count) := by
  unfold consume
  simp only
  split_ifs with hstatus
  · exact settled_failed hstatus
  · exact settled_refuse _ (by decide)
  · exact settled_refuse _ (by decide)
  · exact settled_refuse _ (by decide)
  · exact settled_refuse _ (by decide)
  · exact settled_commit _

/-- `giveBack` commits closed counters or refuses. -/
theorem giveBack_settled (count : UInt64) : Settled p (p.giveBack count) := by
  unfold giveBack
  simp only
  split_ifs with hstatus
  · exact settled_failed hstatus
  · exact settled_refuse _ (by decide)
  · exact settled_refuse _ (by decide)
  · exact settled_refuse _ (by decide)
  · exact settled_commit _
  · exact settled_commit _

/-- `protect` commits closed counters or refuses. -/
theorem protect_settled (count : UInt64) (allowed : Bool) :
    Settled p (p.protect count allowed) := by
  unfold protect
  simp only
  split_ifs with hstatus
  · exact settled_failed hstatus
  · exact settled_refuse _ (by decide)
  · exact settled_refuse _ (by decide)
  · exact settled_refuse _ (by decide)
  · exact settled_refuse _ (by decide)
  · exact settled_commit _

/-- `unprotect` commits closed counters or refuses. -/
theorem unprotect_settled (count : UInt64) : Settled p (p.unprotect count) := by
  unfold unprotect
  split_ifs with hstatus
  · exact settled_failed hstatus
  · exact settled_refuse _ (by decide)
  · exact settled_refuse _ (by decide)
  · exact settled_commit _

/-- `retireStale` commits closed counters or refuses. -/
theorem retireStale_settled (count : UInt64) : Settled p (p.retireStale count) := by
  unfold retireStale
  simp only
  split_ifs with hstatus
  · exact settled_failed hstatus
  · exact settled_refuse _ (by decide)
  · exact settled_refuse _ (by decide)
  · exact settled_refuse _ (by decide)
  · exact settled_commit _

/-- `revalidateToReturned` commits closed counters or refuses. -/
theorem revalidateToReturned_settled (count : UInt64) :
    Settled p (p.revalidateToReturned count) := by
  unfold revalidateToReturned
  simp only
  split_ifs with hstatus
  · exact settled_failed hstatus
  · exact settled_refuse _ (by decide)
  · exact settled_refuse _ (by decide)
  · exact settled_refuse _ (by decide)
  · exact settled_commit _

/-- `revalidateToConsumed` commits closed counters or refuses. -/
theorem revalidateToConsumed_settled (count : UInt64) :
    Settled p (p.revalidateToConsumed count) := by
  unfold revalidateToConsumed
  simp only
  split_ifs with hstatus
  · exact settled_failed hstatus
  · exact settled_refuse _ (by decide)
  · exact settled_refuse _ (by decide)
  · exact settled_refuse _ (by decide)
  · exact settled_refuse _ (by decide)
  · exact settled_commit _

/-- The quarantine of nothing keeps the plan, which was closed when it started. -/
theorem quarantineInFlight_settled (cap : UInt64) (t : CreditTotals) :
    Settled (start cap t) (start cap t).quarantineInFlight := by
  unfold quarantineInFlight
  simp only
  split_ifs with hstatus
  · exact settled_failed hstatus
  · exact ⟨rfl, (checkInvariants_ok_iff _ _).mp (by simpa [start] using hstatus)⟩
  · exact settled_refuse _ (by decide)
  · exact settled_commit _

/-- A saturating sum that fits is the sum. -/
theorem toNat_saturatingAdd {a b : UInt64} (h : a.toNat + b.toNat < 2 ^ 64) :
    (saturatingAdd a b).toNat = a.toNat + b.toNat := by
  have ha := a.toNat_lt
  have hmax : (0xFFFFFFFFFFFFFFFF - a).toNat = 2 ^ 64 - 1 - a.toNat := by
    rw [UInt64.toNat_sub_of_le _ _ (UInt64.le_iff_toNat_le.mpr ?_)]
    · rfl
    · show a.toNat ≤ 2 ^ 64 - 1
      omega
  unfold saturatingAdd
  rw [if_neg, UInt64.toNat_add]
  · omega
  · rw [gt_iff_lt, UInt64.lt_iff_toNat_lt, hmax]
    omega

/-- A new capacity is in range and above the obligation floor, so the totals stay closed. -/
theorem setCapacity_keeps {cap : UInt64} {t : CreditTotals} {newCapacity maxCapacity : UInt64}
    {allowGrowth : Bool}
    (h : (start cap t).setCapacity newCapacity maxCapacity allowGrowth = (true, p')) :
    p'.totals = t ∧ Closed p'.capacity t ∧ 1 ≤ p'.capacity.toNat ∧
      p'.capacity.toNat ≤ maxCapacity.toNat := by
  unfold setCapacity at h
  simp only [refuse] at h
  split_ifs at h with hstatus hzero hmax hgrow hfloor
  · simp at h
  · simp at h
  · simp at h
  · simp at h
  · simp at h
  rw [Prod.mk.injEq] at h
  obtain ⟨-, rfl⟩ := h
  have hclosed : Closed cap t := (checkInvariants_ok_iff _ _).mp (by simpa [start] using hstatus)
  have hin := hclosed.toNat_inFlight
  have hclaimed := hclosed.claimed
  have hcap := cap.toNat_lt
  have hle : t.returned ≤ t.issued := UInt64.le_iff_toNat_le.mpr hclosed.returned
  rw [gt_iff_lt, UInt64.lt_iff_toNat_lt, Nat.not_lt] at hmax
  -- the floor does not saturate, because the claim was below the old capacity
  have hfloorNat : (start cap t).obligationFloor.toNat =
      t.protectedCredits.toNat + (t.issued.toNat - t.returned.toNat) := by
    unfold obligationFloor
    simp only [start, hle, if_true]
    rw [toNat_saturatingAdd, hin]
    omega
  rw [UInt64.lt_iff_toNat_lt, hfloorNat, Nat.not_lt] at hfloor
  refine ⟨rfl, ⟨hclosed.returned, hclosed.reserved, hfloor⟩, ?_, hmax⟩
  have hne : newCapacity.toNat ≠ 0 := fun h0 => hzero (UInt64.toNat_inj.mp h0)
  show 1 ≤ newCapacity.toNat
  omega

/-- The subtractions of the ledger that have no guard in front of them, and those behind one:
    none of them wraps on a closed plan. -/
structure ExactSubtractions (p : LedgerPlan) : Prop where
  inFlight : p.totals.returned ≤ p.totals.issued
  quarantine : p.view.stale ≤ p.view.inFlight
  fromSpent : ∀ count, (if p.totals.spent < count then p.totals.spent else count) ≤
    p.totals.spent
  unprotect : ∀ count p', p.unprotect count = (true, p') → count ≤ p.totals.protectedCredits
  toReturned : ∀ count p', p.revalidateToReturned count = (true, p') → count ≤ p.totals.stale
  toConsumed : ∀ count p', p.revalidateToConsumed count = (true, p') → count ≤ p.totals.stale

/-- With closed counters no subtraction wraps. -/
theorem exactSubtractions_of_closed {cap : UInt64} {t : CreditTotals} (h : Closed cap t) :
    (start cap t).ExactSubtractions where
  inFlight := UInt64.le_iff_toNat_le.mpr h.returned
  quarantine := (computeView_of_closed h).stale_le
  fromSpent count := by
    split_ifs with hlt
    · exact UInt64.le_refl _
    · exact UInt64.not_lt.mp hlt
  unprotect count p' hok := by
    unfold unprotect at hok
    simp only [refuse] at hok
    split_ifs at hok with _ _ hlt
    all_goals first | exact UInt64.not_lt.mp hlt | simp at hok
  toReturned count p' hok := by
    unfold revalidateToReturned at hok
    simp only [refuse] at hok
    split_ifs at hok with _ _ hlt
    all_goals first | exact UInt64.not_lt.mp hlt | simp at hok
  toConsumed count p' hok := by
    unfold revalidateToConsumed at hok
    simp only [refuse] at hok
    split_ifs at hok with _ _ hlt
    all_goals first | exact UInt64.not_lt.mp hlt | simp at hok

end LedgerPlan

end CreditFabric
