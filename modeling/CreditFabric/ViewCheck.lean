import CreditFabric.LedgerInvariant

namespace CreditFabric

/-!
# The view and the check

`compute_view` and `check_invariants` walk the same chain of wrapped sums and comparisons, one to
fill fields and one to name what failed.  They agree on every counter set (`closed_eq_ok`).
Where they refuse one, the view shows no credit at all (`computeView_of_broken`), and no mutator
that reads the view moves any.
-/

/-- **One verdict.** -/
theorem closed_eq_ok (capacity : UInt64) (t : CreditTotals) :
    (computeView capacity t).closed = (checkInvariants capacity t).ok := by
  unfold computeView fillDerived checkInvariants
  simp only
  split_ifs <;> rfl

/-- The view of a counter set that is not closed. -/
theorem computeView_of_broken {capacity : UInt64} {t : CreditTotals}
    (h : (computeView capacity t).closed = false) :
    (computeView capacity t).available = 0 ∧ (computeView capacity t).outstanding = 0 ∧
      (computeView capacity t).inFlight = 0 := by
  unfold computeView at h ⊢
  simp only at h ⊢
  split_ifs at h ⊢ with hclosed
  · exact absurd (h.symm.trans hclosed) (by decide)
  · exact ⟨rfl, rfl, rfl⟩

namespace LedgerPlan

/-- The mutators that read the view accept nothing from a counter set that is not closed. -/
structure Stuck (p : LedgerPlan) : Prop where
  issue : ∀ count lo hi : UInt64, (p.issue count lo hi).1 = false
  consume : ∀ count : UInt64, (p.consume count).1 = false
  giveBack : ∀ count : UInt64, (p.giveBack count).1 = false
  protect : ∀ (count : UInt64) (allowed : Bool), (p.protect count allowed).1 = false

/-- Nothing is more than no credit. -/
theorem zero_lt_of_ne {count : UInt64} (h : count ≠ 0) : (0 : UInt64) < count := by
  rw [UInt64.lt_iff_toNat_lt]
  refine Nat.pos_of_ne_zero fun hzero => h (UInt64.toNat_inj.mp ?_)
  exact hzero

/-- A plan whose view is broken moves no more. -/
theorem stuck_of_broken {p : LedgerPlan} (h : p.view.closed = false) : Stuck p := by
  obtain ⟨havailable, houtstanding, hinFlight⟩ := computeView_of_broken h
  replace havailable : p.view.available = 0 := havailable
  replace houtstanding : p.view.outstanding = 0 := houtstanding
  replace hinFlight : p.view.inFlight = 0 := hinFlight
  refine ⟨fun count lo hi => ?_, fun count => ?_, fun count => ?_, fun count allowed => ?_⟩
  · unfold LedgerPlan.issue
    by_cases hstatus : (!p.status.ok) = true
    · rw [if_pos hstatus]
    by_cases hzero : count = 0
    · rw [if_neg hstatus, if_pos hzero]
      rfl
    have hless : p.view.available < count := by rw [havailable]; exact zero_lt_of_ne hzero
    rw [if_neg hstatus, if_neg hzero, if_pos hless]
    split_ifs <;> rfl
  · unfold LedgerPlan.consume
    by_cases hstatus : (!p.status.ok) = true
    · rw [if_pos hstatus]
    by_cases hzero : count = 0
    · rw [if_neg hstatus, if_pos hzero]
      rfl
    have hless : p.view.outstanding < count := by rw [houtstanding]; exact zero_lt_of_ne hzero
    rw [if_neg hstatus, if_neg hzero, if_pos hless]
    rfl
  · unfold LedgerPlan.giveBack
    by_cases hstatus : (!p.status.ok) = true
    · rw [if_pos hstatus]
    by_cases hzero : count = 0
    · rw [if_neg hstatus, if_pos hzero]
      rfl
    have hless : p.view.inFlight < count := by rw [hinFlight]; exact zero_lt_of_ne hzero
    rw [if_neg hstatus, if_neg hzero]
    exact congrArg Prod.fst (if_pos (.inl hless))
  · unfold LedgerPlan.protect
    by_cases hstatus : (!p.status.ok) = true
    · rw [if_pos hstatus]
    by_cases hzero : count = 0
    · rw [if_neg hstatus, if_pos hzero]
      split_ifs <;> rfl
    have hless : p.view.available < count := by rw [havailable]; exact zero_lt_of_ne hzero
    rw [if_neg hstatus, if_neg hzero, if_pos hless]
    split_ifs <;> rfl

end LedgerPlan

/-- **View and check agree.**  Over every capacity and every counters, the view is closed exactly
    when the invariant check passes; its fields then add up over unbounded integers, and
    otherwise it shows no credit and nothing is accepted from it. -/
theorem view_agrees (capacity : UInt64) (t : CreditTotals) :
    let v := computeView capacity t
    (v.closed = true ↔ checkInvariants capacity t = .success) ∧
    (v.closed = true →
      capacity.toNat = v.available.toNat + t.protectedCredits.toNat + v.inFlight.toNat ∧
      v.inFlight.toNat = v.outstanding.toNat + t.spent.toNat + t.stale.toNat ∧
      (v.inFlight.toNat : Int) = t.issued.toNat - t.returned.toNat) ∧
    (v.closed = false → v.available = 0 ∧ v.outstanding = 0 ∧ v.inFlight = 0 ∧
      ∀ status, (LedgerPlan.mk capacity t status).Stuck) := by
  intro v
  have hverdict := closed_eq_ok capacity t
  refine ⟨⟨fun hclosed => ?_, fun hsuccess => ?_⟩, fun hclosed => ?_, fun hbroken => ?_⟩
  · have hok : (checkInvariants capacity t).ok = true := hverdict.symm.trans hclosed
    unfold checkInvariants at hok ⊢
    simp only at hok ⊢
    -- every refusal fails the check
    split_ifs at hok ⊢ <;> first | rfl | exact absurd (show false = true from hok) (by decide)
  · show (computeView capacity t).closed = true
    rw [hverdict, hsuccess]
    rfl
  · have hview := computeView_of_closed ((checkInvariants_ok_iff capacity t).mp
      (hverdict.symm.trans hclosed))
    have hinFlight : v.inFlight.toNat + t.returned.toNat = t.issued.toNat := hview.inFlight
    exact ⟨hview.available, hview.outstanding, by omega⟩
  · obtain ⟨havailable, houtstanding, hinFlight⟩ := computeView_of_broken hbroken
    exact ⟨havailable, houtstanding, hinFlight, fun status =>
      LedgerPlan.stuck_of_broken (p := ⟨capacity, t, status⟩) hbroken⟩

end CreditFabric
