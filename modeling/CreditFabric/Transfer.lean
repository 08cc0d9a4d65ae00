import CreditFabric.Sound

namespace CreditFabric

/-!
# Credit as it moves between buckets

The ledger keeps aggregate counters.  What they are for is simpler: every credit in flight is
outstanding, spent or stale, and an operation moves credits between these buckets, into them
or out of them.  `Transfer` lists the moves over unbounded integers, and `decision_moves` shows
that an applied decision on a closed account is exactly the move its request names.

A `Tally` sums the credits that were issued, consumed, returned and revalidated as spent since
some point.  `Covered` is the invariant of the tally from a point on where nothing was
outstanding or spent: whatever is spendable now was issued since.
-/

/-! ### Buckets and transfers -/

/-- The credits in flight, by what they may be used for. -/
structure Buckets where
  outstanding : Nat
  spent : Nat
  stale : Nat
deriving DecidableEq, Repr

/-- A move of credits. -/
inductive Transfer where
  | issue (n : Nat)
  | consume (n : Nat)
  | giveBack (n : Nat)
  | retire (n : Nat)
  | toReturned (n : Nat)
  | toConsumed (n : Nat)
  | quarantine
  | idle
deriving DecidableEq, Repr

/-- The buckets before and behind a move.  Credits are given back from the spent ones first. -/
def Transfer.Moves (b b' : Buckets) : Transfer → Prop
  | .issue n => b'.outstanding = b.outstanding + n ∧ b'.spent = b.spent ∧ b'.stale = b.stale
  | .consume n =>
    b'.outstanding + n = b.outstanding ∧ b'.spent = b.spent + n ∧ b'.stale = b.stale
  | .giveBack n => b'.outstanding + (n - b.spent) = b.outstanding ∧ b'.spent = b.spent - n ∧
      b'.stale = b.stale
  | .retire n =>
    b'.outstanding + n = b.outstanding ∧ b'.spent = b.spent ∧ b'.stale = b.stale + n
  | .toReturned n =>
    b'.outstanding = b.outstanding ∧ b'.spent = b.spent ∧ b'.stale + n = b.stale
  | .toConsumed n =>
    b'.outstanding = b.outstanding ∧ b'.spent = b.spent + n ∧ b'.stale + n = b.stale
  | .quarantine =>
    b'.outstanding = 0 ∧ b'.spent = 0 ∧ b'.stale = b.outstanding + b.spent + b.stale
  | .idle => b' = b

/-! ### Tallies -/

/-- What was moved since some point. -/
structure Tally where
  issued : Nat := 0
  consumed : Nat := 0
  returned : Nat := 0
  revalidated : Nat := 0
deriving DecidableEq, Repr

/-- What one transfer adds to the tally. -/
def Tally.add (t : Tally) : Transfer → Tally
  | .issue n => { t with issued := t.issued + n }
  | .consume n => { t with consumed := t.consumed + n }
  | .giveBack n => { t with returned := t.returned + n }
  | .toConsumed n => { t with revalidated := t.revalidated + n }
  | _ => t

/-- What is spendable, together with what was taken from it, is covered by what was put there
    since the tally began. -/
structure Covered (t : Tally) (b : Buckets) : Prop where
  consumable : b.outstanding + t.consumed ≤ t.issued
  returnable : b.outstanding + b.spent + t.returned ≤ t.issued + t.revalidated

/-- Behind a quarantine an empty tally covers the buckets. -/
theorem covered_of_quarantine {b b' : Buckets} (h : Transfer.quarantine.Moves b b') :
    Covered {} b' := by
  obtain ⟨houtstanding, hspent, -⟩ := h
  refine ⟨?_, ?_⟩
  · show b'.outstanding + 0 ≤ 0
    omega
  · show b'.outstanding + b'.spent + 0 ≤ 0 + 0
    omega

/-- **Step lemma.**  Every move but a quarantine keeps the tally covering, and so does a
    quarantine. -/
theorem Covered.add {t : Tally} {b b' : Buckets} (h : Covered t b) {m : Transfer}
    (hmove : m.Moves b b') : Covered (t.add m) b' := by
  obtain ⟨hconsumable, hreturnable⟩ := h
  cases m with
  | idle =>
    rw [show b' = b from hmove]
    exact ⟨hconsumable, hreturnable⟩
  | _ =>
    obtain ⟨h₁, h₂, -⟩ := hmove
    refine ⟨?_, ?_⟩
    · simp only [Tally.add]
      omega
    · simp only [Tally.add]
      omega

/-- What a tally that covers the buckets promises by itself. -/
structure WithinEra (t : Tally) : Prop where
  consumed : t.consumed ≤ t.issued
  returned : t.returned ≤ t.issued + t.revalidated

/-- What the buckets cover is within the era. -/
theorem Covered.withinEra {t : Tally} {b : Buckets} (h : Covered t b) : WithinEra t := by
  obtain ⟨hconsumable, hreturnable⟩ := h
  exact ⟨by omega, by omega⟩

/-! ### The ledger moves credits -/

/-- The buckets of the totals. -/
def CreditTotals.buckets (t : CreditTotals) : Buckets where
  outstanding := t.issued.toNat - t.returned.toNat - t.spent.toNat - t.stale.toNat
  spent := t.spent.toNat
  stale := t.stale.toNat

/-- The derived view of a closed account shows its buckets. -/
theorem ExactView.buckets {cap : UInt64} {t : CreditTotals} {v : CreditView}
    (h : ExactView cap t v) : v.outstanding.toNat = t.buckets.outstanding := by
  have hin := h.inFlight
  have hout := h.outstanding
  show _ = t.issued.toNat - t.returned.toNat - t.spent.toNat - t.stale.toNat
  omega

/-- A sum that is not below its first summand did not wrap. -/
theorem toNat_add_of_fits {a b : UInt64} (h : ¬ a + b < a) :
    (a + b).toNat = a.toNat + b.toNat := by
  by_contra hne
  have hge : 2 ^ 64 ≤ a.toNat + b.toNat := by
    by_contra hlt
    exact hne (addOverflow_of_lt (Nat.not_le.mp hlt)).2
  exact h (of_decide_eq_true (addOverflow_of_ge hge))

namespace LedgerPlan

variable {cap : UInt64} {t : CreditTotals} {p p' : LedgerPlan} {n : UInt64}

/-- A commit that succeeds has published its candidate. -/
theorem commit_inv {c : CreditTotals} (h : p.commit c = (true, p')) :
    p'.capacity = p.capacity ∧ p'.totals = c ∧ Closed p.capacity c := by
  unfold commit at h
  simp only at h
  split_ifs at h with hstatus hverdict
  · cases h
  · cases h
  · rw [Prod.mk.injEq] at h
    obtain ⟨-, rfl⟩ := h
    exact ⟨rfl, rfl, (checkInvariants_ok_iff _ _).mp (by simpa using hverdict)⟩

/-- A plan starts Ok from closed totals only. -/
theorem closed_of_start (h : ¬ (!(start cap t).status.ok) = true) : Closed cap t :=
  (checkInvariants_ok_iff _ _).mp (by simpa [start] using h)

/-- An Issue moves what it says. -/
theorem issue_moves {lo hi : UInt64} (h : (start cap t).issue n lo hi = (true, p')) :
    (Transfer.issue n.toNat).Moves t.buckets p'.totals.buckets := by
  unfold issue at h
  simp only [refuse, addOverflow, decide_eq_true_eq] at h
  split_ifs at h with hstatus _ _ _ hfits
  any_goals cases h
  obtain ⟨-, htotals, -⟩ := commit_inv h
  have hstart := closed_of_start hstatus
  have hreturned := hstart.returned
  have hreserved := hstart.reserved
  have hissued : (t.issued + n).toNat = t.issued.toNat + n.toNat := toNat_add_of_fits hfits
  rw [htotals]
  simp only [Transfer.Moves, CreditTotals.buckets, start, and_true]
  omega

/-- A Consume does. -/
theorem consume_moves (h : (start cap t).consume n = (true, p')) :
    (Transfer.consume n.toNat).Moves t.buckets p'.totals.buckets := by
  unfold consume at h
  simp only [refuse, addOverflow, decide_eq_true_eq] at h
  split_ifs at h with hstatus _ _ hfits _
  any_goals cases h
  obtain ⟨-, htotals, hclosed⟩ := commit_inv h
  have hspent : (t.spent + n).toNat = t.spent.toNat + n.toNat := toNat_add_of_fits hfits
  have hreserved := hclosed.reserved
  simp only [start] at hreserved
  rw [htotals]
  simp only [Transfer.Moves, CreditTotals.buckets, start, and_true]
  omega

/-- A Return does. -/
theorem giveBack_moves (h : (start cap t).giveBack n = (true, p')) :
    (Transfer.giveBack n.toNat).Moves t.buckets p'.totals.buckets := by
  unfold giveBack at h
  simp only [refuse, addOverflow, decide_eq_true_eq] at h
  -- what is left of the spent credits, as one word for both branches
  have hspent : ((start cap t).totals.spent -
      if (start cap t).totals.spent < n then (start cap t).totals.spent else n).toNat =
      t.spent.toNat - n.toNat := by
    show (t.spent - if t.spent < n then t.spent else n).toNat = _
    split_ifs with hless
    · rw [UInt64.lt_iff_toNat_lt] at hless
      rw [UInt64.toNat_sub_of_le _ _ (UInt64.le_refl _)]
      omega
    · exact UInt64.toNat_sub_of_le _ _ (UInt64.not_lt.mp hless)
  generalize ((start cap t).totals.spent - if (start cap t).totals.spent < n then
    (start cap t).totals.spent else n) = spent at h hspent
  split_ifs at h with hstatus _ hroom hfits
  any_goals cases h
  obtain ⟨-, htotals, -⟩ := commit_inv h
  have hstart := closed_of_start hstatus
  have hview : ExactView cap t (start cap t).view := computeView_of_closed hstart
  have hin := hview.inFlight
  have hout := hview.outstanding
  have hreturned : (t.returned + n).toNat = t.returned.toNat + n.toNat := toNat_add_of_fits hfits
  rw [not_or, UInt64.lt_iff_toNat_lt, UInt64.lt_iff_toNat_lt,
    UInt64.toNat_sub_of_le _ _ hview.stale_le, hview.stale] at hroom
  rw [htotals]
  simp only [Transfer.Moves, CreditTotals.buckets, start, and_true]
  omega

/-- A RetireStale does. -/
theorem retireStale_moves (h : (start cap t).retireStale n = (true, p')) :
    (Transfer.retire n.toNat).Moves t.buckets p'.totals.buckets := by
  unfold retireStale at h
  simp only [refuse, addOverflow, decide_eq_true_eq] at h
  split_ifs at h with hstatus _ _ hfits
  any_goals cases h
  obtain ⟨-, htotals, hclosed⟩ := commit_inv h
  have hstale : (t.stale + n).toNat = t.stale.toNat + n.toNat := toNat_add_of_fits hfits
  have hreserved := hclosed.reserved
  simp only [start] at hreserved
  rw [htotals]
  simp only [Transfer.Moves, CreditTotals.buckets, start, true_and]
  omega

/-- A Revalidate to Returned does. -/
theorem revalidateToReturned_moves (h : (start cap t).revalidateToReturned n = (true, p')) :
    (Transfer.toReturned n.toNat).Moves t.buckets p'.totals.buckets := by
  unfold revalidateToReturned at h
  simp only [refuse, addOverflow, decide_eq_true_eq] at h
  split_ifs at h with hstatus _ henough hfits
  any_goals cases h
  obtain ⟨-, htotals, -⟩ := commit_inv h
  have hstart := closed_of_start hstatus
  have hreserved := hstart.reserved
  have hreturned : (t.returned + n).toNat = t.returned.toNat + n.toNat := toNat_add_of_fits hfits
  have hstale : (t.stale - n).toNat = t.stale.toNat - n.toNat :=
    UInt64.toNat_sub_of_le _ _ (UInt64.not_lt.mp henough)
  have hle : n.toNat ≤ t.stale.toNat := UInt64.le_iff_toNat_le.mp (UInt64.not_lt.mp henough)
  rw [htotals]
  simp only [Transfer.Moves, CreditTotals.buckets, start, true_and]
  omega

/-- A Revalidate to Consumed does. -/
theorem revalidateToConsumed_moves (h : (start cap t).revalidateToConsumed n = (true, p')) :
    (Transfer.toConsumed n.toNat).Moves t.buckets p'.totals.buckets := by
  unfold revalidateToConsumed at h
  simp only [refuse, addOverflow, decide_eq_true_eq] at h
  split_ifs at h with hstatus _ henough hfits _
  any_goals cases h
  obtain ⟨-, htotals, -⟩ := commit_inv h
  have hspent : (t.spent + n).toNat = t.spent.toNat + n.toNat := toNat_add_of_fits hfits
  have hstale : (t.stale - n).toNat = t.stale.toNat - n.toNat :=
    UInt64.toNat_sub_of_le _ _ (UInt64.not_lt.mp henough)
  have hle : n.toNat ≤ t.stale.toNat := UInt64.le_iff_toNat_le.mp (UInt64.not_lt.mp henough)
  rw [htotals]
  simp only [Transfer.Moves, CreditTotals.buckets, start]
  omega

/-- Where nothing is left to quarantine, nothing is outstanding or spent. -/
theorem quarantineInFlight_moves (h : (start cap t).quarantineInFlight = (true, p')) :
    Transfer.quarantine.Moves t.buckets p'.totals.buckets ∧
      p'.totals = { t with spent := 0, stale := p'.totals.stale } := by
  unfold quarantineInFlight at h
  simp only [refuse, addOverflow, decide_eq_true_eq] at h
  by_cases hstatus : (!(start cap t).status.ok) = true
  · rw [if_pos hstatus] at h
    cases h
  rw [if_neg hstatus] at h
  have hview : ExactView cap t (start cap t).view :=
    computeView_of_closed (closed_of_start hstatus)
  have hzero : (0 : UInt64).toNat = 0 := rfl
  have hin := hview.inFlight
  have hout := hview.outstanding
  have hamount := UInt64.toNat_sub_of_le _ _ hview.stale_le
  rw [hview.stale] at hamount h
  generalize (start cap t).view.inFlight - t.stale = amount at h hamount
  -- nothing was outstanding, or the amount is added to the stale credit
  split_ifs at h with hnone hfits
  · cases h
    rw [hnone] at hamount
    have hspent : t.spent = 0 := UInt64.toNat_inj.mp (by omega)
    refine ⟨?_, ?_⟩
    · show t.issued.toNat - t.returned.toNat - t.spent.toNat - t.stale.toNat = 0 ∧
        t.spent.toNat = 0 ∧ t.stale.toNat = t.issued.toNat - t.returned.toNat - t.spent.toNat -
          t.stale.toNat + t.spent.toNat + t.stale.toNat
      omega
    · show t = { t with spent := 0 }
      rw [← hspent]
  · cases h
  · obtain ⟨-, htotals, -⟩ := commit_inv h
    have hstale : (t.stale + amount).toNat = t.stale.toNat + amount.toNat :=
      toNat_add_of_fits hfits
    rw [htotals]
    refine ⟨?_, rfl⟩
    simp only [Transfer.Moves, CreditTotals.buckets, start]
    omega

/-- Reserved credits are not in flight. -/
theorem protect_moves {allowed : Bool} (h : (start cap t).protect n allowed = (true, p')) :
    Transfer.idle.Moves t.buckets p'.totals.buckets := by
  unfold protect at h
  simp only [refuse, addOverflow, decide_eq_true_eq] at h
  split_ifs at h
  any_goals cases h
  obtain ⟨-, htotals, -⟩ := commit_inv h
  rw [htotals]
  rfl

/-- An Unprotect moves nothing. -/
theorem unprotect_moves (h : (start cap t).unprotect n = (true, p')) :
    Transfer.idle.Moves t.buckets p'.totals.buckets := by
  unfold unprotect at h
  simp only [refuse] at h
  split_ifs at h
  any_goals cases h
  obtain ⟨-, htotals, -⟩ := commit_inv h
  rw [htotals]
  rfl

/-- A settled mutator whose status is a success has succeeded. -/
theorem Settled.eq_of_ok {result : Bool × LedgerPlan} (h : p.Settled result)
    (hok : (if result.1 then Status.success else result.2.status).ok = true) :
    result = (true, result.2) := by
  obtain ⟨ok, plan⟩ := result
  cases ok with
  | true => rfl
  | false =>
    have hlatched : plan.status.ok = false := h
    exact absurd (hlatched.symm.trans hok) (by decide)

end LedgerPlan

/-! ### Decisions move credits -/

/-- The move a request names. -/
def CreditRequest.transfer (r : CreditRequest) : Transfer :=
  match r.op with
  | .issue => .issue r.count.toNat
  | .consume => .consume r.count.toNat
  | .return_ => .giveBack r.count.toNat
  | .retire => .retire r.count.toNat
  | .revalidate =>
    if r.decision = .toReturned then .toReturned r.count.toNat else .toConsumed r.count.toNat
  | .advanceEpoch | .rotate => .quarantine
  | _ => .idle

/-- A relation between the totals in front of a move and behind it that every mutator keeps. -/
structure MoveRule (P : Transfer → CreditTotals → CreditTotals → Prop) : Prop where
  issue : ∀ {cap t n lo hi p'}, (LedgerPlan.start cap t).issue n lo hi = (true, p') →
    P (.issue n.toNat) t p'.totals
  consume : ∀ {cap t n p'}, (LedgerPlan.start cap t).consume n = (true, p') →
    P (.consume n.toNat) t p'.totals
  giveBack : ∀ {cap t n p'}, (LedgerPlan.start cap t).giveBack n = (true, p') →
    P (.giveBack n.toNat) t p'.totals
  protect : ∀ {cap t n allowed p'}, (LedgerPlan.start cap t).protect n allowed = (true, p') →
    P .idle t p'.totals
  unprotect : ∀ {cap t n p'}, (LedgerPlan.start cap t).unprotect n = (true, p') →
    P .idle t p'.totals
  retire : ∀ {cap t n p'}, (LedgerPlan.start cap t).retireStale n = (true, p') →
    P (.retire n.toNat) t p'.totals
  toReturned : ∀ {cap t n p'}, (LedgerPlan.start cap t).revalidateToReturned n = (true, p') →
    P (.toReturned n.toNat) t p'.totals
  toConsumed : ∀ {cap t n p'}, (LedgerPlan.start cap t).revalidateToConsumed n = (true, p') →
    P (.toConsumed n.toNat) t p'.totals
  quarantine : ∀ {cap t p'}, (LedgerPlan.start cap t).quarantineInFlight = (true, p') →
    P .quarantine t p'.totals
  idle : ∀ t, P .idle t t

section Rule

variable {P : Transfer → CreditTotals → CreditTotals → Prop}

/-- A rule every mutator keeps, the ledger's dispatcher keeps. -/
theorem MoveRule.ledgerApply (h : MoveRule P) {cap : UInt64} {t : CreditTotals}
    {a : AccountState} {r : CreditRequest} (hok : (ledgerApply (.start cap t) a r).1.ok = true) :
    P r.transfer t (ledgerApply (.start cap t) a r).2.totals := by
  unfold CreditFabric.ledgerApply at hok ⊢
  unfold CreditRequest.transfer
  cases hop : r.op with
  | issue =>
    simp only [hop] at hok ⊢
    exact h.issue ((LedgerPlan.issue_settled _ _ _).eq_of_ok hok)
  | consume =>
    simp only [hop] at hok ⊢
    exact h.consume ((LedgerPlan.consume_settled _).eq_of_ok hok)
  | return_ =>
    simp only [hop] at hok ⊢
    by_cases hallow : (!a.config.rules.allowReturn) = true
    · rw [if_pos hallow] at hok
      exact absurd hok (by simp)
    · rw [if_neg hallow] at hok ⊢
      exact h.giveBack ((LedgerPlan.giveBack_settled _).eq_of_ok hok)
  | protect =>
    simp only [hop] at hok ⊢
    exact h.protect ((LedgerPlan.protect_settled _ _).eq_of_ok hok)
  | unprotect =>
    simp only [hop] at hok ⊢
    exact h.unprotect ((LedgerPlan.unprotect_settled _).eq_of_ok hok)
  | _ =>
    simp only [hop] at hok
    exact absurd hok (by simp)

/-- So do the control operations. -/
theorem MoveRule.control (h : MoveRule P) {limits : EngineLimits} {a a' : AccountState}
    {r : CreditRequest} (hcase : ControlCase limits a r (.proceed a')) :
    P r.transfer a.totals a'.totals := by
  unfold CreditRequest.transfer
  cases hcase with
  | exhausted op => simp only [op]; exact h.idle _
  | cleared op => simp only [op]; exact h.idle _
  | resized op plan hplan => simp only [op]; exact h.idle _
  | advanced op plan hplan =>
    rcases op with op | op
    · simp only [op]
      exact h.quarantine hplan
    · simp only [op]
      exact h.quarantine hplan
  | retired op plan hplan =>
    simp only [op]
    exact h.retire hplan
  | revalidated op plan hplan =>
    simp only [op]
    by_cases hdec : r.decision = .toReturned
    · rw [if_pos hdec] at hplan ⊢
      exact h.toReturned hplan
    · rw [if_neg hdec] at hplan ⊢
      exact h.toConsumed hplan
  | fenced op target unfenced room budget => simp only [op]; exact h.idle _
  | retiredIncarnation op target record found state => simp only [op]; exact h.idle _

/-- **Rule.**  What every mutator keeps, every applied decision keeps. -/
theorem MoveRule.decision (h : MoveRule P) {J : Type} {e : CreditEngine J} {a a' : AccountState}
    {r : CreditRequest} (hd : e.decision a r = .proceed a') :
    P r.transfer a.totals a'.totals := by
  rcases e.decision_cases a r with ⟨hcase, -⟩ | ⟨hcase, hop⟩ | ⟨hcase, -⟩ <;> rw [hd] at hcase
  · exact h.control hcase
  · unfold CreditRequest.transfer
    simp only [hop]
    cases hcase
    exact h.idle _
  · cases hcase with
    | issued _ _ _ _ _ hok => exact h.ledgerApply hok
    | applied _ _ hok => exact h.ledgerApply hok

end Rule

/-- **Applied decisions move credits** as their requests name it. -/
theorem decision_moves {J : Type} {e : CreditEngine J} {a a' : AccountState}
    {r : CreditRequest} (hd : e.decision a r = .proceed a') :
    r.transfer.Moves a.totals.buckets a'.totals.buckets := by
  have hrule : MoveRule fun move t t' => move.Moves t.buckets t'.buckets :=
    { issue := LedgerPlan.issue_moves, consume := LedgerPlan.consume_moves
      giveBack := LedgerPlan.giveBack_moves, protect := LedgerPlan.protect_moves
      unprotect := LedgerPlan.unprotect_moves, retire := LedgerPlan.retireStale_moves
      toReturned := LedgerPlan.revalidateToReturned_moves
      toConsumed := LedgerPlan.revalidateToConsumed_moves
      quarantine := fun h => (LedgerPlan.quarantineInFlight_moves h).1, idle := fun _ => rfl }
  exact hrule.decision hd

/-- A decision that does not proceed keeps the totals. -/
theorem decision_totals {J : Type} {e : CreditEngine J} {a : AccountState} {r : CreditRequest}
    (h : ∀ a', e.decision a r ≠ .proceed a') :
    (e.decision a r).account.totals = a.totals := by
  rcases e.decision_cases a r with ⟨hcase, -⟩ | ⟨hcase, -⟩ | ⟨hcase, -⟩
  · generalize e.decision a r = d at hcase h ⊢
    cases hcase <;> first | rfl | exact absurd rfl (h _)
  · generalize e.decision a r = d at hcase
    cases hcase <;> rfl
  · generalize e.decision a r = d at hcase h ⊢
    cases hcase <;> first | rfl | exact absurd rfl (h _)

end CreditFabric
