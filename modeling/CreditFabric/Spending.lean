import CreditFabric.Tracking
import CreditFabric.Transfer

namespace CreditFabric

open Std (ExtTreeMap)

/-!
# The spend events of an account

`consumed` counts spend events and `issued` the credits that were ever issued.  A Consume moves
a credit out of the outstanding ones, so it counts every credit once (`SpentOnce`).  A Revalidate
to Consumed counts as well, and a quarantine does not tell the stale credits that were spent
before from the others: such a credit is counted a second time.

`CreditEngine.FreshSpend` is the condition under which a Revalidate counts nothing twice.
-/

/-! ### The two counters -/

/-- What a move does to the counters of issued and of consumed credits. -/
def Transfer.Counts (t t' : CreditTotals) : Transfer → Prop
  | .issue n => t'.issued.toNat = t.issued.toNat + n ∧ t'.consumed = t.consumed
  | .consume n | .toConsumed n =>
    t'.issued = t.issued ∧ t'.consumed.toNat = t.consumed.toNat + n
  | _ => t'.issued = t.issued ∧ t'.consumed = t.consumed

namespace LedgerPlan

variable {cap : UInt64} {t : CreditTotals} {p' : LedgerPlan} {n : UInt64}

/-- An Issue counts what it issued. -/
theorem issue_counts {lo hi : UInt64} (h : (start cap t).issue n lo hi = (true, p')) :
    (Transfer.issue n.toNat).Counts t p'.totals := by
  unfold issue at h
  simp only [refuse, addOverflow, decide_eq_true_eq] at h
  split_ifs at h with _ _ _ _ hfits
  any_goals cases h
  obtain ⟨-, htotals, -⟩ := commit_inv h
  rw [htotals]
  exact ⟨toNat_add_of_fits hfits, rfl⟩

/-- A Consume counts what it spent. -/
theorem consume_counts (h : (start cap t).consume n = (true, p')) :
    (Transfer.consume n.toNat).Counts t p'.totals := by
  unfold consume at h
  simp only [refuse, addOverflow, decide_eq_true_eq] at h
  split_ifs at h with _ _ _ _ hfits
  any_goals cases h
  obtain ⟨-, htotals, -⟩ := commit_inv h
  rw [htotals]
  exact ⟨rfl, toNat_add_of_fits hfits⟩

/-- A Revalidate to Consumed counts what it spent. -/
theorem revalidateToConsumed_counts (h : (start cap t).revalidateToConsumed n = (true, p')) :
    (Transfer.toConsumed n.toNat).Counts t p'.totals := by
  unfold revalidateToConsumed at h
  simp only [refuse, addOverflow, decide_eq_true_eq] at h
  split_ifs at h with _ _ _ _ hfits
  any_goals cases h
  obtain ⟨-, htotals, -⟩ := commit_inv h
  rw [htotals]
  exact ⟨rfl, toNat_add_of_fits hfits⟩

/-- A Return counts what came back. -/
theorem giveBack_counts (h : (start cap t).giveBack n = (true, p')) :
    (Transfer.giveBack n.toNat).Counts t p'.totals := by
  unfold giveBack at h
  simp only [refuse, addOverflow, decide_eq_true_eq] at h
  generalize (if (start cap t).totals.spent < n then (start cap t).totals.spent else n) = k at h
  split_ifs at h
  any_goals cases h
  obtain ⟨-, htotals, -⟩ := commit_inv h
  rw [htotals]
  exact ⟨rfl, rfl⟩

/-- A Protect counts nothing. -/
theorem protect_counts {allowed : Bool} (h : (start cap t).protect n allowed = (true, p')) :
    Transfer.idle.Counts t p'.totals := by
  unfold protect at h
  simp only [refuse, addOverflow, decide_eq_true_eq] at h
  split_ifs at h
  any_goals cases h
  obtain ⟨-, htotals, -⟩ := commit_inv h
  rw [htotals]
  exact ⟨rfl, rfl⟩

/-- Nor does an Unprotect. -/
theorem unprotect_counts (h : (start cap t).unprotect n = (true, p')) :
    Transfer.idle.Counts t p'.totals := by
  unfold unprotect at h
  simp only [refuse] at h
  split_ifs at h
  any_goals cases h
  obtain ⟨-, htotals, -⟩ := commit_inv h
  rw [htotals]
  exact ⟨rfl, rfl⟩

/-- A RetireStale counts what it retired. -/
theorem retireStale_counts (h : (start cap t).retireStale n = (true, p')) :
    (Transfer.retire n.toNat).Counts t p'.totals := by
  unfold retireStale at h
  simp only [refuse, addOverflow, decide_eq_true_eq] at h
  split_ifs at h
  any_goals cases h
  obtain ⟨-, htotals, -⟩ := commit_inv h
  rw [htotals]
  exact ⟨rfl, rfl⟩

/-- A Revalidate to Returned counts what came back. -/
theorem revalidateToReturned_counts (h : (start cap t).revalidateToReturned n = (true, p')) :
    (Transfer.toReturned n.toNat).Counts t p'.totals := by
  unfold revalidateToReturned at h
  simp only [refuse, addOverflow, decide_eq_true_eq] at h
  split_ifs at h
  any_goals cases h
  obtain ⟨-, htotals, -⟩ := commit_inv h
  rw [htotals]
  exact ⟨rfl, rfl⟩

/-- A quarantine counts what went stale. -/
theorem quarantineInFlight_counts (h : (start cap t).quarantineInFlight = (true, p')) :
    Transfer.quarantine.Counts t p'.totals := by
  rw [(quarantineInFlight_moves h).2]
  exact ⟨rfl, rfl⟩

end LedgerPlan

/-- Applied decisions count what their requests name. -/
theorem decision_counts {J : Type} {e : CreditEngine J} {a a' : AccountState}
    {r : CreditRequest} (hd : e.decision a r = .proceed a') :
    r.transfer.Counts a.totals a'.totals := by
  have hrule : MoveRule fun move t t' => move.Counts t t' :=
    { issue := LedgerPlan.issue_counts, consume := LedgerPlan.consume_counts
      giveBack := LedgerPlan.giveBack_counts, protect := LedgerPlan.protect_counts
      unprotect := LedgerPlan.unprotect_counts, retire := LedgerPlan.retireStale_counts
      toReturned := LedgerPlan.revalidateToReturned_counts
      toConsumed := LedgerPlan.revalidateToConsumed_counts
      quarantine := LedgerPlan.quarantineInFlight_counts, idle := fun _ => ⟨rfl, rfl⟩ }
  exact hrule.decision hd

/-! ### Every credit is counted once -/

/-- The spend events and the credits that may still be spent are issued credits. -/
def CreditTotals.SpentOnce (t : CreditTotals) : Prop :=
  t.consumed.toNat + t.buckets.outstanding ≤ t.issued.toNat

/-- **Step lemma.**  Every move keeps the bound, but for a Revalidate that has no room. -/
theorem CreditTotals.SpentOnce.move {t t' : CreditTotals} (h : t.SpentOnce) {move : Transfer}
    (hmoves : move.Moves t.buckets t'.buckets) (hcounts : move.Counts t t')
    (hfresh : ∀ n, move = .toConsumed n →
      t.consumed.toNat + t.buckets.outstanding + n ≤ t.issued.toNat) : t'.SpentOnce := by
  unfold SpentOnce at h ⊢
  cases move with
  | issue n =>
    obtain ⟨houtstanding, -, -⟩ := hmoves
    obtain ⟨hissued, hconsumed⟩ := hcounts
    rw [hconsumed]
    omega
  | consume n =>
    obtain ⟨houtstanding, -, -⟩ := hmoves
    obtain ⟨hissued, hconsumed⟩ := hcounts
    rw [hissued]
    omega
  | toConsumed n =>
    obtain ⟨houtstanding, -, -⟩ := hmoves
    obtain ⟨hissued, hconsumed⟩ := hcounts
    have hroom := hfresh n rfl
    rw [hissued]
    omega
  | idle =>
    obtain ⟨hissued, hconsumed⟩ := hcounts
    rw [hissued, hconsumed, show t'.buckets = t.buckets from hmoves]
    exact h
  | _ =>
    obtain ⟨houtstanding, -, -⟩ := hmoves
    obtain ⟨hissued, hconsumed⟩ := hcounts
    rw [hissued, hconsumed]
    omega

namespace CreditEngine

variable {J : Type} [Journal J]

/-- A Revalidate to Consumed that the ledger accepts counts credits that are issued and neither
    outstanding nor counted. -/
def FreshSpend (e : CreditEngine J) (r : CreditRequest) : Prop :=
  ∀ a, Admitted e r a → r.op = .revalidate → r.decision = .toConsumed →
    ((LedgerPlan.start a.capacity a.totals).revalidateToConsumed r.count).1 = true →
    a.totals.consumed.toNat + a.view.outstanding.toNat + r.count.toNat ≤ a.totals.issued.toNat

omit [Journal J] in
/-- What the condition says of a decision that is carried through. -/
theorem FreshSpend.room {e : CreditEngine J} {r : CreditRequest} (h : FreshSpend e r)
    {a a' : AccountState} (hadmitted : Admitted e r a) (hsound : a.Sound)
    (hd : e.decision a r = .proceed a') (n : Nat) (hmove : r.transfer = .toConsumed n) :
    a.totals.consumed.toNat + a.totals.buckets.outstanding + n ≤ a.totals.issued.toNat := by
  have hop : r.op = .revalidate := by
    unfold CreditRequest.transfer at hmove
    cases hop : r.op <;> rw [hop] at hmove <;> first | rfl | simp at hmove
  unfold CreditRequest.transfer at hmove
  rw [hop] at hmove
  simp only at hmove
  -- a Revalidate to Consumed that was applied is one the plan accepted
  have hdecision : decideControl e.limits a r = .proceed a' := by
    rw [← hd]
    unfold decision
    rw [hop]
    rfl
  unfold decideControl planned at hdecision
  rw [hop] at hdecision
  simp only at hdecision
  cases hdec : r.decision with
  | none =>
    rw [hdec] at hdecision
    exact absurd hdecision (by simp)
  | toReturned =>
    rw [hdec] at hmove
    exact absurd hmove (by simp)
  | toConsumed =>
    rw [hdec] at hmove hdecision
    obtain rfl : r.count.toNat = n := by simpa using hmove
    have haccepted :
        ((LedgerPlan.start a.capacity a.totals).revalidateToConsumed r.count).1 = true := by
      by_contra hrefused
      rw [Bool.not_eq_true] at hrefused
      simp [hrefused] at hdecision
    have hroom := h a hadmitted hop hdec haccepted
    rwa [AccountState.view, (computeView_of_closed hsound.closed).buckets] at hroom

omit [Journal J] in
/-- An applied decision of an account whose credits are counted once. -/
theorem decision_spentOnce {e : CreditEngine J} {r : CreditRequest} {a : AccountState}
    (hfresh : FreshSpend e r) (hadmitted : Admitted e r a) (hsound : a.Sound)
    (h : a.totals.SpentOnce) : (e.decision a r).account.totals.SpentOnce := by
  by_cases hproceeds : ∃ a', e.decision a r = .proceed a'
  · obtain ⟨a', hd⟩ := hproceeds
    rw [hd]
    exact h.move (decision_moves hd) (decision_counts hd) (hfresh.room hadmitted hsound hd)
  · rw [decision_totals fun a' hd => hproceeds ⟨a', hd⟩]
    exact h

omit [Journal J] in
/-- The condition is met where the account has the room. -/
theorem freshSpend_of_room {e : CreditEngine J} {r : CreditRequest}
    (h : (e.accounts[r.authority.account]?).all (fun a => decide (r.op = .revalidate →
      a.totals.consumed.toNat + a.view.outstanding.toNat + r.count.toNat ≤
        a.totals.issued.toNat)) = true) : FreshSpend e r := by
  intro a hadmitted hop _ _
  rw [hadmitted.found, Option.all_some, decide_eq_true_eq] at h
  exact h hop

omit [Journal J] in
/-- Every step of a run keeps the credit spent once. -/
theorem steady_spentOnce :
    Steady (J := J) FreshSpend fun _ a => a.totals.SpentOnce where
  opened e r hopens _ := Nat.le_refl 0
  decided e r a hadmitted hfresh hstanding h :=
    decision_spentOnce hfresh hadmitted hstanding.sound h
  counted key a x hsame h := by
    rw [hsame.totals]
    exact h
  undone e r a a' _ _ _ _ h := h
  recovered key p a hmirrored h := by
    show p.totals.SpentOnce
    rw [hmirrored.shadow.totals]
    exact h

end CreditEngine

open CreditEngine in
/-- **No credit is counted as spent twice.**  In every run over any number of boots in which
    every Revalidate to Consumed finds room among the credits issued, the interrupted ones
    included, the consumed credits of an account never exceed the issued ones. -/
theorem Deployment.consumed_le_issued {J : Type} [Journal J] {limits : EngineLimits} {journal : J}
    {operator : Incarnation} {nonce : Digest128} {acts : List Act} {w : Deployment J}
    (hrun : RunWhere FreshSpend (start limits journal operator nonce) acts w)
    (hn : acts.length ≤ 2 ^ 60) (key : UInt64) (a : AccountState)
    (ha : w.engine.accounts[key]? = some a) :
    a.totals.consumed.toNat ≤ a.totals.issued.toNat := by
  have hkept := hrun.kept steady_spentOnce.tracked
    (start_kept (fun _ _ hnone => absurd hnone (by simp)) limits journal operator nonce)
    (by omega)
  have honce : a.totals.SpentOnce := hkept.live key a ha
  unfold CreditTotals.SpentOnce at honce
  omega

namespace CountedAgain

open Fixture CreditEngine

/-- The boot's nonce. -/
def nonce : Digest128 := ⟨0x33, 0x44⟩

/-- Revalidate one credit as spent. -/
def revalidate (sequence : UInt64) : CreditRequest :=
  { requestIn 2 2 nonce me .revalidate sequence with decision := .toConsumed }

/-- One credit is issued, spent, quarantined and revalidated as spent. -/
def calls : List CreditRequest :=
  [request nonce me .open_ 1, request nonce me .issue 2, request nonce me .consume 3,
    request nonce me .advanceEpoch 4, requestIn 2 2 nonce me .reconcile 5, revalidate 6]

/-- Two credits are issued and one of them is spent, quarantined and revalidated. -/
def spare : List CreditRequest :=
  [request nonce me .open_ 1, request nonce me .issue 2, request nonce me .issue 3,
    request nonce me .advanceEpoch 4, requestIn 2 2 nonce me .reconcile 5, revalidate 6]

/-- The run with a spare credit, evaluated once: the Revalidate has room, and one of the two
    credits is counted behind it. -/
theorem evaluated :
    (((boot {} (Observed.mk ({} : InMemoryJournal) []) nonce).run (spare.take 5)).accounts[
        (revalidate 6).authority.account]?).all (fun a => decide ((revalidate 6).op = .revalidate →
      a.totals.consumed.toNat + a.view.outstanding.toNat + (revalidate 6).count.toNat ≤
        a.totals.issued.toNat)) = true ∧
    ((boot {} (Observed.mk ({} : InMemoryJournal) []) nonce).run spare).accounts[account]?.map
      (fun (a : AccountState) => (a.totals.consumed, a.totals.issued)) = some (1, 2) := by
  decide +kernel

/-- Every Revalidate of the run has room. -/
theorem spare_fresh (e : CreditEngine (Observed InMemoryJournal))
    (he : e = boot {} ⟨{}, []⟩ nonce) : EachCall FreshSpend e spare := by
  have hother : ∀ (e : CreditEngine (Observed InMemoryJournal)) (r : CreditRequest),
      r.op ≠ .revalidate → FreshSpend e r := fun _ _ hop _ _ h => absurd h hop
  have hsplit : spare = spare.take 5 ++ [revalidate 6] := rfl
  rw [hsplit, eachCall_append, he]
  exact ⟨⟨hother _ _ (by decide), hother _ _ (by decide), hother _ _ (by decide),
    hother _ _ (by decide), hother _ _ (by decide), trivial⟩, freshSpend_of_room evaluated.1,
    trivial⟩

/-- The bound is reached: two credits issued, one of them counted. -/
theorem spare_bounded : ∃ w : Deployment InMemoryJournal,
    Deployment.RunWhere FreshSpend (Deployment.start {} {} me nonce)
      (.restart :: spare.map .call) w ∧
    (∃ a, w.engine.accounts[account]? = some a ∧ a.totals.consumed = 1 ∧ a.totals.issued = 2) ∧
    ∀ a, w.engine.accounts[account]? = some a → a.totals.consumed.toNat ≤ a.totals.issued.toNat := by
  obtain ⟨w, hrun, hengine⟩ := Deployment.exists_runWhere {} nonce spare (spare_fresh _ rfl)
  refine ⟨w, hrun, ?_, fun a ha => Deployment.consumed_le_issued hrun (by decide) account a ha⟩
  rw [hengine]
  obtain ⟨a, ha, hpair⟩ := Option.map_eq_some_iff.mp evaluated.2
  exact ⟨a, ha, congrArg Prod.fst hpair, congrArg Prod.snd hpair⟩

/-- One credit is issued and two are counted as consumed. -/
theorem calls_counted_again : ¬ ∀ (limits : EngineLimits) (journal : InMemoryJournal)
    (operator : Incarnation) (nonce : Digest128) (acts : List Deployment.Act)
    (w : Deployment InMemoryJournal),
    Deployment.Run (Deployment.start limits journal operator nonce) acts w →
    ∀ (key : UInt64) (a : AccountState), w.engine.accounts[key]? = some a →
      a.totals.consumed.toNat ≤ a.totals.issued.toNat := by
  intro hclaim
  have hany : EachCall (fun _ _ => True) (boot {} (Observed.mk ({} : InMemoryJournal) []) nonce)
      calls := ⟨trivial, trivial, trivial, trivial, trivial, trivial, trivial⟩
  obtain ⟨w, hrun, hengine⟩ := Deployment.exists_runWhere {} nonce calls hany
  have hcounts : ((boot {} (Observed.mk ({} : InMemoryJournal) []) nonce).run calls).accounts[account]?.map
      (fun (a : AccountState) => decide (a.totals.consumed.toNat ≤ a.totals.issued.toNat)) = some false := by
    decide +kernel
  rw [← hengine, Option.map_eq_some_iff] at hcounts
  obtain ⟨a, ha, hexceeds⟩ := hcounts
  exact of_decide_eq_false hexceeds (hclaim _ _ _ _ _ w hrun.run account a ha)

end CountedAgain

end CreditFabric
