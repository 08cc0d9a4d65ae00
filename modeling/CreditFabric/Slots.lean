import CreditFabric.InPlace
import CreditFabric.Tracking

namespace CreditFabric

open Std (ExtTreeMap)

/-!
# Decided outcomes and the slot of the caller

A client that reads `decided` moves on to the sequence number behind its request.  That is right
as long as the caller's watermark is there as well: behind an absorbed duplicate, behind a
conflict on a placed request and behind every published decision.  A request whose attempt
identity was decided under another sequence number is answered as decided too, in front of its
slot and with nothing written.
-/

namespace CreditEngine

variable {J : Type} [Journal J]

/-- A decided outcome of `r` over the accounts `m`: the caller's watermark has reached the
    request, and no client that adopts the outcome is ahead of it. -/
def SlotConsumed (r : CreditRequest) (o : CreditOutcome) (m : ExtTreeMap UInt64 AccountState) :
    Prop :=
  o.decided = true → ∃ a, m[r.authority.account]? = some a ∧
    r.sequence.toNat ≤ (a.countersAt r.authority.incarnation).last.toNat ∧
    ∀ client : CoordinatorClient, (client.adopt r o).nextSequence.toNat ≤
      (a.countersAt r.authority.incarnation).last.toNat + 1

/-- A request in front of its slot has an attempt identity that is not in the window. -/
def FreshIdentity (e : CreditEngine J) (r : CreditRequest) : Prop :=
  ∀ a, Found e r a → bindAuthority e.limits e.operatorIncarnation a r = none →
    a.window.find { incarnation := r.authority.incarnation, sequence := r.sequence } = none →
    (a.window.findByAttempt r.attempt).isSome = true →
    r.sequence.toNat ≤ (a.countersAt r.authority.incarnation).last.toNat

omit [Journal J] in
/-- Where the watermark is decides it. -/
theorem slotConsumed_of_last {r : CreditRequest} {o : CreditOutcome}
    {m : ExtTreeMap UInt64 AccountState} {a : AccountState}
    (ha : m[r.authority.account]? = some a)
    (hlast : r.sequence.toNat ≤ (a.countersAt r.authority.incarnation).last.toNat) :
    SlotConsumed r o m := by
  refine fun hdecided => ⟨a, ha, hlast, fun client => ?_⟩
  have hnext : (client.adopt r o).nextSequence = r.sequence + 1 := by
    unfold CoordinatorClient.adopt
    simp only [hdecided, if_true]
    split_ifs <;> rfl
  have hwrap : (r.sequence + 1).toNat ≤ r.sequence.toNat + 1 := by
    rw [UInt64.toNat_add]
    exact Nat.mod_le _ _
  rw [hnext]
  omega

/-- The call that answers as decided leaves the journal healthy. -/
theorem healthy_of_decided {e : CreditEngine J} {r : CreditRequest}
    (h : (e.apply r).1.decided = true) : (e.apply r).2.journalFailed = false := by
  cases hbefore : e.journalFailed with
  | true =>
    unfold apply at h
    simp only [hbefore, if_true] at h
    split_ifs at h <;> exact absurd (show false = true from h) (by decide)
  | false =>
    cases hafter : (e.apply r).2.journalFailed with
    | false => rfl
    | true =>
      rw [(undecided_of_latched hbefore hafter).1] at h
      exact absurd h (by decide)

omit [Journal J] in
/-- A duplicate has its key in the window. -/
theorem placeInSequence_duplicate {a : AccountState} {r : CreditRequest} {existing : WindowEntry}
    (h : placeInSequence a r = .duplicate existing) : a.window.find
      { incarnation := r.authority.incarnation, sequence := r.sequence } = some existing := by
  unfold placeInSequence at h
  cases hfind : a.window.find { incarnation := r.authority.incarnation, sequence := r.sequence } with
  | some entry =>
    rw [hfind] at h
    simp only at h
    split_ifs at h
    exact congrArg some (Placement.duplicate.inj h)
  | none =>
    rw [hfind] at h
    simp only at h
    split_ifs at h

omit [Journal J] in
/-- A conflict is one of the key or one of the attempt identity. -/
private theorem placeInSequence_conflict {a : AccountState} {r : CreditRequest}
    (h : placeInSequence a r = .conflict) :
    (∃ existing, a.window.find
      { incarnation := r.authority.incarnation, sequence := r.sequence } = some existing) ∨
    a.window.find { incarnation := r.authority.incarnation, sequence := r.sequence } = none ∧
      (a.window.findByAttempt r.attempt).isSome = true := by
  unfold placeInSequence at h
  cases hfind : a.window.find { incarnation := r.authority.incarnation, sequence := r.sequence } with
  | some existing => exact .inl ⟨existing, rfl⟩
  | none =>
    refine .inr ⟨rfl, ?_⟩
    rw [hfind] at h
    simp only at h
    split_ifs at h with hknown
    exact hknown

/-- A decided outcome means that the slot of the request was consumed if and only if the request
    does not reuse, in front of its slot, the attempt identity of a decision in the window. -/
theorem slotConsumed_iff {e : CreditEngine J} (hwindowed : AllWindowed e.accounts)
    (r : CreditRequest) :
    SlotConsumed r (e.apply r).1 (e.apply r).2.accounts ↔ FreshIdentity e r := by
  -- what the window knows lies behind the last sequence
  have hbehind : ∀ {a : AccountState} {existing : WindowEntry}, Found e r a →
      a.window.find { incarnation := r.authority.incarnation, sequence := r.sequence } =
        some existing →
      r.sequence.toNat ≤ (a.countersAt r.authority.incarnation).last.toNat := by
    intro a existing hfound hfind
    have hone := hwindowed _ a hfound.found
    exact hone.behind _ (hone.indexed.listed _ existing hfind)
  constructor
  -- a conflict of identities is answered as decided and moves nothing
  · intro hconsumed a hfound hbound hunplaced hknown
    have hconflict : placeInSequence a r = .conflict := by
      unfold placeInSequence
      rw [hunplaced]
      simp only [hknown, if_true]
    have hsame : e.apply r =
        ((CreditOutcome.ofRequest r).decidedRefusal .attemptConflict r.sequence, e) := by
      rw [apply_of_found hfound]
      unfold applyToAccount
      simp only [hbound, hconflict]
    rw [hsame] at hconsumed
    obtain ⟨a', ha', hlast, -⟩ := hconsumed rfl
    rw [show a' = a from Option.some.inj (ha'.symm.trans hfound.found)] at hlast
    exact hlast
  · intro hfresh hdecided
    have hhealthy := healthy_of_decided hdecided
    have hanswer := apply_answer e r
    generalize e.apply r = result at hanswer hhealthy hdecided ⊢
    -- every other answer that says decided has moved the last sequence
    cases hanswer with
    | described =>
      rw [describe_undecided] at hdecided
      exact absurd hdecided (by decide)
    | absorbed a found bound existing h =>
      exact slotConsumed_of_last found.found
        (hbehind found (placeInSequence_duplicate h)) hdecided
    | conflict a found bound h =>
      refine slotConsumed_of_last found.found ?_ hdecided
      rcases placeInSequence_conflict h with ⟨existing, hfind⟩ | ⟨hnone, hknown⟩
      · exact hbehind found hfind
      · exact hfresh a found bound hnone hknown
    | opened h =>
      refine slotConsumed_of_last (settleOpen_of_healthy h hhealthy).2 ?_ hdecided
      rw [last_publishedOpen]
    | decided a h =>
      obtain ⟨houtcome, haccount⟩ := settleDecision_of_healthy hhealthy
      refine slotConsumed_of_last haccount ?_ hdecided
      rw [last_decidedAccount h fun s x hd => ?_]
      rw [houtcome, hd] at hdecided
      exact absurd (show false = true from hdecided) (by decide)
    | _ => exact absurd (show false = true from hdecided) (by decide)

end CreditEngine

open CreditEngine in
/-- **Decided is consumed.**  In every state of a deployment and for every request, a decided
    outcome means that the caller's watermark has reached the request if and only if the request
    does not reuse, in front of its slot, the attempt identity of a decision in the window. -/
theorem Deployment.decided_consumed_iff {J : Type} [Journal J] {limits : EngineLimits}
    {journal : J} {operator : Incarnation} {nonce : Digest128} {acts : List Act}
    {w : Deployment J} (hrun : Run (start limits journal operator nonce) acts w)
    (hn : acts.length ≤ 2 ^ 60) (r : CreditRequest) :
    SlotConsumed r (w.engine.apply r).1 (w.engine.apply r).2.accounts ↔
      FreshIdentity w.engine r := by
  have hkept := hrun.kept hn
  exact slotConsumed_iff hkept.windowed r

namespace ReusedIdentity

open Fixture CreditEngine

/-- The boot's nonce. -/
def nonce : Digest128 := ⟨0x37, 0x73⟩

/-- An Issue in its place, under the attempt identity of the Open. -/
def reused : CreditRequest :=
  { request nonce me .issue 2 with attempt := (request nonce me .open_ 1).attempt }

/-- The deployment behind a first boot and an Open. -/
theorem exists_opened : ∃ w : Deployment InMemoryJournal,
    Deployment.Run (Deployment.start {} {} me nonce)
      [.restart, .call (request nonce me .open_ 1)] w ∧
    w.engine = (boot {} (Observed.mk ({} : InMemoryJournal) []) nonce).run
      [request nonce me .open_ 1] := by
  obtain ⟨w, hrun, hengine⟩ := Deployment.exists_runWhere (C := fun _ _ => True) {} nonce
    [request nonce me .open_ 1] ⟨trivial, trivial⟩
  exact ⟨w, hrun.run, hengine⟩

/-- An Issue of its own identity behind the Open is decided and consumes its slot. -/
theorem issue_consumed : ∃ w : Deployment InMemoryJournal,
    (w.engine.apply (request nonce me .issue 2)).1.decided = true ∧
    (SlotConsumed (request nonce me .issue 2) (w.engine.apply (request nonce me .issue 2)).1
        (w.engine.apply (request nonce me .issue 2)).2.accounts ↔
      FreshIdentity w.engine (request nonce me .issue 2)) := by
  obtain ⟨w, hrun, hengine⟩ := exists_opened
  refine ⟨w, ?_, Deployment.decided_consumed_iff hrun (by decide) _⟩
  rw [hengine]
  decide +kernel

/-- The reused identity is answered as decided in front of its slot. -/
theorem reused_not_consumed : ¬ ∀ (limits : EngineLimits) (journal : InMemoryJournal)
    (operator : Incarnation) (nonce : Digest128) (acts : List Deployment.Act)
    (w : Deployment InMemoryJournal) (r : CreditRequest),
    Deployment.Run (Deployment.start limits journal operator nonce) acts w →
    SlotConsumed r (w.engine.apply r).1 (w.engine.apply r).2.accounts := by
  intro hclaim
  obtain ⟨w, hrun, hengine⟩ := exists_opened
  have hconsumed := hclaim _ _ _ _ _ w reused hrun
  have hdecided : (((boot {} (Observed.mk ({} : InMemoryJournal) []) nonce).run
      [request nonce me .open_ 1]).apply reused).1.decided = true := by decide +kernel
  have hbehind : ((((boot {} (Observed.mk ({} : InMemoryJournal) []) nonce).run
      [request nonce me .open_ 1]).apply reused).2.accounts[reused.authority.account]?).all
        (fun (a : AccountState) =>
          (a.countersAt reused.authority.incarnation).last.toNat < reused.sequence.toNat) =
      true := by decide +kernel
  rw [← hengine] at hdecided hbehind
  obtain ⟨a, ha, hlast, -⟩ := hconsumed hdecided
  rw [ha, Option.all_some, decide_eq_true_eq] at hbehind
  exact absurd hlast (Nat.not_le.mpr hbehind)

end ReusedIdentity

end CreditFabric
