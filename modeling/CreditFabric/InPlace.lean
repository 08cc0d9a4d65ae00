import CreditFabric.FileJournal
import CreditFabric.Isolation
import CreditFabric.Liveness
import CreditFabric.Once
import CreditFabric.Operator
import CreditFabric.Windowed

namespace CreditFabric

open Std (ExtTreeMap)
open Lib Lib.Decoder

/-!
# Requests at the place of their caller

A request at the place behind its caller's watermark, under an identity no window knows, is not
refused for its place (`apply_inPlace`).  None of the other refusals of a call, of its journal
or of the decoder in front of it is of that kind.

* `AllUnknown` is kept while the identities it is about are not presented.
* `AllAside` compares the accounts around a call with respect to one incarnation; a call of
  another one, and one that is not decided, moves no watermark of it and reconciles it nowhere
  (`apply_aside`).
-/

/-- The status says nothing against the place of a request. -/
def InPlace (s : Status) : Prop := refusesPlace s.reason = false

/-- What is final is answered in place. -/
theorem Final.inPlace {s : Status} (h : Final s) : InPlace s := h.2

/-- The status ends a call without a success. -/
structure Dismissed (s : Status) : Prop where
  final : Final s
  failed : s.ok = false

/-! ### The refusals in front of a decision -/

/-- A request that is not valid is answered in place. -/
theorem validateRequest_inPlace {limits : EngineLimits} {r : CreditRequest} {s : Status}
    (h : validateRequest limits r = some s) : InPlace s := by
  unfold validateRequest at h
  split_ifs at h
  all_goals
    cases h
    rfl

/-- It is not answered with Ok. -/
theorem validateRequest_failed {limits : EngineLimits} {r : CreditRequest} {s : Status}
    (h : validateRequest limits r = some s) : s.ok = false := by
  unfold validateRequest at h
  split_ifs at h
  all_goals
    cases h
    rfl

/-- An incarnation that is not bound is answered in place. -/
private theorem bindIncarnation_inPlace {limits : EngineLimits} {a : AccountState}
    {r : CreditRequest} {s : Status} (h : bindIncarnation limits a r = some s) : InPlace s := by
  unfold bindIncarnation at h
  cases hfind : a.findIncarnation r.authority.incarnation with
  | none =>
    simp only [hfind] at h
    split_ifs at h
    all_goals
      cases h
      rfl
  | some record =>
    simp only [hfind] at h
    split_ifs at h
    all_goals
      cases h
      rfl

/-- An authority that is not bound is answered in place. -/
theorem bindAuthority_inPlace {limits : EngineLimits} {operator : Incarnation}
    {a : AccountState} {r : CreditRequest} {s : Status}
    (h : bindAuthority limits operator a r = some s) : InPlace s := by
  unfold bindAuthority at h
  cases hbind : bindIncarnation limits a r with
  | none =>
    simp only [hbind] at h
    split_ifs at h
    all_goals
      cases h
      rfl
  | some refusal =>
    simp only [hbind] at h
    split_ifs at h
    · cases h
      rfl
    · cases h
      rfl
    · cases h
      exact bindIncarnation_inPlace hbind

/-- An Open at place one. -/
theorem validateOpen_inPlace {limits : EngineLimits} {challenge : ReconciliationChallenge}
    {accounts : ExtTreeMap UInt64 AccountState} {r : CreditRequest} {s : Status}
    (hseq : r.sequence = 1) (h : validateOpen limits challenge accounts r = some s) :
    InPlace s := by
  unfold validateOpen at h
  simp only [hseq, ne_eq, not_true_eq_false, if_false] at h
  split_ifs at h
  all_goals
    cases h
    rfl

/-- A control operation that is rejected is answered in place. -/
theorem decideControl_reject_inPlace {limits : EngineLimits} {a a' : AccountState}
    {r : CreditRequest} {s : Status} (h : decideControl limits a r = .reject s a') :
    InPlace s := by
  -- what the planner decides is a refusal or an application
  have hplanned : ∀ (mutate : LedgerPlan → Bool × LedgerPlan)
      (commit : LedgerPlan → AccountState), planned a mutate commit ≠ .reject s a' := by
    intro mutate commit hx
    unfold planned at hx
    simp only at hx
    split_ifs at hx
  unfold decideControl at h
  cases hop : r.op with
  | setCapacity | retire =>
    rw [hop] at h
    exact absurd h (hplanned _ _)
  | revalidate =>
    simp only [hop] at h
    split_ifs at h
    · cases h
      rfl
    · exact absurd h (hplanned _ _)
    · exact absurd h (hplanned _ _)
  | advanceEpoch | rotate =>
    -- a quarantine that fails does so by the ledger's own checks
    have hquarantined : InPlace (LedgerPlan.start a.capacity a.totals).quarantineInFlight.2.status :=
      (LedgerPlan.mutate_final (LedgerPlan.checkInvariants_final _ _) .quarantineInFlight).inPlace
    simp only [hop] at h
    split_ifs at h
    all_goals
      cases h
      first
        | rfl
        | exact hquarantined
  | retireIncarnation =>
    simp only [hop] at h
    cases hfind : a.findIncarnation r.target with
    | none =>
      simp only [hfind] at h
      split_ifs at h
      all_goals
        cases h
        rfl
    | some b =>
      simp only [hfind] at h
      split_ifs at h
      cases h
      rfl
  | exhaust | clearExhaustion | fence =>
    simp only [hop] at h
    split_ifs at h
    all_goals
      cases h
      rfl
  | _ =>
    rw [hop] at h
    cases h
    rfl

/-- So is a ledger operation. -/
private theorem decideLedger_reject_inPlace {a a' : AccountState} {r : CreditRequest} {s : Status}
    (h : decideLedger a r = .reject s a') : InPlace s := by
  -- the ledger itself decides
  have hledger : ∀ (verdict : Status) (x y : AccountState),
      (if !verdict.ok then Decision.refuse verdict x else .proceed y) ≠ .reject s a' := by
    intro verdict x y hx
    split_ifs at hx
  unfold decideLedger at h
  split_ifs at h with hop hexhausted hissue
  · cases h
    rfl
  · cases hfind : a.findIncarnation r.authority.incarnation with
    | none =>
      simp only [hfind, Option.map_none] at h
      cases h
      rfl
    | some b =>
      simp only [hfind, Option.map_some] at h
      cases hbind : (bindIssue b r).2 with
      | none =>
        simp only [hbind] at h
        exact absurd h (hledger _ _ _)
      | some refusal =>
        simp only [hbind] at h
        cases h
  · exact absurd h (hledger _ _ _)

namespace CreditEngine

/-- So is any decision. -/
theorem decision_reject_inPlace {J : Type} {e : CreditEngine J} {a a' : AccountState}
    {r : CreditRequest} {s : Status} (h : e.decision a r = .reject s a') : InPlace s := by
  unfold decision at h
  split_ifs at h with hcontrol hreconcile
  · exact decideControl_reject_inPlace h
  · unfold decideReconcile at h
    split_ifs at h
    cases h
    rfl
  · exact decideLedger_reject_inPlace h

end CreditEngine

/-! ### The decoder of requests -/

/-- A reader that is at its end dismisses the message. -/
theorem fails_truncated {α : Type} (d : Decoder ByteReader α) : (truncated d).Fails Dismissed :=
  fails_mapError fun _ => ⟨⟨rfl, rfl⟩, rfl⟩

/-- A malformed value dismisses the message. -/
theorem fails_malformed {α : Type} (o : Option α) (detail : UInt64) :
    (ofOption o (Status.refused .malformedMessage detail)).Fails Dismissed :=
  fails_ofOption ⟨⟨rfl, rfl⟩, rfl⟩

/-- A configuration that cannot be read dismisses the message. -/
private theorem decodeAccountConfig_fails : decodeAccountConfig.Fails Dismissed := by
  unfold decodeAccountConfig
  refine (fails_truncated _).bind fun ⟨c, profile⟩ => ?_
  exact (fails_malformed _ _).bind fun _ => fails_pure _ _

/-- So does the body of a request. -/
private theorem decodeRequestBody_fails (maxNoteBytes : Nat) :
    (decodeRequestBody maxNoteBytes).Fails Dismissed := by
  unfold decodeRequestBody
  refine (fails_truncated _).bind fun ⟨attempt, opRaw, sequence⟩ => ?_
  refine (fails_malformed _ _).bind fun op => (fails_truncated _).bind fun authority => ?_
  refine (fails_truncated _).bind fun presenter => ?_
  refine (fails_truncated _).bind fun ⟨resource, producer, consumer, grant, target, count, _⟩ => ?_
  refine (fails_truncated _).bind fun ⟨proof, expectedState⟩ => ?_
  refine decodeAccountConfig_fails.bind fun config => (fails_truncated _).bind fun decisionRaw => ?_
  refine (fails_malformed _ _).bind fun decision => (fails_truncated _).bind fun causeRaw => ?_
  refine (fails_malformed _ _).bind fun fenceCause => ?_
  refine Fails.bind (fails_mapError ?_) fun note => fails_pure _ _
  intro c
  exact ⟨⟨rfl, rfl⟩, rfl⟩

/-- A message that is not a request is dismissed. -/
theorem decodeRequestMessage_dismissed {payload : List UInt8} {maxNoteBytes : Nat} {s : Status}
    (h : decodeRequestMessage payload maxNoteBytes = .error s) : Dismissed s := by
  refine (decodeRequestBody_fails maxNoteBytes).run ?_ h
  intro c
  exact ⟨⟨rfl, rfl⟩, rfl⟩

/-! ### Journals -/

/-- A journal whose refusals are about itself. -/
class PlainJournal (J : Type) [Journal J] : Prop where
  append : ∀ (j : J) (t : JournalRecord), InPlace (Journal.append j t).1
  writeSnapshot : ∀ (j : J) (s : SnapshotImage), InPlace (Journal.writeSnapshot j s).1
  rotate : ∀ (j : J) (n : UInt64), InPlace (Journal.rotate j n).1

instance : PlainJournal InMemoryJournal where
  append j t := by
    show InPlace (j.append t).1
    unfold InMemoryJournal.append
    simp only
    split_ifs <;> rfl
  writeSnapshot j s := by
    show InPlace (j.writeSnapshot s).1
    unfold InMemoryJournal.writeSnapshot
    split_ifs <;> rfl
  rotate j n := rfl

namespace FileJournal

/-- An operation of the file fails in place. -/
theorem operation_inPlace (detail : UInt64) (j : FileJournal) :
    InPlace (j.operation detail).1 := by
  unfold operation
  simp only
  split_ifs <;> rfl

/-- A write fails in place. -/
theorem write_inPlace (detail : UInt64) (offset : Nat) (data : List UInt8) (j : FileJournal) :
    InPlace (j.write detail offset data).1 := by
  unfold write
  simp only
  cases j.nextFault.1 <;> rfl

/-- A truncation fails in place. -/
theorem truncateStream_inPlace (size : Nat) (j : FileJournal) :
    InPlace (j.truncateStream size).1 := by
  unfold truncateStream
  simp only
  split_ifs
  · exact operation_inPlace _ _
  · exact operation_inPlace _ _
  · rfl

/-- An append fails in place. -/
theorem append_inPlace (j : FileJournal) (t : JournalRecord) : InPlace (j.append t).1 := by
  unfold append
  simp only
  split_ifs
  all_goals
    first
      | rfl
      | exact operation_inPlace _ _
      | exact write_inPlace _ _ _ _

/-- The new header fails in place. -/
private theorem rewriteJournalHeader_inPlace (j : FileJournal) :
    InPlace j.rewriteJournalHeader.1 := by
  unfold rewriteJournalHeader
  simp only
  split_ifs
  · exact operation_inPlace _ _
  · exact write_inPlace _ _ _ _
  · exact operation_inPlace _ _

/-- A rotation fails in place. -/
theorem rotate_inPlace (j : FileJournal) (n : UInt64) : InPlace (j.rotate n).1 := by
  unfold rotate
  simp only
  split_ifs
  · rfl
  · exact rewriteJournalHeader_inPlace _
  · exact truncateStream_inPlace _ _
  · exact operation_inPlace _ _
  · rfl

/-- The temporary file fails in place. -/
private theorem writeTemporary_inPlace (payload : List UInt8) (j : FileJournal) :
    InPlace (writeTemporary payload j).1 := by
  unfold writeTemporary
  simp only
  split_ifs
  all_goals
    first
      | rfl
      | exact operation_inPlace _ _

/-- A snapshot fails in place. -/
theorem writeSnapshot_inPlace (j : FileJournal) (s : SnapshotImage) :
    InPlace (j.writeSnapshot s).1 := by
  unfold writeSnapshot
  simp only
  split_ifs
  all_goals
    first
      | rfl
      | exact operation_inPlace _ _
      | exact writeTemporary_inPlace _ _

end FileJournal

instance : PlainJournal FileJournal where
  append := FileJournal.append_inPlace
  writeSnapshot := FileJournal.writeSnapshot_inPlace
  rotate := FileJournal.rotate_inPlace

/-! ### The place behind the watermark -/

/-- An attempt that is not indexed is not found. -/
theorem findByAttempt_of_unknown {w : AttemptWindow} {id : AttemptId}
    (h : w.byAttempt[id]? = none) : w.findByAttempt id = none := by
  unfold AttemptWindow.findByAttempt
  rw [h]

/-- The successor of a word that does not wrap to zero. -/
private theorem lt_succ_of_ne_zero {w v : UInt64} (h : v = w + 1) (hv : v ≠ 0) :
    v.toNat = w.toNat + 1 := by
  subst h
  have hw := w.toNat_lt
  have hsum : (w + 1).toNat = (w.toNat + 1) % 2 ^ 64 := UInt64.toNat_add _ _
  have hzero : (w + 1).toNat ≠ 0 := fun h => hv (UInt64.toNat_inj.mp h)
  omega

/-- A fresh attempt on the next place is admitted. -/
theorem admitted_of_next {a : AccountState} {r : CreditRequest} (hwindowed : Windowed a)
    (hunknown : a.window.byAttempt[r.attempt]? = none)
    (hnext : r.sequence = (a.countersAt r.authority.incarnation).last + 1)
    (hzero : r.sequence ≠ 0) : placeInSequence a r = .admitted := by
  have hseq := lt_succ_of_ne_zero hnext hzero
  have hfind : a.window.find
      { incarnation := r.authority.incarnation, sequence := r.sequence } = none := by
    refine hwindowed.indexed.unknown (hwindowed.fresh ?_)
    show (a.countersAt r.authority.incarnation).last.toNat < r.sequence.toNat
    omega
  -- none of the three comparisons with the watermark holds
  have hchecks : ∀ last : UInt64, r.sequence = last + 1 → r.sequence.toNat = last.toNat + 1 →
      ¬ r.sequence ≤ last ∧ ¬ last + 1 < last ∧ ¬ r.sequence > last + 1 := by
    intro last hsucc hnat
    rw [← hsucc, UInt64.le_iff_toNat_le, UInt64.lt_iff_toNat_lt, gt_iff_lt,
      UInt64.lt_iff_toNat_lt]
    omega
  obtain ⟨hlow, hover, hhigh⟩ := hchecks _ hnext hseq
  have hunindexed := findByAttempt_of_unknown hunknown
  cases hb : a.incarnations[r.authority.incarnation]? with
  | none =>
    rw [AccountState.countersAt_of_none hb] at hlow hhigh
    have hone : r.sequence ≤ 1 := UInt64.not_lt.mp hhigh
    simp [placeInSequence, hfind, hunindexed, addOverflow, AccountState.findIncarnation, hb,
      hlow, hone]
  | some b =>
    rw [AccountState.countersAt_of_some hb] at hlow hover hhigh
    simp only [IncarnationRecord.counters] at hlow hover hhigh
    simp [placeInSequence, hfind, hunindexed, addOverflow, AccountState.findIncarnation, hb,
      hlow, hover, hhigh]

/-! ### The answer to a request in its place -/

namespace CreditEngine

section Answer

variable {J : Type} [Journal J] [PlainJournal J]

/-- A snapshot of the engine fails in place. -/
private theorem snapshotted_inPlace {e e' : CreditEngine J} {s : Status} (h : Snapshotted e s e') :
    InPlace s := by
  cases h with
  | appendFailed => exact PlainJournal.append _ _
  | writeFailed => exact PlainJournal.writeSnapshot _ _
  | rotateFailed => exact PlainJournal.rotate _ _
  | durable => rfl

/-- A commit fails in place. -/
private theorem persistLocked_inPlace (e : CreditEngine J) (r : CreditRequest) (o : CreditOutcome)
    (a : AccountState) (c : Bool) : InPlace (e.persistLocked r o a c).1 := by
  have hpersisted := persistLocked_persisted e r o a c
  generalize e.persistLocked r o a c = result at hpersisted ⊢
  obtain ⟨s, e'⟩ := result
  cases hpersisted with
  | appendFailed happended =>
    cases happended with
    | intentFailed => exact PlainJournal.append _ _
    | attemptFailed => exact PlainJournal.append _ _
    | durable => rfl
  | kept => rfl
  | rotated _ _ _ hsnap => exact snapshotted_inPlace hsnap

/-- What is settled is answered in place, committed or not. -/
theorem settle_inPlace {e : CreditEngine J} {r : CreditRequest} {o : CreditOutcome}
    {a : AccountState} {c : Bool} {rollback publish : CreditEngine J → CreditEngine J}
    (h : InPlace o.status) : InPlace (e.settle r o a c rollback publish).1.status := by
  unfold settle
  simp only
  split_ifs
  · exact persistLocked_inPlace e r o a c
  · exact h

/-- What the checks in front of a decision find, when nothing stands against the place. -/
def AtPlace (e : CreditEngine J) (r : CreditRequest) : Prop :=
  ∀ a, Found e r a → bindAuthority e.limits e.operatorIncarnation a r = none →
    placeInSequence a r = .admitted

/-- **A request at its place is not refused for it.** -/
theorem apply_inPlace {e : CreditEngine J} {r : CreditRequest}
    (hopen : r.op = .open_ → r.sequence = 1) (hplace : e.AtPlace r) :
    InPlace (e.apply r).1.status := by
  have hanswer := apply_answer e r
  generalize e.apply r = result at hanswer ⊢
  cases hanswer with
  | unrecovered => rfl
  | latched => rfl
  | invalid s h => exact validateRequest_inPlace h
  | described =>
    unfold describe
    cases e.accounts[r.authority.account]? with
    | none => rfl
    | some a =>
      simp only
      split_ifs <;> rfl
  | unopened op s h => exact validateOpen_inPlace (hopen op) h
  | unknown => rfl
  | unbound a found s h => exact bindAuthority_inPlace h
  | absorbed a found bound existing h =>
    exact absurd ((hplace a found bound).symm.trans h) (by simp)
  | conflict a found bound h => exact absurd ((hplace a found bound).symm.trans h) (by simp)
  | displaced a found bound s h => exact absurd ((hplace a found bound).symm.trans h) (by simp)
  | unproved => rfl
  | opened h => exact settle_inPlace rfl
  | decided a h =>
    unfold settleDecision follow
    cases hd : e.decision a r with
    | reject s a' => exact decision_reject_inPlace hd
    | refuse s a' => exact settle_inPlace (decision_final hd).inPlace
    | proceed a' => exact settle_inPlace rfl

end Answer

/-! ### Identities that no window knows -/

section Unknown

variable {J : Type} [Journal J] {P : AttemptId → Prop}

/-- No window knows an identity with the property. -/
def AllUnknown (P : AttemptId → Prop) (accounts : ExtTreeMap UInt64 AccountState) : Prop :=
  ∀ (key : UInt64) (a : AccountState), accounts[key]? = some a →
    ∀ id, P id → a.window.byAttempt[id]? = none

/-- An account that does not know them among accounts that do not. -/
theorem AllUnknown.insert {accounts : ExtTreeMap UInt64 AccountState}
    (h : AllUnknown P accounts) {key : UInt64} {a : AccountState}
    (ha : ∀ id, P id → a.window.byAttempt[id]? = none) : AllUnknown P (accounts.insert key a) := by
  intro key' a' hget
  by_cases hkey : key' = key
  · rw [hkey, ExtTreeMap.getElem?_insert_self, Option.some.injEq] at hget
    rw [← hget]
    exact ha
  · rw [Lib.getElem?_insert_of_ne _ _ hkey] at hget
    exact h key' a' hget

/-- A published decision makes no other identity known. -/
theorem unknown_publish {w : AttemptWindow} {r : CreditRequest} {o : CreditOutcome}
    (hindexed : w.Indexed) (hfresh : (windowEntry r o).key ∉ w.order) (hattempt : ¬ P r.attempt)
    (h : ∀ id, P id → w.byAttempt[id]? = none) :
    ∀ id, P id → (w.insert (windowEntry r o)).byAttempt[id]? = none := by
  intro id hid
  have hne : id ≠ (windowEntry r o).attempt := by
    rintro rfl
    exact hattempt hid
  rw [(AttemptWindow.insert_spec hindexed hfresh).2.2.2, if_neg hne, h id hid, ite_self]

omit [Journal J] in
/-- A published decision makes no other attempt known. -/
theorem Admitted.unknown_publish {e : CreditEngine J} {r : CreditRequest} {a : AccountState}
    (h : Admitted e r a) (hwindowed : Windowed a) (hattempt : ¬ P r.attempt)
    (hunknown : ∀ id, P id → a.window.byAttempt[id]? = none) (o : CreditOutcome) :
    ∀ id, P id → ((e.decision a r).account.window.insert (windowEntry r o)).byAttempt[id]? =
      none := by
  have hseq := sequence_of_admitted h.placed
  have hfresh : (windowEntry r o).key ∉ a.window.order := by
    refine hwindowed.fresh ?_
    show (a.countersAt r.authority.incarnation).last.toNat < r.sequence.toNat
    omega
  rw [(decision_unwritten e a r).1]
  exact CreditEngine.unknown_publish hwindowed.indexed hfresh hattempt hunknown

/-- **Step lemma.**  An identity that is not presented stays unknown. -/
theorem apply_unknown {e : CreditEngine J} (h : AllUnknown P e.accounts)
    (hwindowed : AllWindowed e.accounts) {r : CreditRequest} (hattempt : ¬ P r.attempt) :
    AllUnknown P (e.apply r).2.accounts := by
  -- a decision does not touch the window
  have hdecision : ∀ a, Admitted e r a → ∀ id, P id →
      (e.decision a r).account.window.byAttempt[id]? = none := by
    intro a hadmitted
    rw [(decision_unwritten e a r).1]
    exact h _ a hadmitted.found
  have hpublish := fun a (hadmitted : Admitted e r a) o => hadmitted.unknown_publish
    (hwindowed _ a hadmitted.found) hattempt (h _ a hadmitted.found) o
  cases (apply_accounts e r).1 with
  | same _ accounts =>
    rw [accounts]
    exact h
  | rejected a hadmitted s a' hd _ accounts =>
    have hsame := hdecision a hadmitted
    rw [hd] at hsame
    rw [accounts]
    exact h.insert hsame
  -- the window of the new account holds the Open alone
  | opened hopens _ accounts =>
    rw [accounts]
    refine h.insert ?_
    unfold publishedOpen
    rw [window_publishWindow]
    exact CreditEngine.unknown_publish (AttemptWindow.make_indexed _) List.not_mem_nil hattempt
      fun id _ => ExtTreeMap.getElem?_empty
  | refused a hadmitted s a' hd _ accounts =>
    have hinsert := hpublish a hadmitted (refusalOutcome a r s a')
    rw [hd] at hinsert
    rw [accounts]
    refine h.insert ?_
    rw [window_refusedAccount]
    exact hinsert
  | refusalUndone a hadmitted s a' hd _ _ accounts =>
    have hsame := hdecision a hadmitted
    rw [hd] at hsame
    rw [accounts]
    exact h.insert hsame
  | applied a hadmitted a' hd _ accounts =>
    have hinsert := hpublish a hadmitted (applicationOutcome a r a')
    rw [hd] at hinsert
    rw [accounts]
    refine h.insert ?_
    rw [window_appliedAccount]
    exact hinsert
  | undone a hadmitted a' hd _ _ accounts =>
    have hsame := hdecision a hadmitted
    rw [hd] at hsame
    rw [accounts]
    refine h.insert ?_
    rw [window_restoredAccount]
    exact hsame

end Unknown

end CreditEngine

/-! ### One incarnation, around the calls of others -/

/-- The incarnation is Reconciled on the account. -/
def AccountState.isReconciled (a : AccountState) (i : IncarnationId) : Bool :=
  (a.findIncarnation i).any fun b => b.state == .reconciled

/-- The record says reconciled. -/
theorem AccountState.isReconciled_iff {a : AccountState} {i : IncarnationId} :
    a.isReconciled i = true ↔ ∃ b, a.incarnations[i]? = some b ∧ b.state = .reconciled := by
  unfold isReconciled findIncarnation
  rw [Option.any_eq_true]
  simp only [beq_iff_eq]

/-- From `a` to `a'` the watermark of the incarnation stays, and it is not reconciled. -/
structure Aside (i : IncarnationId) (a a' : AccountState) : Prop where
  domain : a'.domain = a.domain
  last : (a'.countersAt i).last = (a.countersAt i).last
  reconciled : a'.isReconciled i = true → a.isReconciled i = true

/-- Nothing has happened. -/
theorem Aside.refl (i : IncarnationId) (a : AccountState) : Aside i a a := ⟨rfl, rfl, id⟩

/-- One step aside and another. -/
theorem Aside.trans {i : IncarnationId} {a a' a'' : AccountState} (h : Aside i a a')
    (h' : Aside i a' a'') : Aside i a a'' where
  domain := h'.domain.trans h.domain
  last := h'.last.trans h.last
  reconciled hr := h.reconciled (h'.reconciled hr)

/-- Bookkeeping for another incarnation. -/
theorem Aside.congr {i : IncarnationId} {a a' x : AccountState} (h : Aside i a a')
    (hdomain : x.domain = a'.domain) (hrecord : x.incarnations[i]? = a'.incarnations[i]?) :
    Aside i a x where
  domain := hdomain.trans h.domain
  last := by
    rw [← h.last]
    unfold AccountState.countersAt
    rw [hrecord]
  reconciled hr := by
    refine h.reconciled ?_
    unfold AccountState.isReconciled AccountState.findIncarnation at hr ⊢
    rw [← hrecord]
    exact hr

/-- The same for all accounts; the incarnation is not reconciled on a new one. -/
structure AllAside (i : IncarnationId) (accounts accounts' : ExtTreeMap UInt64 AccountState) :
    Prop where
  kept : ∀ (key : UInt64) (a : AccountState), accounts[key]? = some a →
    ∃ a', accounts'[key]? = some a' ∧ Aside i a a'
  fresh : ∀ (key : UInt64) (a' : AccountState), accounts[key]? = none →
    accounts'[key]? = some a' → a'.isReconciled i = false

namespace AllAside

variable {i : IncarnationId} {accounts accounts' accounts'' : ExtTreeMap UInt64 AccountState}

/-- Nothing has happened to any account. -/
theorem refl (i : IncarnationId) (accounts : ExtTreeMap UInt64 AccountState) :
    AllAside i accounts accounts where
  kept key a ha := ⟨a, ha, .refl i a⟩
  fresh key a' hnone ha' := absurd (hnone.symm.trans ha') (by simp)

/-- One step aside and another, on every account. -/
theorem trans (h : AllAside i accounts accounts') (h' : AllAside i accounts' accounts'') :
    AllAside i accounts accounts'' where
  kept key a ha := by
    obtain ⟨a', ha', haside⟩ := h.kept key a ha
    obtain ⟨a'', ha'', haside'⟩ := h'.kept key a' ha'
    exact ⟨a'', ha'', haside.trans haside'⟩
  fresh key a'' hnone ha'' := by
    cases ha' : accounts'[key]? with
    | none => exact h'.fresh key a'' ha' ha''
    | some a' =>
      -- opened in the first stretch, and not reconciled in the second one
      obtain ⟨x, hx, haside⟩ := h'.kept key a' ha'
      have hsame : x = a'' := Option.some.inj (hx.symm.trans ha'')
      subst hsame
      have hfresh := h.fresh key a' hnone ha'
      by_contra hr
      rw [haside.reconciled (Bool.not_eq_false _ ▸ hr)] at hfresh
      exact absurd hfresh (by decide)

/-- One account is written. -/
theorem insert {key : UInt64} {a' : AccountState}
    (hkept : ∀ a, accounts[key]? = some a → Aside i a a')
    (hfresh : accounts[key]? = none → a'.isReconciled i = false) :
    AllAside i accounts (accounts.insert key a') where
  kept key' a ha := by
    by_cases hkey : key' = key
    · subst hkey
      exact ⟨a', ExtTreeMap.getElem?_insert_self, hkept a ha⟩
    · exact ⟨a, (Lib.getElem?_insert_of_ne _ _ hkey).trans ha, .refl i a⟩
  fresh key' x hnone hx := by
    by_cases hkey : key' = key
    · subst hkey
      rw [ExtTreeMap.getElem?_insert_self, Option.some.injEq] at hx
      rw [← hx]
      exact hfresh hnone
    · rw [Lib.getElem?_insert_of_ne _ _ hkey, hnone] at hx
      cases hx

end AllAside

namespace CreditEngine

section Others

variable {J : Type}

/-- A decision reconciles its caller only, and only when it is carried through. -/
theorem decision_aside (e : CreditEngine J) (a : AccountState) (r : CreditRequest)
    {i : IncarnationId}
    (h : i ≠ r.authority.incarnation ∨ ∀ a', e.decision a r ≠ .proceed a') :
    Aside i a (e.decision a r).account where
  domain := (decision_unwritten e a r).2
  last := by rw [(decision_sameCounters e a r).records i]
  reconciled hr := by
    obtain ⟨b', hb', hstate⟩ := AccountState.isReconciled_iff.mp hr
    have hstep := decision_record e a r i
    rw [hb'] at hstep
    rcases Deployment.RecordStep.reconciled_from hstep hstate with
      ⟨b, hb, hb_state, -⟩ | ⟨-, hi, ⟨a', hd⟩, -⟩
    · exact AccountState.isReconciled_iff.mpr ⟨b, hb, hb_state⟩
    · rcases h with hne | hnone
      · exact absurd hi hne
      · exact absurd hd (hnone a')

/-- **A call moves no other incarnation, and its own one only when it is decided.** -/
theorem apply_aside [Journal J] {e : CreditEngine J} {r : CreditRequest} {i : IncarnationId}
    (hhealthy : (e.apply r).2.journalFailed = false)
    (h : r.authority.incarnation ≠ i ∨ (e.apply r).1.decided = false) :
    AllAside i e.accounts (e.apply r).2.accounts := by
  have hafter := (apply_accounts e r).1
  generalize e.apply r = result at hafter hhealthy h ⊢
  have hothers : result.1.decided = true → i ≠ r.authority.incarnation := by
    intro hdecided
    rcases h with hne | hundecided
    · exact fun hi => hne hi.symm
    · rw [hdecided] at hundecided
      exact absurd hundecided (by decide)
  -- the account is there, so nothing is said of a new one
  have hknown : ∀ {a x : AccountState}, e.accounts[r.authority.account]? = some a →
      Aside i a x → AllAside i e.accounts (e.accounts.insert r.authority.account x) := by
    intro a x ha haside
    refine .insert (fun a' ha' => ?_) fun hnone => absurd (hnone.symm.trans ha) (by simp)
    rw [← Option.some.inj (ha.symm.trans ha')]
    exact haside
  cases hafter with
  | same _ accounts =>
    rw [accounts]
    exact .refl i _
  | rejected a hadmitted s a' hd _ accounts =>
    have haside := decision_aside e a r (i := i) (.inr (by simp [hd]))
    rw [hd] at haside
    rw [accounts]
    exact hknown hadmitted.found haside
  | opened hopens outcome accounts =>
    have hi := hothers (by rw [outcome]; rfl)
    rw [accounts]
    refine .insert (fun a ha => ?_) fun _ => ?_
    · exact absurd (hopens.fresh.1.symm.trans ha) (by simp)
    · have hnone : (e.publishedOpen r).incarnations[i]? = none := by
        unfold publishedOpen
        rw [AccountState.getElem?_publishWindow, if_neg hi]
        exact (Lib.getElem?_insert_of_ne _ _ hi).trans ExtTreeMap.getElem?_empty
      unfold AccountState.isReconciled AccountState.findIncarnation
      rw [hnone]
      rfl
  | refused a hadmitted s a' hd outcome accounts =>
    have hi := hothers (by rw [outcome]; rfl)
    have haside := decision_aside e a r (i := i) (.inl hi)
    rw [hd] at haside
    rw [accounts]
    refine hknown hadmitted.found (haside.congr ?_ ?_)
    · exact (refusedAccount_sameStanding e.limits a' r _).domain
    · rw [getElem?_refusedAccount, if_neg hi]
      rfl
  | refusalUndone _ _ _ _ _ _ latched =>
    rw [latched] at hhealthy
    exact absurd hhealthy (by decide)
  | applied a hadmitted a' hd outcome accounts =>
    have hi := hothers (by rw [outcome]; rfl)
    have haside := decision_aside e a r (i := i) (.inl hi)
    rw [hd] at haside
    rw [accounts]
    refine hknown hadmitted.found (haside.congr ?_ ?_)
    · exact (appliedAccount_sameStanding a r a').domain
    · rw [getElem?_appliedAccount, if_neg hi]
      rfl
  | undone _ _ _ _ _ latched =>
    rw [latched] at hhealthy
    exact absurd hhealthy (by decide)

end Others

/-! ### The caller's own decisions -/

section Own

variable {J : Type}

/-- A published decision stands at the watermark of its caller. -/
theorem last_decidedAccount {e : CreditEngine J} {r : CreditRequest} {a : AccountState}
    (h : Admitted e r a) (hd : ∀ s a', e.decision a r ≠ .reject s a') :
    ((decidedAccount e.limits a r (e.decision a r)).countersAt r.authority.incarnation).last =
      r.sequence := by
  obtain ⟨b, hb⟩ := decision_caller_known h hd
  cases hdecision : e.decision a r with
  | reject s a' => exact absurd hdecision (hd s a')
  | refuse s a' =>
    rw [hdecision] at hb
    have hget := getElem?_refusedAccount e.limits a' r (refusalOutcome a r s a')
      r.authority.incarnation
    rw [if_pos rfl, show a'.incarnations[r.authority.incarnation]? = some b from hb] at hget
    exact congrArg Counters.last (AccountState.countersAt_of_some hget)
  | proceed a' =>
    rw [hdecision] at hb
    have hget := getElem?_appliedAccount a r a' r.authority.incarnation
    rw [if_pos rfl, show a'.incarnations[r.authority.incarnation]? = some b from hb] at hget
    exact congrArg Counters.last (AccountState.countersAt_of_some hget)

/-- An opened account has its opener at the place of the Open. -/
theorem last_publishedOpen (e : CreditEngine J) (r : CreditRequest) :
    ((e.publishedOpen r).countersAt r.authority.incarnation).last = r.sequence := by
  have hget := AccountState.getElem?_publishWindow (openedAccount e.limits r) r
    (e.openOutcome r) r.authority.incarnation
  have hopener : (openedAccount e.limits r).incarnations[r.authority.incarnation]? = some
      { markReconciled (freshRecord r) r.authority.epoch r.authority.generation r.proof with
        committedOps := 1 } := ExtTreeMap.getElem?_insert_self
  rw [if_pos rfl, hopener] at hget
  exact congrArg Counters.last (AccountState.countersAt_of_some hget)

/-- A Describe is never decided. -/
theorem describe_undecided (e : CreditEngine J) (r : CreditRequest) :
    (e.describe r (.ofRequest r)).decided = false := by
  unfold describe
  cases e.accounts[r.authority.account]? with
  | none => rfl
  | some a =>
    simp only
    split_ifs <;> rfl

/-- **A request decided in its place is the last one of its caller.** -/
theorem apply_last [Journal J] {e : CreditEngine J} {r : CreditRequest} (hplace : e.AtPlace r)
    (hhealthy : (e.apply r).2.journalFailed = false)
    (hdecided : (e.apply r).1.decided = true) {a' : AccountState}
    (ha' : (e.apply r).2.accounts[r.authority.account]? = some a') :
    (a'.countersAt r.authority.incarnation).last = r.sequence := by
  have hanswer := apply_answer e r
  generalize e.apply r = result at hanswer hhealthy hdecided ha'
  cases hanswer with
  | described =>
    rw [describe_undecided] at hdecided
    exact absurd hdecided (by decide)
  | absorbed a found bound existing h =>
    exact absurd ((hplace a found bound).symm.trans h) (by simp)
  | conflict a found bound h => exact absurd ((hplace a found bound).symm.trans h) (by simp)
  | opened h =>
    have haccount := (settleOpen_of_healthy h hhealthy).2
    rw [← Option.some.inj (haccount.symm.trans ha')]
    exact last_publishedOpen e r
  | decided a h =>
    obtain ⟨houtcome, haccount⟩ := settleDecision_of_healthy hhealthy
    rw [← Option.some.inj (haccount.symm.trans ha')]
    refine last_decidedAccount h fun s x hd => ?_
    rw [houtcome, hd] at hdecided
    exact absurd (show false = true from hdecided) (by decide)
  | _ => exact absurd (show false = true from hdecided) (by decide)

end Own

/-! ### Batches of other callers -/

section Batches

variable {J : Type} [Journal J]

/-- A request that is not valid is never decided. -/
theorem apply_of_invalid {e : CreditEngine J} {r : CreditRequest} {s : Status}
    (h : validateRequest e.limits r = some s) : (e.apply r).1.decided = false := by
  unfold apply applyLocked
  simp only [h]
  split_ifs <;> rfl

/-- A Describe changes nothing; it is refused in front of the accounts or answered from them. -/
theorem apply_of_describe (e : CreditEngine J) {r : CreditRequest} (hop : r.op = .describe) :
    (e.apply r).2 = e ∧ (((e.apply r).1.status.ok = false ∧ (e.apply r).1.decided = false ∧
        ¬ (e.recovered = true ∧ e.journalFailed = false ∧ validateRequest e.limits r = none)) ∨
      (validateRequest e.limits r = none ∧ (e.apply r).1 = e.describe r (.ofRequest r))) := by
  unfold apply applyLocked
  cases hrecovered : e.recovered with
  | false => exact ⟨rfl, .inl ⟨rfl, rfl, by simp⟩⟩
  | true =>
  cases hhealthy : e.journalFailed with
  | true => exact ⟨rfl, .inl ⟨rfl, rfl, by simp⟩⟩
  | false =>
  cases hvalid : validateRequest e.limits r with
  | some s => exact ⟨rfl, .inl ⟨validateRequest_failed hvalid, rfl, by simp⟩⟩
  | none =>
    simp only [hop, if_true]
    exact ⟨rfl, .inr ⟨trivial, rfl⟩⟩

omit [Journal J] in
/-- A description gives the watermark of the incarnation. -/
theorem describe_ok {e : CreditEngine J} {r : CreditRequest}
    (h : (e.describe r (.ofRequest r)).status.ok = true) :
    ∃ a, e.accounts[r.authority.account]? = some a ∧
      (e.describe r (.ofRequest r)).sequence = (a.countersAt r.authority.incarnation).last := by
  unfold describe at h ⊢
  cases ha : e.accounts[r.authority.account]? with
  | none =>
    rw [ha] at h
    exact absurd (show false = true from h) (by decide)
  | some a =>
    simp only [ha] at h ⊢
    by_cases hdomain : r.authority.domain ≠ a.domain
    · rw [if_pos hdomain] at h
      exact absurd (show false = true from h) (by decide)
    · rw [if_neg hdomain]
      refine ⟨a, rfl, ?_⟩
      unfold AccountState.findIncarnation AccountState.countersAt
      cases a.incarnations[r.authority.incarnation]? <;> rfl

omit [Journal J] in
/-- An account of the domain of the request is described. -/
theorem describe_of_found {e : CreditEngine J} {r : CreditRequest} {a : AccountState}
    (ha : e.accounts[r.authority.account]? = some a) (hdomain : a.domain = r.authority.domain) :
    (e.describe r (.ofRequest r)).status.ok = true := by
  unfold describe
  simp only [ha, hdomain, ne_eq, not_true_eq_false, if_false]
  rfl

/-- The windows are well formed behind a run. -/
theorem run_windowed {e : CreditEngine J} (h : AllWindowed e.accounts)
    (rs : List CreditRequest) : AllWindowed (e.run rs).accounts :=
  run_induction (P := fun e => AllWindowed e.accounts) h (fun _ r h => apply_windowed h r) rs

/-- Attempts that a run does not present stay unknown. -/
theorem run_unknown {P : AttemptId → Prop} {e : CreditEngine J} {rs : List CreditRequest}
    (hwindowed : AllWindowed e.accounts) (hattempts : ∀ r ∈ rs, ¬ P r.attempt)
    (h : AllUnknown P e.accounts) : AllUnknown P (e.run rs).accounts := by
  induction rs generalizing e with
  | nil => exact h
  | cons r rs ih =>
    have hr := hattempts r List.mem_cons_self
    exact ih (apply_windowed hwindowed r) (fun r' hr' => hattempts r' (List.mem_cons_of_mem _ hr'))
      (apply_unknown h hwindowed hr)

/-- **The calls of other incarnations move no watermark of this one, and reconcile it
    nowhere.** -/
theorem run_aside {e : CreditEngine J} {i : IncarnationId} {rs : List CreditRequest}
    (hothers : ∀ r ∈ rs, r.presenter.id ≠ i) (hhealthy : (e.run rs).journalFailed = false) :
    AllAside i e.accounts (e.run rs).accounts := by
  induction rs generalizing e with
  | nil => exact .refl i _
  | cons r rs ih =>
    have hstep : AllAside i e.accounts (e.apply r).2.accounts := by
      refine apply_aside (healthy_of_run hhealthy) ?_
      cases hvalid : validateRequest e.limits r with
      | some s => exact .inr (apply_of_invalid hvalid)
      | none =>
        refine .inl ?_
        rw [← presenter_of_valid hvalid]
        exact hothers r List.mem_cons_self
    exact hstep.trans (ih (fun r' hr' => hothers r' (List.mem_cons_of_mem _ hr')) hhealthy)

/-- No account is ever dropped. -/
theorem apply_known {e : CreditEngine J} (r : CreditRequest) {key : UInt64} {a : AccountState}
    (h : e.accounts[key]? = some a) : ∃ a', (e.apply r).2.accounts[key]? = some a' := by
  have hinsert : ∀ x : AccountState,
      ∃ a', (e.accounts.insert r.authority.account x)[key]? = some a' := by
    intro x
    by_cases hkey : key = r.authority.account
    · exact ⟨x, by rw [hkey]; exact ExtTreeMap.getElem?_insert_self⟩
    · exact ⟨a, (Lib.getElem?_insert_of_ne _ _ hkey).trans h⟩
  cases (apply_accounts e r).1 with
  | same _ accounts => exact ⟨a, by rw [accounts]; exact h⟩
  | rejected _ _ _ _ _ _ accounts => rw [accounts]; exact hinsert _
  | opened _ _ accounts => rw [accounts]; exact hinsert _
  | refused _ _ _ _ _ _ accounts => rw [accounts]; exact hinsert _
  | refusalUndone _ _ _ _ _ _ _ accounts => rw [accounts]; exact hinsert _
  | applied _ _ _ _ _ accounts => rw [accounts]; exact hinsert _
  | undone _ _ _ _ _ _ accounts => rw [accounts]; exact hinsert _

end Batches

end CreditEngine

end CreditFabric
