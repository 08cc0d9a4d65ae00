import CreditFabric.FileLog
import CreditFabric.LedgerInvariant
import CreditFabric.Replay
import CreditFabric.Run

namespace CreditFabric

open Std (ExtTreeMap)

/-!
# The byte budget of the log

The engine over a file journal whose operations all succeed.  `persist_locked` can still fail:
the appends are refused on the byte budget before a rotation is considered, and the Snapshot
record of the rotation has to fit the record limit and the rest of the budget.

* `append_ok_iff`, `writeSnapshot_ok_iff`: when the journal refuses.
* `persistLocked_ok_iff`: `persist_locked` succeeds exactly when there is `Room` for what it
  writes, which is arithmetic on the sizes of the records and of the image.
* `run_budget_iff`: a run latches no engine exactly when there is room at each of its calls.
-/

/-! ### The sizes of records and images -/

/-- The bytes that the note of a request takes; a note above the bound of the encoder is left
    out with its length. -/
def noteBytes (r : CreditRequest) : Nat := if r.note.length ≤ 4096 then 4 + r.note.length else 0

/-- The payload of the Intent record of a request. -/
def intentBytes (r : CreditRequest) : Nat := 248 + noteBytes r

/-- The payload of the Attempt record of a request. -/
def attemptBytes (r : CreditRequest) : Nat := 640 + noteBytes r

/-- The bytes that a decision adds to the log: two records with their envelopes. -/
def decisionBytes (r : CreditRequest) : Nat := intentBytes r + 33 + (attemptBytes r + 33)

/-- The framed image of an account. -/
def AccountState.imageBytes (a : AccountState) : Nat :=
  211 + 113 * a.incarnations.toList.length + 42 * a.fences.length + 41 * a.ambiguous.length +
    16 * a.window.identities.length

/-- The payload of a Snapshot record. -/
def imageBytes (accounts : ExtTreeMap UInt64 AccountState) : Nat :=
  56 + (accounts.toList.map fun entry => entry.2.imageBytes).sum

/-- The payload of an Intent. -/
theorem length_encodeRequestMessage (r : CreditRequest) :
    (encodeRequestMessage r).length = intentBytes r := by
  unfold encodeRequestMessage intentBytes noteBytes
  by_cases h : r.note.length ≤ 4096
  · rw [if_pos h, length_encodeRequestBody h]
    omega
  · rw [if_neg h, encodeRequestBody_of_gt (by omega), length_encodeRequestHead]

/-- The payload of an Attempt that the engine has written. -/
theorem length_encodeWritten {d : DurableAttempt} (hd : d.Written) :
    (encodeDurableAttempt d).length = attemptBytes d.request := by
  have hrequest : (encodeRequestBody d.request).length = intentBytes d.request :=
    length_encodeRequestMessage d.request
  unfold encodeDurableAttempt attemptBytes
  simp only [hd.hasAccount, if_true, List.length_append, hrequest, length_encodeOutcomeBody,
    ByteWriter.length_boolean, hd.length_account, ByteWriter.length_u64]
  unfold intentBytes
  omega

/-- What an account takes in a snapshot. -/
private theorem length_encodeFramedAccount (a : AccountState) :
    (encodeFramedAccount (a.buildDurable true)).length = a.imageBytes := by
  unfold encodeFramedAccount AccountState.imageBytes
  rw [List.length_append, ByteWriter.length_u32, length_encodeDurableAccount]
  unfold AccountState.buildDurable
  simp only [Bool.not_true, Bool.false_eq_true, if_false, List.length_map]
  omega

/-- The size of an image does not depend on the order of its accounts. -/
theorem length_encodeDurableState {J : Type} (e : CreditEngine J) :
    (encodeDurableState e.durableState).length = imageBytes e.accounts := by
  have hperm : e.durableState.accounts.Perm
      (e.accounts.toList.map fun entry => entry.2.buildDurable true) := List.mergeSort_perm _ _
  have hsum : (e.durableState.accounts.flatMap encodeFramedAccount).length =
      (e.accounts.toList.map fun entry => entry.2.imageBytes).sum := by
    rw [List.length_flatMap, (hperm.map _).sum_nat, List.map_map]
    have hsizes : e.accounts.toList.map ((fun a => (encodeFramedAccount a).length) ∘
        fun entry => entry.2.buildDurable true) =
        e.accounts.toList.map fun entry => entry.2.imageBytes :=
      List.map_congr_left fun entry _ => length_encodeFramedAccount entry.2
    rw [hsizes]
  unfold encodeDurableState encodeCounted imageBytes
  simp only [List.length_append, ByteWriter.length_u64, ByteWriter.length_digest, hsum]
  omega

/-! ### A journal in use -/

namespace FileJournal

/-- A journal that is open for appends and whose operations succeed. -/
structure Steady (j : FileJournal) : Prop where
  faults : j.faults = []
  opened : j.opened = true
  replaying : j.replaying = false
  torn : j.torn = false
  offset : j.writeOffset = j.bytes

/-- A steady journal refuses an append only on its two limits. -/
theorem append_ok_iff {j : FileJournal} (h : Steady j) (t : JournalRecord) :
    (j.append t).1.ok = true ↔ t.payload.length + envelopeBytes ≤ j.options.maxRecordBytes ∧
      j.bytes + t.payload.length + envelopeBytes + recordOverhead ≤ j.options.maxBytes.toNat := by
  refine ⟨fun hok => ?_, fun ⟨hrecord, hroom⟩ => ?_⟩
  · have haccepts := accepts_of_append hok
    exact ⟨haccepts.record, haccepts.room⟩
  · rw [append_of_accepts h.faults ⟨h.opened, h.replaying, h.torn, hrecord, hroom⟩]
    rfl

/-- An accepted append leaves a steady journal. -/
theorem Steady.append {j : FileJournal} (h : Steady j) {t : JournalRecord}
    (hok : (j.append t).1.ok = true) : Steady (j.append t).2 ∧
      (j.append t).2.options = j.options ∧
      (j.append t).2.bytes = j.bytes + (t.payload.length + 33) := by
  rw [append_of_accepts h.faults (accepts_of_append hok)]
  refine ⟨⟨h.faults, h.opened, h.replaying, h.torn, rfl⟩, rfl, ?_⟩
  show j.writeOffset + recordOverhead + (encodeEnvelope t).length = _
  rw [h.offset, length_encodeEnvelope]
  unfold recordOverhead
  omega

/-- A steady journal refuses a snapshot only on its size. -/
theorem writeSnapshot_of_steady {j : FileJournal} (h : Steady j) {s : SnapshotImage}
    (hsize : s.payload.length ≤ snapshotPayloadLimit) :
    j.writeSnapshot s = (.success, { j with snapshotFile := some (snapshotBytes s) }) := by
  unfold writeSnapshot writeTemporary durableFlush
  rw [if_neg (Nat.not_lt.mpr hsize)]
  cases s.payload.isEmpty <;>
    simp only [operation_of_none h.faults, Status.ok_success, Bool.not_true, Bool.false_eq_true,
      if_false, if_true]

/-- A steady journal writes every snapshot that its reader would accept. -/
theorem writeSnapshot_ok_iff {j : FileJournal} (h : Steady j) (s : SnapshotImage) :
    (j.writeSnapshot s).1.ok = true ↔ s.payload.length ≤ snapshotPayloadLimit := by
  refine ⟨fun hok => ?_, fun hsize => ?_⟩
  · by_contra hlarge
    unfold writeSnapshot at hok
    rw [if_pos (Nat.not_le.mp hlarge)] at hok
    exact absurd (show false = true from hok) (by decide)
  · rw [writeSnapshot_of_steady h hsize]
    rfl

/-- It stays steady behind it. -/
theorem Steady.writeSnapshot {j : FileJournal} (h : Steady j) {s : SnapshotImage}
    (hok : (j.writeSnapshot s).1.ok = true) : Steady (j.writeSnapshot s).2 ∧
      (j.writeSnapshot s).2.options = j.options := by
  rw [writeSnapshot_of_steady h ((writeSnapshot_ok_iff h s).mp hok)]
  exact ⟨⟨h.faults, h.opened, h.replaying, h.torn, h.offset⟩, rfl⟩

/-- A steady journal rotates. -/
theorem Steady.rotate {j : FileJournal} (h : Steady j) (sequence : UInt64) :
    (j.rotate sequence).1.ok = true ∧ Steady (j.rotate sequence).2 ∧
      (j.rotate sequence).2.options = j.options := by
  have hheader : j.rewriteJournalHeader = (.success, { j with
      file := some (writeAt j.log 0 (fileHeader journalMagic)) }) := by
    unfold rewriteJournalHeader durableFlush
    simp only [operation_of_none, write_of_none, h.faults, Status.ok_success, Bool.not_true,
      Bool.false_eq_true, if_false]
  unfold FileJournal.rotate durableFlush
  rw [if_neg (by simp [h.opened]), hheader]
  simp only [truncateStream_of_none, operation_of_none, h.faults, Status.ok_success, Bool.not_true,
    Bool.false_eq_true, if_false]
  exact ⟨trivial, ⟨rfl, h.opened, h.replaying, rfl, rfl⟩, trivial⟩

end FileJournal

namespace CreditEngine

open FileJournal (Steady)

/-- A rotation is due behind the two records of the request. -/
def rotates (e : CreditEngine FileJournal) (r : CreditRequest) : Prop :=
  e.journalRecords + 2 ≥ e.limits.journalRecordsPerSnapshot ∨
    e.journal.bytes + decisionBytes r ≥ e.limits.maxJournalBytes

/-- There is room for what `persist_locked` writes: the two records of the request, and if they
    reach a rotation threshold the Snapshot record and the snapshot file of the accounts. -/
def Room (e : CreditEngine FileJournal) (r : CreditRequest) : Prop :=
  e.journal.bytes + decisionBytes r ≤ e.journal.options.maxBytes.toNat ∧
    (e.rotates r →
      imageBytes e.accounts + envelopeBytes ≤ e.journal.options.maxRecordBytes ∧
      e.journal.bytes + decisionBytes r + (imageBytes e.accounts + 33) ≤
        e.journal.options.maxBytes.toNat ∧
      imageBytes e.accounts ≤ snapshotPayloadLimit)

instance (e : CreditEngine FileJournal) (r : CreditRequest) : Decidable (e.rotates r) :=
  inferInstanceAs (Decidable (_ ∨ _))

instance (e : CreditEngine FileJournal) (r : CreditRequest) : Decidable (e.Room r) :=
  inferInstanceAs (Decidable (_ ∧ _))

/-- The two records of the request fit the record limit. -/
def RecordFits (options : FileJournalOptions) (r : CreditRequest) : Prop :=
  attemptBytes r + envelopeBytes ≤ options.maxRecordBytes

/-! ### Journaling -/

section Persist

variable {e : CreditEngine FileJournal} {r : CreditRequest} {o : CreditOutcome} {a : AccountState}
  {c : Bool}

/-- The payload of the Attempt of a decision. -/
theorem length_attemptPayload (hwritten : (e.durableAttempt r o a c).Written) :
    (e.attemptRecord r o a c).payload.length = attemptBytes r :=
  length_encodeWritten hwritten

/-- The two appends of a decision. -/
theorem appends_ok_iff (hsteady : Steady e.journal) (hfits : RecordFits e.journal.options r)
    (hwritten : (e.durableAttempt r o a c).Written) :
    ((Journal.append e.journal (e.intentRecord r)).1.ok = true ∧
        (e.attemptAppend r o a c).1.ok = true ↔
      e.journal.bytes + decisionBytes r ≤ e.journal.options.maxBytes.toNat) ∧
    ((Journal.append e.journal (e.intentRecord r)).1.ok = true →
      (e.attemptAppend r o a c).1.ok = true →
      Steady (e.attemptAppend r o a c).2 ∧
        (e.attemptAppend r o a c).2.options = e.journal.options ∧
        (e.attemptAppend r o a c).2.bytes = e.journal.bytes + decisionBytes r) := by
  have hintent : (e.intentRecord r).payload.length = intentBytes r := length_encodeRequestMessage r
  have hattempt := length_attemptPayload hwritten
  have hfirst := FileJournal.append_ok_iff hsteady (e.intentRecord r)
  have hsecond : (Journal.append e.journal (e.intentRecord r)).1.ok = true →
      Steady (e.intentJournal r) ∧ (e.intentJournal r).options = e.journal.options ∧
        (e.intentJournal r).bytes = e.journal.bytes + (intentBytes r + 33) := by
    intro hok
    obtain ⟨hnext, hoptions, hbytes⟩ := hsteady.append hok
    rw [hintent] at hbytes
    exact ⟨hnext, hoptions, hbytes⟩
  have hsmaller : intentBytes r ≤ attemptBytes r := by
    unfold intentBytes attemptBytes
    omega
  -- the Intent is the smaller of the two records
  rw [hintent] at hfirst
  unfold RecordFits at hfits
  unfold decisionBytes
  unfold envelopeBytes recordOverhead at *
  refine ⟨⟨?_, ?_⟩, ?_⟩
  -- the second append finds the bytes of the first
  · rintro ⟨hi, ha⟩
    obtain ⟨hnext, hoptions, hbytes⟩ := hsecond hi
    obtain ⟨-, hroom⟩ := (FileJournal.append_ok_iff hnext _).mp ha
    unfold envelopeBytes recordOverhead at hroom
    rw [hattempt, hoptions, hbytes] at hroom
    omega
  · intro hroom
    have hi : (Journal.append e.journal (e.intentRecord r)).1.ok = true :=
      hfirst.mpr ⟨by omega, by omega⟩
    obtain ⟨hnext, hoptions, hbytes⟩ := hsecond hi
    refine ⟨hi, (FileJournal.append_ok_iff hnext _).mpr ?_⟩
    unfold envelopeBytes recordOverhead
    rw [hattempt, hoptions, hbytes]
    omega
  · intro hi ha
    obtain ⟨hnext, hoptions, hbytes⟩ := hsecond hi
    obtain ⟨hlast, hoptions', hbytes'⟩ := hnext.append ha
    rw [hattempt, hbytes] at hbytes'
    refine ⟨hlast, hoptions'.trans hoptions, ?_⟩
    rw [show (e.attemptAppend r o a c).2.bytes = _ from hbytes']
    omega

/-- The automatic snapshot. -/
theorem Snapshotted.ok_iff (hsteady : Steady e.journal) {s : Status} {e' : CreditEngine FileJournal}
    (hsnap : Snapshotted e s e') :
    (s.ok = true ↔
      imageBytes e.accounts + envelopeBytes ≤ e.journal.options.maxRecordBytes ∧
      e.journal.bytes + (imageBytes e.accounts + 33) ≤ e.journal.options.maxBytes.toNat ∧
      imageBytes e.accounts ≤ snapshotPayloadLimit) ∧
    (s.ok = true → Steady e'.journal ∧ e'.journal.options = e.journal.options) := by
  have himage : (encodeDurableState e.durableState).length = imageBytes e.accounts :=
    length_encodeDurableState e
  have happend := FileJournal.append_ok_iff hsteady e.snapshotRecord
  rw [show e.snapshotRecord.payload.length = _ from himage] at happend
  have hwrite : e.snapshotAppend.1.ok = true →
      (e.snapshotWrite.1.ok = true ↔ imageBytes e.accounts ≤ snapshotPayloadLimit) := by
    intro hok
    have hiff := FileJournal.writeSnapshot_ok_iff (hsteady.append hok).1 e.snapshotImage
    rw [show e.snapshotImage.payload.length = _ from himage] at hiff
    exact hiff
  have hrotate : e.snapshotAppend.1.ok = true → e.snapshotWrite.1.ok = true →
      e.snapshotRotate.1.ok = true ∧ Steady e.snapshotRotate.2 ∧
        e.snapshotRotate.2.options = e.journal.options := by
    intro ha hw
    obtain ⟨hfirst, hoptions, -⟩ := hsteady.append ha
    obtain ⟨hnext, hoptions'⟩ := hfirst.writeSnapshot hw
    obtain ⟨hok, hlast, hoptions''⟩ := hnext.rotate e.nextJournalSequence
    exact ⟨hok, hlast, hoptions''.trans (hoptions'.trans hoptions)⟩
  unfold recordOverhead at happend
  unfold envelopeBytes at *
  -- the outcomes of a snapshot's journal calls; the rotation of a steady journal does not fail
  cases hsnap with
  | appendFailed h =>
    have hno : ¬ e.snapshotAppend.1.ok = true := by rw [h]; decide
    have hfull := mt happend.mpr hno
    refine ⟨⟨fun hok => absurd hok hno, fun hroom => absurd ?_ hfull⟩, fun hok => absurd hok hno⟩
    omega
  | writeFailed ha h =>
    have hno : ¬ e.snapshotWrite.1.ok = true := by rw [h]; decide
    have hlarge := mt (hwrite ha).mpr hno
    exact ⟨⟨fun hok => absurd hok hno, fun hroom => absurd hroom.2.2 hlarge⟩,
      fun hok => absurd hok hno⟩
  | rotateFailed ha hw h => exact absurd (h.symm.trans (hrotate ha hw).1) (by decide)
  | durable ha hw h =>
    obtain ⟨hrecord, hroom⟩ := happend.mp ha
    refine ⟨⟨fun _ => ⟨hrecord, by omega, (hwrite ha).mp hw⟩, fun _ => rfl⟩, fun _ => ?_⟩
    exact (hrotate ha hw).2

/-- **Journaling within the budget.**  While no operation fails, `persist_locked` succeeds
    exactly when there is room for what it writes. -/
theorem persistLocked_ok_iff (hsteady : Steady e.journal) (hfits : RecordFits e.journal.options r)
    (hwritten : (e.durableAttempt r o a c).Written) :
    ((e.persistLocked r o a c).1.ok = true ↔ e.Room r) ∧
    ((e.persistLocked r o a c).1.ok = true → Steady (e.persistLocked r o a c).2.journal ∧
      (e.persistLocked r o a c).2.journal.options = e.journal.options) := by
  obtain ⟨happends, hafter⟩ := appends_ok_iff hsteady hfits hwritten
  have hpersisted := persistLocked_persisted e r o a c
  generalize e.persistLocked r o a c = result at hpersisted ⊢
  obtain ⟨s, e'⟩ := result
  -- the outcomes of a decision's journal calls: which of them the condition excludes
  cases hpersisted with
  | appendFailed h hs =>
    have hno : ¬ s.ok = true := by rw [hs]; decide
    refine ⟨⟨fun hok => absurd hok hno, fun hroom => ?_⟩, fun hok => absurd hok hno⟩
    obtain ⟨hi, ha⟩ := happends.mpr hroom.1
    cases h with
    | intentFailed h => exact absurd (h.symm.trans hi) (by decide)
    | attemptFailed _ h => exact absurd (h.symm.trans ha) (by decide)
    | durable _ _ => exact absurd rfl hno
  | kept hi h hrot =>
    obtain ⟨hnext, hoptions, hbytes⟩ := hafter hi h
    refine ⟨⟨fun _ => ⟨happends.mp ⟨hi, h⟩, fun hdue => absurd ?_ hrot⟩, fun _ => rfl⟩,
      fun _ => ⟨hnext, hoptions⟩⟩
    rcases hdue with hcount | hsize
    · exact .inl hcount
    · refine .inr ?_
      show (e.attemptAppend r o a c).2.bytes ≥ e.limits.maxJournalBytes
      rw [hbytes]
      exact hsize
  -- a snapshot is due: the call fails exactly where the snapshot does
  | rotated hi h hrot hsnap =>
    obtain ⟨hnext, hoptions, hbytes⟩ := hafter hi h
    have hdue : e.rotates r := by
      rcases hrot with hcount | hsize
      · exact .inl hcount
      · refine .inr ?_
        rw [← hbytes]
        exact hsize
    obtain ⟨hiff, hkeep⟩ := hsnap.ok_iff (e := e.afterDecision r o a c) hnext
    have hafterBytes : (e.afterDecision r o a c).journal.bytes =
        e.journal.bytes + decisionBytes r := hbytes
    have hafterOptions : (e.afterDecision r o a c).journal.options = e.journal.options := hoptions
    rw [hafterBytes, hafterOptions] at hiff
    refine ⟨⟨fun hok => ⟨happends.mp ⟨hi, h⟩, fun _ => hiff.mp hok⟩,
      fun hroom => hiff.mpr (hroom.2 hdue)⟩, fun hok => ?_⟩
    obtain ⟨hlast, hlastOptions⟩ := hkeep hok
    exact ⟨hlast, hlastOptions.trans hoptions⟩

end Persist

/-! ### Calls and runs -/

/-- There is room in the state that the call hands to `persist_locked`, if it does. -/
def Budget (e : CreditEngine FileJournal) (r : CreditRequest) : Prop :=
  (Opens e r → (e.opening r).Room r) ∧
    ∀ a, Admitted e r a →
      match e.decision a r with
      | .reject _ _ => True
      | .refuse _ a' => (e.refusing r a').Room r
      | .proceed a' => (e.applying r a').Room r

/-- The engine is not latched, its journal is steady, and no record is too large for it. -/
structure Afloat (options : FileJournalOptions) (limits : EngineLimits)
    (e : CreditEngine FileJournal) : Prop where
  healthy : e.journalFailed = false
  steady : Steady e.journal
  options : e.journal.options = options
  limits : e.limits = limits

/-- A settled call. -/
theorem settle_afloat_iff {options : FileJournalOptions} {limits : EngineLimits}
    {e : CreditEngine FileJournal} (h : Afloat options limits e) {r : CreditRequest}
    (hfits : RecordFits options r) {o : CreditOutcome} {a : AccountState} {c : Bool}
    (hwritten : (e.durableAttempt r o a c).Written)
    {rollback publish : CreditEngine FileJournal → CreditEngine FileJournal}
    (hpublish : ∀ e', (publish e').journal = e'.journal ∧ (publish e').limits = e'.limits ∧
      (publish e').journalFailed = e'.journalFailed) :
    ((e.settle r o a c rollback publish).2.journalFailed = false ↔ e.Room r) ∧
      (e.Room r → Afloat options limits (e.settle r o a c rollback publish).2) := by
  rw [← h.options] at hfits
  obtain ⟨hiff, hkeep⟩ := persistLocked_ok_iff h.steady hfits hwritten
  have hframe := persistLocked_frame e r o a c
  cases hok : (e.persistLocked r o a c).1.ok with
  | false =>
    have hno : ¬ e.Room r := fun hroom => absurd (hok.symm.trans (hiff.mpr hroom)) (by decide)
    rw [settle_of_failed hok]
    exact ⟨⟨fun hfalse => absurd (show true = false from hfalse) (by decide),
      fun hroom => absurd hroom hno⟩, fun hroom => absurd hroom hno⟩
  | true =>
    rw [settle_of_ok hok]
    obtain ⟨hjournal, hlimits, hfailed⟩ := hpublish (e.persistLocked r o a c).2
    obtain ⟨hsteady, hoptions⟩ := hkeep hok
    have hhealthy : (publish (e.persistLocked r o a c).2).journalFailed = false := by
      rw [hfailed, hframe.journalFailed, h.healthy]
    refine ⟨⟨fun _ => hiff.mp hok, fun _ => hhealthy⟩, fun _ => ⟨hhealthy, ?_, ?_, ?_⟩⟩
    · rw [hjournal]
      exact hsteady
    · rw [hjournal, hoptions, h.options]
    · rw [hlimits, hframe.limits, h.limits]

/-- A call that reaches no decision does not use the journal. -/
private theorem apply_afloat_of_answered {options : FileJournalOptions} {limits : EngineLimits}
    {e : CreditEngine FileJournal} (h : Afloat options limits e) {r : CreditRequest}
    (hopens : ¬ Opens e r) (hadmitted : ∀ a, ¬ Admitted e r a) :
    Afloat options limits (e.apply r).2 := by
  have hcase := apply_cases e r
  generalize e.apply r = result at hcase ⊢
  cases hcase with
  | answered o _ _ => exact h
  | absorbed a existing _ _ => exact ⟨h.healthy, h.steady, h.options, h.limits⟩
  | opened hopen => exact absurd hopen hopens
  | decided a hadm => exact absurd hadm (hadmitted a)

/-- **Step lemma.**  A call keeps the engine afloat exactly when there is room for it. -/
theorem apply_afloat_iff {options : FileJournalOptions} {limits : EngineLimits}
    (hfits : ∀ r, validateRequest limits r = none → RecordFits options r)
    {e : CreditEngine FileJournal} (h : Afloat options limits e) (r : CreditRequest) :
    ((e.apply r).2.journalFailed = false ↔ e.Budget r) ∧
      (e.Budget r → Afloat options limits (e.apply r).2) := by
  have hput : ∀ key a, Afloat options limits (e.put key a) :=
    fun _ _ => ⟨h.healthy, h.steady, h.options, h.limits⟩
  -- an Open that creates an account
  by_cases hopens : Opens e r
  · have hbudget : e.Budget r ↔ (e.opening r).Room r := by
      refine ⟨fun hb => hb.1 hopens, fun hroom => ⟨fun _ => hroom, fun a hadm => ?_⟩⟩
      exact absurd hopens.op hadm.notOpen
    rw [hbudget, apply_of_opens hopens]
    refine settle_afloat_iff (hput _ _) (hfits r (h.limits ▸ hopens.valid)) ?_ fun _ => ⟨rfl, rfl, rfl⟩
    exact durableAttempt_written _ r _ (quarantined_computeView _ _) fun _ => rfl
  -- an admitted request: it fails only where its records do not fit
  by_cases hadmitted : ∃ a, Admitted e r a
  · obtain ⟨a, hadm⟩ := hadmitted
    have hrecord := hfits r (h.limits ▸ hadm.valid)
    have hunique : ∀ a', Admitted e r a' → a' = a := fun a' hadm' =>
      Option.some.inj (hadm'.found.symm.trans hadm.found)
    rw [apply_of_admitted hadm]
    unfold settleDecision follow
    cases hd : e.decision a r with
    | reject s a' =>
      have hbudget : e.Budget r := by
        refine ⟨fun ho => absurd ho hopens, fun a₁ hadm₁ => ?_⟩
        rw [hunique a₁ hadm₁, hd]
        trivial
      exact ⟨⟨fun _ => hbudget, fun _ => h.healthy⟩, fun _ => hput _ _⟩
    | refuse s a' =>
      have hbudget : e.Budget r ↔ (e.refusing r a').Room r := by
        refine ⟨fun hb => ?_, fun hroom => ⟨fun ho => absurd ho hopens, fun a₁ hadm₁ => ?_⟩⟩
        · have hroom := hb.2 a hadm
          rw [hd] at hroom
          exact hroom
        · rw [hunique a₁ hadm₁, hd]
          exact hroom
      rw [hbudget]
      refine settle_afloat_iff (hput _ _) hrecord ?_ fun _ => ⟨rfl, rfl, rfl⟩
      exact durableAttempt_written _ r _ (quarantined_computeView _ _) fun hc => absurd hc (by decide)
    | proceed a' =>
      have hbudget : e.Budget r ↔ (e.applying r a').Room r := by
        refine ⟨fun hb => ?_, fun hroom => ⟨fun ho => absurd ho hopens, fun a₁ hadm₁ => ?_⟩⟩
        · have hroom := hb.2 a hadm
          rw [hd] at hroom
          exact hroom
        · rw [hunique a₁ hadm₁, hd]
          exact hroom
      rw [hbudget]
      refine settle_afloat_iff (hput _ _) hrecord ?_ fun _ => ⟨rfl, rfl, rfl⟩
      exact durableAttempt_written _ r _ (quarantined_computeView _ _) fun hc => absurd hc (by decide)
  -- any other request is answered without a journal call
  · have hnone : ∀ a, ¬ Admitted e r a := fun a hadm => hadmitted ⟨a, hadm⟩
    have hafloat := apply_afloat_of_answered h hopens hnone
    exact ⟨⟨fun _ => ⟨fun ho => absurd ho hopens, fun a hadm => absurd hadm (hnone a)⟩,
      fun _ => hafloat.healthy⟩, fun _ => hafloat⟩

/-- A latched engine stays latched. -/
private theorem journalFailed_run {e : CreditEngine FileJournal} (h : e.journalFailed = true)
    (rs : List CreditRequest) : (e.run rs).journalFailed = true :=
  run_induction (P := fun e => e.journalFailed = true) h
    (fun e r hlatched => by rw [journalFailed_apply hlatched r]; exact hlatched) rs

/-- **Run lemma.**  A run latches the engine at the first call without room. -/
theorem run_afloat_iff {options : FileJournalOptions} {limits : EngineLimits}
    (hfits : ∀ r, validateRequest limits r = none → RecordFits options r)
    {e : CreditEngine FileJournal} (h : Afloat options limits e) (rs : List CreditRequest) :
    (e.run rs).journalFailed = false ↔ EachCall Budget e rs := by
  induction rs generalizing e with
  | nil => exact ⟨fun _ => trivial, fun _ => h.healthy⟩
  | cons r rs ih =>
    obtain ⟨hiff, hkeep⟩ := apply_afloat_iff hfits h r
    rw [run_cons]
    by_cases hbudget : e.Budget r
    · rw [ih (hkeep hbudget)]
      exact ⟨fun hrest => ⟨hbudget, hrest⟩, fun hall => hall.2⟩
    · have hlatched : (e.apply r).2.journalFailed = true := by
        rw [← Bool.not_eq_false]
        exact fun hhealthy => hbudget (hiff.mp hhealthy)
      refine ⟨fun hhealthy => ?_, fun hall => absurd hall.1 hbudget⟩
      rw [journalFailed_run hlatched rs] at hhealthy
      exact absurd hhealthy (by decide)

/-- A file journal before its first use. -/
def unused (options : FileJournalOptions) : FileJournal := { options }

/-- An engine that has created its log. -/
private theorem boot_afloat (limits : EngineLimits) (options : FileJournalOptions)
    (operator : Incarnation) (nonce : Digest128) :
    Afloat options limits.clamp (boot limits (unused options) operator nonce) := by
  have hsnap : FileJournal.HoldsSnapshot (unused options).snapshotFile none := ⟨rfl, by simp⟩
  obtain ⟨e, hrecover, -, -, hlimits, hfailed, hjournal⟩ :=
    recover_of_empty (e := make limits (unused options) operator nonce)
      (FileJournal.yields_absent (j := unused options) rfl rfl hsnap)
  have hboot : boot limits (unused options) operator nonce = e := congrArg Prod.snd hrecover
  rw [hboot]
  refine ⟨hfailed, ?_, ?_, hlimits⟩
  · rw [hjournal]
    exact ⟨rfl, rfl, rfl, rfl, rfl⟩
  · rw [hjournal]
    rfl

/-- **The budget of a run.**  The engine starts on a new log, every single record fits the
    record limit and every file operation succeeds.  Then a run of any length leaves the engine
    unlatched exactly when each of its calls finds room for the two records it writes and, where
    these reach a rotation threshold, for the Snapshot record and the snapshot file. -/
theorem run_budget_iff (limits : EngineLimits) (options : FileJournalOptions)
    (operator : Incarnation) (nonce : Digest128)
    (hfits : ∀ r, validateRequest limits.clamp r = none → RecordFits options r)
    (rs : List CreditRequest) :
    ((boot limits (unused options) operator nonce).run rs).journalFailed = false ↔
      EachCall Budget (boot limits (unused options) operator nonce) rs :=
  run_afloat_iff hfits (boot_afloat limits options operator nonce) rs

/-! ### Two engines that latch themselves -/

namespace SelfLatched

/-- A request that passes the validation has a note within the bound. -/
theorem recordFits_of_notes {limits : EngineLimits} {options : FileJournalOptions}
    (h : 669 + limits.maxNoteBytes ≤ options.maxRecordBytes) (r : CreditRequest)
    (hvalid : validateRequest limits r = none) : RecordFits options r := by
  have hnote : r.note.length ≤ limits.maxNoteBytes := by
    unfold validateRequest at hvalid
    split_ifs at hvalid with _ _ _ hnote
    exact Nat.not_lt.mp hnote
  unfold RecordFits attemptBytes noteBytes envelopeBytes
  split_ifs <;> omega

/-- A log that may grow to the same 1500 bytes at which it is rotated. -/
def tight : EngineLimits := { maxJournalBytes := 1500 }

/-- Options whose log may hold 1500 bytes. -/
def tightOptions : FileJournalOptions := { maxBytes := 1500 }

/-- A rotation behind every attempt, with records of at most 700 bytes. -/
def eager : EngineLimits := { maxNoteBytes := 1, journalRecordsPerSnapshot := 2 }

/-- Options whose records may have 700 bytes. -/
def eagerOptions : FileJournalOptions := { maxRecordBytes := 700 }

/-- A boot over an empty file journal with these options. -/
def start (limits : EngineLimits) (options : FileJournalOptions) : CreditEngine FileJournal :=
  boot limits (unused options) Fixture.me ⟨5, 5⟩

/-- Requests of the fixture's operator. -/
def request : OpKind → UInt64 → CreditRequest := Fixture.request ⟨5, 5⟩ Fixture.me

/-- The Fence of an incarnation that the account does not know. -/
def fence (sequence : UInt64) (target : IncarnationId) : CreditRequest :=
  { request .fence sequence with target, fenceCause := .policyRefused }

/-- Both engines meet the two conditions on their limits, and no file operation fails.  The
    first one refuses the Attempt record of an Issue on the byte budget, before the rotation
    that would have made room for it; the second one refuses its own Snapshot record. -/
theorem latched :
    (∀ r, validateRequest tight.clamp r = none → RecordFits tightOptions r) ∧
    (∀ r, validateRequest eager.clamp r = none → RecordFits eagerOptions r) ∧
    tight.maxJournalBytes ≤ tightOptions.maxBytes.toNat ∧
    eager.maxJournalBytes ≤ eagerOptions.maxBytes.toNat ∧
    ((start tight tightOptions).run [request .open_ 1, request .issue 2]).journalFailed = true ∧
    ((start eager eagerOptions).run
      [request .open_ 1, fence 2 0xF1, fence 3 0xF2]).journalFailed = true := by
  refine ⟨recordFits_of_notes (by decide), recordFits_of_notes (by decide), by decide, by decide,
    by decide +kernel, by decide +kernel⟩

/-- With the shipped limits there is room for the same calls. -/
theorem shipped_room :
    ((start {} {}).run [request .open_ 1, fence 2 0xF1, fence 3 0xF2]).journalFailed = false ∧
      EachCall Budget (start {} {}) [request .open_ 1, fence 2 0xF1, fence 3 0xF2] := by
  have hhealthy : ((start {} {}).run
      [request .open_ 1, fence 2 0xF1, fence 3 0xF2]).journalFailed = false := by decide +kernel
  refine ⟨hhealthy, ?_⟩
  unfold start at hhealthy ⊢
  exact (run_budget_iff {} {} Fixture.me ⟨5, 5⟩ (recordFits_of_notes (by decide)) _).mp hhealthy

end SelfLatched

end CreditEngine

end CreditFabric
