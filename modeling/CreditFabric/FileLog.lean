import CreditFabric.FileJournal

namespace CreditFabric

/-!
# The log of a file journal

What the bytes of a log are and what a replay makes of them, as long as no operation fails.

* `scanRecord_intact` / `scanRecord_short`: a whole record is read back as it was written, a
  record that is cut short is never read.
* `yields_intact`: the replay of an intact log returns its records.
* the file journal is a `LawfulJournal`, so what is proved for these holds of it.
-/

namespace FileJournal

/-! ### Operations that succeed -/

/-- With no faults to come nothing fails. -/
theorem nextFault_of_none {j : FileJournal} (h : j.faults = []) : j.nextFault = (none, j) := by
  unfold nextFault
  rw [h]
  cases j
  simp_all

/-- Each operation then succeeds. -/
theorem operation_of_none {j : FileJournal} (h : j.faults = []) (detail : UInt64) :
    j.operation detail = (.success, j) := by
  unfold operation
  rw [nextFault_of_none h]
  rfl

/-- Each write then takes effect. -/
theorem write_of_none {j : FileJournal} (h : j.faults = []) (detail : UInt64) (offset : Nat)
    (data : List UInt8) : j.write detail offset data =
      (.success, { j with file := some (writeAt j.log offset data) }) := by
  unfold write
  rw [nextFault_of_none h]

/-- So does each truncation. -/
theorem truncateStream_of_none {j : FileJournal} (h : j.faults = []) (size : Nat) :
    j.truncateStream size = (.success, { j with file := some (j.log.take size) }) := by
  unfold truncateStream
  simp only [operation_of_none h, Status.ok_success, Bool.not_true, Bool.false_eq_true, if_false]

/-- Appending at the end of the file. -/
theorem writeAt_length (file data : List UInt8) : writeAt file file.length data = file ++ data := by
  unfold writeAt
  simp

/-! ### The bytes of a log -/

/-- A file header has its length. -/
@[simp] theorem length_fileHeader (magic : UInt32) : (fileHeader magic).length = 12 := by
  simp [fileHeader]

/-- The length of an envelope. -/
@[simp] theorem length_encodeEnvelope (t : JournalRecord) :
    (encodeEnvelope t).length = 25 + t.payload.length := by
  simp [encodeEnvelope]
  omega

/-- The length of a record. -/
@[simp] theorem length_recordBytes (t : JournalRecord) :
    (recordBytes t).length = 33 + t.payload.length := by
  simp [recordBytes, recordPrefix]
  omega

/-- A word is read back in front of any bytes. -/
theorem getU32_append (v : UInt32) (rest : List UInt8) :
    getU32 (ByteWriter.u32 v ++ rest) = v := by
  unfold getU32
  rw [List.take_left' (ByteWriter.length_u32 v)]
  unfold ByteWriter.u32
  rw [Lib.leValue_leBytes 4 _ v.toNat_lt, UInt32.ofNat_toNat]

/-- So is a long word. -/
theorem getU64_append (v : UInt64) (rest : List UInt8) :
    getU64 (ByteWriter.u64 v ++ rest) = v := by
  unfold getU64
  rw [List.take_left' (ByteWriter.length_u64 v)]
  unfold ByteWriter.u64
  rw [Lib.leValue_leBytes 8 _ v.toNat_lt, UInt64.ofNat_toNat]

/-- A header passes its own check. -/
theorem checkHeader_fileHeader (magic : UInt32) (d d' : UInt64) :
    checkHeader magic d d' (fileHeader magic) = .success := by
  have hmagic : getU32 (fileHeader magic) = magic := by
    unfold fileHeader
    simp only [List.append_assoc]
    exact getU32_append magic _
  have hhead : (ByteWriter.u32 magic ++ [formatVersion, 0, 0, 0]).length = 8 := by simp
  have htake : (fileHeader magic).take 8 = ByteWriter.u32 magic ++ [formatVersion, 0, 0, 0] :=
    List.take_left' hhead
  have hcrc : getU32 ((fileHeader magic).drop 8) =
      crc32c (ByteWriter.u32 magic ++ [formatVersion, 0, 0, 0]) := by
    unfold fileHeader
    simp only
    rw [List.drop_left' hhead]
    have hget := getU32_append (crc32c (ByteWriter.u32 magic ++ [formatVersion, 0, 0, 0])) []
    rwa [List.append_nil] at hget
  have hversion : (fileHeader magic).getD 4 0 = formatVersion := by
    unfold fileHeader
    simp [List.getD_eq_getElem?_getD]
  unfold checkHeader
  simp only [hmagic, hversion, hcrc, htake, ne_eq, not_true_eq_false, if_false]

/-! ### Scanning -/

/-- The scan stands between `pre` and `rest`, and no operation will fail. -/
structure Scanning (j : FileJournal) (pre rest : List UInt8) : Prop where
  faults : j.faults = []
  opened : j.opened = true
  log : j.log = pre ++ rest
  scan : j.scanOffset = pre.length
  write : j.writeOffset = pre.length + rest.length

/-- The journal with the scan moved to another offset. -/
def scanAt (j : FileJournal) (offset : Nat) : FileJournal := { j with scanOffset := offset }

/-- The scan goes on behind some bytes. -/
theorem Scanning.skip {j : FileJournal} {pre bytes rest : List UInt8}
    (h : Scanning j pre (bytes ++ rest)) :
    Scanning (j.scanAt (pre ++ bytes).length) (pre ++ bytes) rest where
  faults := h.faults
  opened := h.opened
  log := by rw [List.append_assoc]; exact h.log
  scan := rfl
  write := by
    have hwrite := h.write
    rw [List.length_append] at hwrite
    rw [List.length_append, Nat.add_assoc]
    exact hwrite

/-- A record the journal writes and can read back. -/
structure Fits (options : FileJournalOptions) (t : JournalRecord) : Prop where
  record : t.payload.length + envelopeBytes ≤ options.maxRecordBytes
  width : t.payload.length + envelopeBytes < 2 ^ 32

/-- The kind in an envelope. -/
theorem getElem_kind (t : JournalRecord) :
    (encodeEnvelope t).getD 8 0 = UInt8.ofNat t.kind.code := by
  unfold encodeEnvelope
  simp [List.getD_eq_getElem?_getD, ByteWriter.u8]

/-- The number in an envelope. -/
theorem envelope_sequence (t : JournalRecord) : getU64 (encodeEnvelope t) = t.sequence := by
  unfold encodeEnvelope
  simp only [List.append_assoc]
  exact getU64_append t.sequence _

/-- What lies behind the kind. -/
theorem envelope_drop_nine (t : JournalRecord) : (encodeEnvelope t).drop 9 =
    ByteWriter.u64 t.chain.lo ++ (ByteWriter.u64 t.chain.hi ++ t.payload) := by
  have hhead : (ByteWriter.u64 t.sequence ++
      ByteWriter.u8 (UInt8.ofNat t.kind.code)).length = 9 := by simp
  unfold encodeEnvelope
  rw [List.append_assoc, List.drop_left' hhead, ByteWriter.digest, List.append_assoc]

/-- What lies behind the first word of the chain. -/
theorem envelope_drop_seventeen (t : JournalRecord) : (encodeEnvelope t).drop 17 =
    ByteWriter.u64 t.chain.hi ++ t.payload := by
  rw [show 17 = 9 + 8 from rfl, ← List.drop_drop, envelope_drop_nine]
  exact List.drop_left' (ByteWriter.length_u64 _)

/-- The chain value in an envelope. -/
theorem envelope_chain (t : JournalRecord) :
    (⟨getU64 ((encodeEnvelope t).drop 9), getU64 ((encodeEnvelope t).drop 17)⟩ : Digest128) =
      t.chain := by
  rw [envelope_drop_nine, envelope_drop_seventeen, getU64_append, getU64_append]

/-- The payload in an envelope. -/
theorem envelope_payload (t : JournalRecord) : (encodeEnvelope t).drop 25 = t.payload := by
  rw [show 25 = 17 + 8 from rfl, ← List.drop_drop, envelope_drop_seventeen]
  exact List.drop_left' (ByteWriter.length_u64 _)

/-- The length that a record says it has. -/
theorem getU32_recordPrefix {options : FileJournalOptions} {t : JournalRecord}
    (hfits : Fits options t) :
    (getU32 (recordPrefix (encodeEnvelope t))).toNat = 25 + t.payload.length := by
  have hwidth := hfits.width
  unfold recordPrefix
  rw [getU32_append, length_encodeEnvelope, UInt32.toNat_ofNat_of_lt']
  show 25 + t.payload.length < 2 ^ 32
  unfold envelopeBytes at hwidth
  omega

/-- A record says its length and its checksum first. -/
theorem length_recordPrefix (envelope : List UInt8) : (recordPrefix envelope).length = 8 := by
  simp [recordPrefix]

/-- The scan of an intact record: an unknown kind is a damage. -/
theorem scanRecord_intact {j : FileJournal} {pre rest : List UInt8} {t : JournalRecord}
    (h : Scanning j pre (recordBytes t ++ rest)) (hfits : Fits j.options t) :
    j.scanRecord = if t.kind = .unknown then none else some (t, 25 + t.payload.length) := by
  obtain ⟨hfaults, hopened, hlog, hscan, hwrite⟩ := h
  have henv := length_encodeEnvelope t
  rw [List.length_append, length_recordBytes] at hwrite
  -- the eight bytes in front of the envelope
  have hrest : j.log.drop j.scanOffset =
      recordPrefix (encodeEnvelope t) ++ (encodeEnvelope t ++ rest) := by
    rw [hlog, hscan, List.drop_left, recordBytes, List.append_assoc]
  have hhead : (j.log.drop j.scanOffset).take recordOverhead =
      recordPrefix (encodeEnvelope t) := by
    rw [hrest]
    exact List.take_left' (length_recordPrefix _)
  have hcrc : getU32 ((recordPrefix (encodeEnvelope t)).drop 4) = crc32c (encodeEnvelope t) := by
    unfold recordPrefix
    rw [List.drop_left' (ByteWriter.length_u32 _)]
    have hget := getU32_append (crc32c (encodeEnvelope t)) []
    rwa [List.append_nil] at hget
  -- the envelope behind them
  have henvelope : (j.log.drop (j.scanOffset + recordOverhead)).take (25 + t.payload.length) =
      encodeEnvelope t := by
    have hdrop : j.log.drop (j.scanOffset + recordOverhead) = encodeEnvelope t ++ rest := by
      rw [← List.drop_drop, hrest]
      exact List.drop_left' (length_recordPrefix _)
    rw [hdrop]
    exact List.take_left' henv
  have hrecord := hfits.record
  unfold scanRecord
  have hsize : ¬ (25 + t.payload.length > j.options.maxRecordBytes ∨
      25 + t.payload.length < envelopeBytes ∨
      j.scanOffset + recordOverhead + (25 + t.payload.length) > j.writeOffset) := by
    unfold recordOverhead envelopeBytes at *
    omega
  have hfull : ¬ (8 < recordOverhead) := by decide
  simp only [hhead, length_recordPrefix, hfull, getU32_recordPrefix hfits, hsize, henvelope,
    henv, hcrc, getElem_kind, if_false, ne_eq, not_true_eq_false]
  unfold envelopeBytes
  rw [envelope_sequence, envelope_chain, envelope_payload]
  cases t with
  | mk sequence kind chain payload => cases kind <;> rfl

/-- The scan passes the record that it returns. -/
theorem nextRecord_of_scan {j : FileJournal} {pre bytes rest : List UInt8} {t : JournalRecord}
    (h : Scanning j pre (bytes ++ rest)) (hbytes : bytes.length = (recordBytes t).length)
    (hrecord : j.scanRecord = some (t, 25 + t.payload.length)) :
    j.nextRecord = (.success, some t, j.scanAt (pre ++ bytes).length) := by
  rw [length_recordBytes] at hbytes
  have hnext : j.scanOffset + recordOverhead + (25 + t.payload.length) =
      (pre ++ bytes).length := by
    rw [List.length_append, hbytes, h.scan]
    unfold recordOverhead
    omega
  have hroom : ¬ j.scanOffset + recordOverhead > j.writeOffset := by
    rw [h.scan, h.write, List.length_append, hbytes]
    unfold recordOverhead
    omega
  unfold nextRecord
  rw [if_neg (by simp [h.opened]), if_neg hroom]
  simp only [operation_of_none h.faults, hrecord, hnext, Bool.not_true, Bool.false_eq_true,
    if_false, Status.ok_success]
  rfl

/-- An intact record is returned. -/
theorem nextRecord_intact {j : FileJournal} {pre rest : List UInt8} {t : JournalRecord}
    (h : Scanning j pre (recordBytes t ++ rest)) (hfits : Fits j.options t)
    (hkind : t.kind ≠ .unknown) : j.nextRecord =
      (.success, some t, j.scanAt (pre ++ recordBytes t).length) := by
  have hrecord := scanRecord_intact h hfits
  rw [if_neg hkind] at hrecord
  exact nextRecord_of_scan h rfl hrecord

/-- The end of the log. -/
theorem nextRecord_end {j : FileJournal} {pre : List UInt8} (h : Scanning j pre []) :
    j.nextRecord = (.success, none, j) := by
  have heq : j.scanOffset = j.writeOffset := by simp [h.scan, h.write]
  have hroom : j.scanOffset + recordOverhead > j.writeOffset := by
    unfold recordOverhead
    omega
  unfold nextRecord
  rw [if_neg (by simp [h.opened]), if_pos hroom, if_neg (not_not.mpr heq)]

/-- The scan stops with a tear where there are bytes left and no record. -/
theorem nextRecord_torn {j : FileJournal} {pre rest : List UInt8} (h : Scanning j pre rest)
    (hne : rest ≠ []) (hrecord : recordOverhead ≤ rest.length → j.scanRecord = none) :
    j.nextRecord = (.success, none, j.tear) := by
  have hpos : 0 < rest.length := List.length_pos_iff.mpr hne
  unfold nextRecord
  rw [if_neg (by simp [h.opened])]
  by_cases hroom : j.scanOffset + recordOverhead > j.writeOffset
  · rw [if_pos hroom, if_pos (by rw [h.scan, h.write]; omega)]
  · have hlen : recordOverhead ≤ rest.length := by
      rw [h.scan, h.write] at hroom
      omega
    rw [if_neg hroom]
    simp only [operation_of_none h.faults, hrecord hlen, Status.ok_success, Bool.not_true,
      Bool.false_eq_true, if_false]

/-- A record that is cut short is no record, wherever it is cut. -/
theorem scanRecord_short {j : FileJournal} {pre part : List UInt8} {t : JournalRecord}
    (h : Scanning j pre part) (hfits : Fits j.options t) (hpart : part <+: recordBytes t)
    (hshort : part.length < (recordBytes t).length) (hlen : recordOverhead ≤ part.length) :
    j.scanRecord = none := by
  rw [length_recordBytes] at hshort
  -- the length is complete, and exceeds what is left
  have hhead : (j.log.drop j.scanOffset).take recordOverhead =
      recordPrefix (encodeEnvelope t) := by
    have htake := List.prefix_iff_eq_take.mp hpart
    rw [h.log, h.scan, List.drop_left, htake, List.take_take, Nat.min_eq_left hlen, recordBytes]
    exact List.take_left' (length_recordPrefix _)
  have hsize : 25 + t.payload.length > j.options.maxRecordBytes ∨
      25 + t.payload.length < envelopeBytes ∨
      j.scanOffset + recordOverhead + (25 + t.payload.length) > j.writeOffset := by
    rw [h.scan, h.write]
    unfold recordOverhead
    omega
  unfold scanRecord
  simp only [hhead, getU32_recordPrefix hfits, hsize, if_true, ite_self]

/-- The bytes of a log with the given records. -/
def logBytes (recs : List JournalRecord) : List UInt8 :=
  fileHeader journalMagic ++ recs.flatMap recordBytes

/-- Reading past intact records. -/
theorem reads_records {j j' : FileJournal} {pre tail : List UInt8}
    {recs more : List JournalRecord} (h : Scanning j pre (recs.flatMap recordBytes ++ tail))
    (hfits : ∀ t ∈ recs, Fits j.options t ∧ t.kind ≠ .unknown)
    (hrest : Reads (j.scanAt (pre ++ recs.flatMap recordBytes).length) more j') :
    Reads j (recs ++ more) j' := by
  induction recs generalizing j pre with
  | nil =>
    have hsame : j.scanAt (pre ++ [].flatMap recordBytes).length = j := by
      unfold scanAt
      rw [List.flatMap_nil, List.append_nil, ← h.scan]
    rw [hsame] at hrest
    exact hrest
  | cons t recs ih =>
    obtain ⟨htfits, htkind⟩ := hfits t List.mem_cons_self
    rw [List.flatMap_cons, List.append_assoc] at h
    refine .next (nextRecord_intact h htfits htkind) (ih h.skip ?_ ?_)
    · exact fun t' ht' => hfits t' (List.mem_cons_of_mem t ht')
    · rw [List.flatMap_cons, ← List.append_assoc] at hrest
      exact hrest

/-! ### A replay -/

/-- The journal behind a successful `open`. -/
def ready (j : FileJournal) : FileJournal :=
  { j with opened := true, replaying := false, torn := false, truncatedBytes := 0,
           writeOffset := j.log.length, scanOffset := headerBytes, bytes := j.log.length }

/-- An open with no faults is ready. -/
theorem openAt_of_none {j : FileJournal} (h : j.faults = []) : j.openAt = (.success, j.ready) := by
  unfold openAt
  simp only [operation_of_none, h, Status.ok_success, Bool.not_true, Bool.false_eq_true, if_false]
  rw [← h]
  rfl

/-- Opening a log that starts with its header. -/
theorem open_of_header {j : FileJournal} (h : j.faults = []) {rest : List UInt8}
    (hfile : j.file = some (fileHeader journalMagic ++ rest)) : j.open_ = j.openAt := by
  have htake : (fileHeader journalMagic ++ rest).take headerBytes = fileHeader journalMagic :=
    List.take_left' (length_fileHeader _)
  have hlen : ¬ (fileHeader journalMagic ++ rest).length < headerBytes := by
    rw [List.length_append, length_fileHeader]
    unfold headerBytes
    omega
  unfold open_
  simp only [operation_of_none h, Status.ok_success, Bool.not_true, Bool.false_eq_true, if_false,
    hfile, hlen, htake, checkHeader_fileHeader]

/-- Opening where there is no log creates one with its header. -/
theorem open_of_absent {j : FileJournal} (h : j.faults = []) (hfile : j.file = none) :
    j.open_ = { j with file := some (fileHeader journalMagic) }.openAt := by
  have hheader : writeAt [] 0 (fileHeader journalMagic) = fileHeader journalMagic := by
    simp [writeAt]
  unfold open_ durableFlush
  simp only [operation_of_none, h, Status.ok_success, Bool.not_true, Bool.false_eq_true, if_false,
    hfile, write_of_none, log, Option.getD_some, hheader]

/-! ### Snapshot files -/

/-- A snapshot file is read back as written. -/
theorem parseSnapshot_snapshotBytes {s : SnapshotImage}
    (h : s.payload.length ≤ snapshotPayloadLimit) :
    parseSnapshot (snapshotBytes s) = .ok s := by
  have hlimit : snapshotPayloadLimit < 2 ^ 32 := by decide
  let trailer := ByteWriter.u64 s.chain.hi ++
    (ByteWriter.u32 (UInt32.ofNat s.payload.length) ++ ByteWriter.u32 (crc32c s.payload))
  have htrailer : trailer.length = 16 := by simp [trailer]
  have hbytes : snapshotBytes s = fileHeader snapshotMagic ++ (ByteWriter.u64 s.sequence ++
      (ByteWriter.u64 s.chain.lo ++ (s.payload ++ trailer))) := by
    unfold snapshotBytes
    simp only [List.append_assoc, trailer]
  have hlen : (snapshotBytes s).length = 44 + s.payload.length := by
    rw [hbytes]
    simp [htrailer]
    omega
  -- the file from each of its fields on
  have hhead : (snapshotBytes s).take headerBytes = fileHeader snapshotMagic := by
    rw [hbytes]
    exact List.take_left' (length_fileHeader _)
  have hsequence : (snapshotBytes s).drop headerBytes = ByteWriter.u64 s.sequence ++
      (ByteWriter.u64 s.chain.lo ++ (s.payload ++ trailer)) := by
    rw [hbytes]
    exact List.drop_left' (length_fileHeader _)
  have hchain : (snapshotBytes s).drop (headerBytes + 8) =
      ByteWriter.u64 s.chain.lo ++ (s.payload ++ trailer) := by
    rw [← List.drop_drop, hsequence]
    exact List.drop_left' (ByteWriter.length_u64 _)
  have hpayload : (snapshotBytes s).drop (headerBytes + 16) = s.payload ++ trailer := by
    rw [show headerBytes + 16 = headerBytes + 8 + 8 from rfl, ← List.drop_drop, hchain]
    exact List.drop_left' (ByteWriter.length_u64 _)
  have hend : (snapshotBytes s).drop ((snapshotBytes s).length - 16) = trailer := by
    have hoffset : (snapshotBytes s).length - 16 = headerBytes + 16 + s.payload.length := by
      rw [hlen]
      unfold headerBytes
      omega
    rw [hoffset, ← List.drop_drop, hpayload]
    exact List.drop_left
  have hlength : getU32 (trailer.drop 8) = UInt32.ofNat s.payload.length := by
    rw [show trailer.drop 8 = _ from List.drop_left' (ByteWriter.length_u64 _)]
    exact getU32_append _ _
  have hcrc : getU32 (trailer.drop 12) = crc32c s.payload := by
    rw [show 12 = 8 + 4 from rfl, ← List.drop_drop,
      show trailer.drop 8 = _ from List.drop_left' (ByteWriter.length_u64 _),
      List.drop_left' (ByteWriter.length_u32 _)]
    have hget := getU32_append (crc32c s.payload) []
    rwa [List.append_nil] at hget
  have hcount : (UInt32.ofNat s.payload.length).toNat = s.payload.length := by
    rw [UInt32.toNat_ofNat_of_lt']
    show s.payload.length < 2 ^ 32
    omega
  have hshort : ¬ 44 + s.payload.length < headerBytes + 16 := by
    unfold headerBytes
    omega
  unfold parseSnapshot
  rw [hend]
  simp only [hlen, hshort, hhead, checkHeader_fileHeader, Status.ok_success, Bool.not_true,
    Bool.false_eq_true, if_false, hlength, hcount, Nat.not_lt.mpr h, hpayload, List.take_left,
    hcrc, ne_eq, not_true_eq_false, hsequence, hchain, getU64_append]
  rw [show getU64 trailer = s.chain.hi from getU64_append _ _]

/-! ### The file journal is lawful -/

/-- The snapshot file holds the given image. -/
def HoldsSnapshot (file : Option (List UInt8)) (snap : Option SnapshotImage) : Prop :=
  file = snap.map snapshotBytes ∧ ∀ s ∈ snap, s.payload.length ≤ snapshotPayloadLimit

/-- The journal behind `open` and `begin_replay`. -/
def begun (j : FileJournal) : FileJournal := { j.ready with replaying := true }

/-- A replay begins to scan behind the header. -/
theorem begun_scanning {j : FileJournal} (h : j.faults = []) {rest : List UInt8}
    (hfile : j.file = some (fileHeader journalMagic ++ rest)) :
    Scanning j.begun (fileHeader journalMagic) rest where
  faults := h
  opened := rfl
  log := by
    show j.file.getD [] = _
    rw [hfile]
    rfl
  scan := (length_fileHeader _).symm
  write := by
    show (j.file.getD []).length = _
    rw [hfile]
    exact List.length_append

/-- A snapshot that the file holds is read. -/
theorem readSnapshot_of_holds {j : FileJournal} (h : j.faults = []) {snap : Option SnapshotImage}
    (hsnap : HoldsSnapshot j.snapshotFile snap) : j.readSnapshot = (.success, snap, j) := by
  obtain ⟨hfile, hlimit⟩ := hsnap
  unfold readSnapshot
  cases snap with
  | none =>
    rw [hfile]
    rfl
  | some s =>
    rw [hfile]
    simp only [Option.map_some, operation_of_none h, Status.ok_success, Bool.not_true,
      Bool.false_eq_true, if_false, parseSnapshot_snapshotBytes (hlimit s rfl)]

/-- Replaying a log that starts with its header. -/
theorem yields_of_reads {j j₁ j' : FileJournal} (h : j.faults = []) {rest : List UInt8}
    (hfile : j.file = some (fileHeader journalMagic ++ rest)) {snap : Option SnapshotImage}
    (hsnap : HoldsSnapshot j.snapshotFile snap) {recs : List JournalRecord}
    (hreads : Reads j.begun recs j₁) (hend : j₁.endReplay = (.success, j')) :
    Yields j snap recs j' := by
  refine ⟨j.ready, j.ready, j.begun, j₁, ?_, ?_, rfl, hreads, hend⟩
  · exact (open_of_header h hfile).trans (openAt_of_none h)
  · exact readSnapshot_of_holds (j := j.ready) h hsnap

/-- A log of records the journal can read back. -/
def Readable (options : FileJournalOptions) (recs : List JournalRecord) : Prop :=
  ∀ t ∈ recs, Fits options t ∧ t.kind ≠ .unknown

/-- One more record that can be read back. -/
theorem readable_concat {options : FileJournalOptions} {recs : List JournalRecord}
    (h : Readable options recs) {t : JournalRecord} (hfits : Fits options t)
    (hkind : t.kind ≠ .unknown) : Readable options (recs ++ [t]) := by
  intro t' ht'
  rcases List.mem_append.mp ht' with hold | hnew
  · exact h t' hold
  · rw [List.mem_singleton.mp hnew]
    exact ⟨hfits, hkind⟩

/-- The journal behind the replay of an intact log. -/
def replayed (j : FileJournal) : FileJournal := { j.ready with scanOffset := j.log.length }

/-- The records of an intact log are read to its end. -/
theorem reads_intact {j : FileJournal} (h : j.faults = []) {recs : List JournalRecord}
    (hfile : j.file = some (logBytes recs)) (hreadable : Readable j.options recs) :
    Reads j.begun recs (j.begun.scanAt j.log.length) := by
  have hscan := begun_scanning h hfile
  rw [← List.append_nil (recs.flatMap recordBytes)] at hscan
  have hreads : Reads j.begun (recs ++ [])
      (j.begun.scanAt (fileHeader journalMagic ++ recs.flatMap recordBytes).length) :=
    reads_records hscan hreadable (.done (nextRecord_end hscan.skip))
  have hlog : (fileHeader journalMagic ++ recs.flatMap recordBytes).length = j.log.length := by
    unfold log
    rw [hfile]
    rfl
  rw [List.append_nil, hlog] at hreads
  exact hreads

/-- An intact log replays its records. -/
theorem yields_intact {j : FileJournal} (h : j.faults = []) {recs : List JournalRecord}
    (hfile : j.file = some (logBytes recs)) {snap : Option SnapshotImage}
    (hsnap : HoldsSnapshot j.snapshotFile snap) (hreadable : Readable j.options recs) :
    Yields j snap recs j.replayed :=
  yields_of_reads h hfile hsnap (reads_intact h hfile hreadable) rfl

/-- What the files of a journal hold, while no operation fails. -/
structure Holds (j : FileJournal) (snap : Option SnapshotImage) (recs : List JournalRecord) :
    Prop where
  faults : j.faults = []
  snapshot : HoldsSnapshot j.snapshotFile snap
  readable : Readable j.options recs
  log : j.file = some (logBytes recs) ∨ j.file = none ∧ recs = [] ∧ j.opened = false
  offsets : j.opened = true → j.writeOffset = j.log.length ∧ j.bytes = j.log.length

/-- An append that is accepted, while no operation fails. -/
structure Accepts (j : FileJournal) (t : JournalRecord) : Prop where
  opened : j.opened = true
  replaying : j.replaying = false
  torn : j.torn = false
  record : t.payload.length + envelopeBytes ≤ j.options.maxRecordBytes
  room : j.bytes + t.payload.length + envelopeBytes + recordOverhead ≤ j.options.maxBytes.toNat

/-- The journal behind an accepted append. -/
def appended (j : FileJournal) (t : JournalRecord) : FileJournal :=
  { j with file := some (writeAt (writeAt j.log j.writeOffset (recordPrefix (encodeEnvelope t)))
             (j.writeOffset + recordOverhead) (encodeEnvelope t)),
           writeOffset := j.writeOffset + recordOverhead + (encodeEnvelope t).length,
           bytes := j.writeOffset + recordOverhead + (encodeEnvelope t).length }

/-- An accepted record is appended. -/
theorem append_of_accepts {j : FileJournal} (hfaults : j.faults = []) {t : JournalRecord}
    (h : Accepts j t) : j.append t = (.success, j.appended t) := by
  unfold append durableFlush
  rw [if_neg (by simp [h.opened]), if_neg (by simp [h.replaying]), if_neg (by simp [h.torn]),
    if_neg (Nat.not_lt.mpr h.record), if_neg (Nat.not_lt.mpr h.room)]
  simp only [operation_of_none, write_of_none, hfaults, Status.ok_success, Bool.not_true,
    Bool.false_eq_true, if_false]
  rw [← hfaults]
  rfl

/-- A record that was appended had been accepted. -/
theorem accepts_of_append {j : FileJournal} {t : JournalRecord} (h : (j.append t).1.ok = true) :
    Accepts j t := by
  unfold append at h
  by_cases hopened : j.opened = true
  · by_cases hreplaying : j.replaying = true
    · rw [if_neg (by simp [hopened]), if_pos hreplaying] at h
      exact absurd (show false = true from h) (by decide)
    by_cases htorn : j.torn = true
    · rw [if_neg (by simp [hopened]), if_neg hreplaying, if_pos htorn] at h
      exact absurd (show false = true from h) (by decide)
    by_cases hrecord : t.payload.length + envelopeBytes > j.options.maxRecordBytes
    · rw [if_neg (by simp [hopened]), if_neg hreplaying, if_neg htorn, if_pos hrecord] at h
      exact absurd (show false = true from h) (by decide)
    by_cases hroom : j.bytes + t.payload.length + envelopeBytes + recordOverhead >
        j.options.maxBytes.toNat
    · rw [if_neg (by simp [hopened]), if_neg hreplaying, if_neg htorn, if_neg hrecord,
        if_pos hroom] at h
      exact absurd (show false = true from h) (by decide)
    exact ⟨hopened, by simpa using hreplaying, by simpa using htorn, Nat.not_lt.mp hrecord,
      Nat.not_lt.mp hroom⟩
  · rw [if_pos (by simp [hopened])] at h
    exact absurd (show false = true from h) (by decide)

/-- At the end of the file the two writes of an append are one record. -/
theorem appended_log {j : FileJournal} (hoffset : j.writeOffset = j.log.length)
    (t : JournalRecord) : (j.appended t).file = some (j.log ++ recordBytes t) := by
  have hhead : (j.log ++ recordPrefix (encodeEnvelope t)).length =
      j.log.length + recordOverhead := by
    rw [List.length_append, length_recordPrefix]
    rfl
  unfold appended
  rw [hoffset, writeAt_length, ← hhead, writeAt_length, recordBytes, List.append_assoc]

/-- One more record in a log. -/
theorem logBytes_concat (recs : List JournalRecord) (t : JournalRecord) :
    logBytes (recs ++ [t]) = logBytes recs ++ recordBytes t := by
  unfold logBytes
  rw [List.flatMap_append, List.append_assoc, List.flatMap_singleton]

/-- A journal that holds records holds the next one behind them. -/
theorem Holds.appended {j : FileJournal} {snap : Option SnapshotImage}
    {recs : List JournalRecord} (h : Holds j snap recs) {t : JournalRecord}
    (haccepts : Accepts j t) (hkind : t.kind ≠ .unknown)
    (hwidth : t.payload.length + envelopeBytes < 2 ^ 32) :
    Holds (j.appended t) snap (recs ++ [t]) ∧
      (j.appended t).bytes = j.bytes + (t.payload.length + 33) := by
  obtain ⟨hwrite, hbytes⟩ := h.offsets haccepts.opened
  have hfile : j.file = some (logBytes recs) := by
    refine h.log.resolve_right fun habsent => ?_
    rw [haccepts.opened] at habsent
    exact absurd habsent.2.2 (by decide)
  have hlog : j.log = logBytes recs := by
    unfold FileJournal.log
    rw [hfile]
    rfl
  have hafter : (j.appended t).file = some (logBytes (recs ++ [t])) := by
    rw [appended_log hwrite, hlog, logBytes_concat]
  have hsize : (j.appended t).writeOffset = j.bytes + (t.payload.length + 33) := by
    show j.writeOffset + recordOverhead + (encodeEnvelope t).length = _
    rw [length_encodeEnvelope, hwrite, hbytes]
    unfold recordOverhead
    omega
  have hend : (j.appended t).log.length = j.bytes + (t.payload.length + 33) := by
    unfold FileJournal.log
    rw [hafter, Option.getD_some, logBytes_concat, List.length_append, length_recordBytes, hbytes,
      hlog]
    omega
  refine ⟨⟨h.faults, h.snapshot, ?_, .inl hafter, fun _ => ?_⟩, hsize⟩
  · intro t' ht'
    rcases List.mem_append.mp ht' with hold | hnew
    · exact h.readable t' hold
    · rw [List.mem_singleton.mp hnew]
      exact ⟨⟨haccepts.record, hwidth⟩, hkind⟩
  · rw [hend]
    exact ⟨hsize, hsize⟩

/-- Only what `open` makes of the files matters to a replay. -/
private theorem yields_congr {j k j' : FileJournal} (h : j.open_ = k.open_)
    {snap : Option SnapshotImage}
    {recs : List JournalRecord} (hyields : Yields k snap recs j') : Yields j snap recs j' := by
  obtain ⟨j₁, j₂, j₃, j₄, hopen, hrest⟩ := hyields
  exact ⟨j₁, j₂, j₃, j₄, h.trans hopen, hrest⟩

/-- A replay without a log creates one, which is empty. -/
theorem yields_absent {j : FileJournal} (h : j.faults = []) (hfile : j.file = none)
    {snap : Option SnapshotImage} (hsnap : HoldsSnapshot j.snapshotFile snap) :
    Yields j snap [] { j with file := some (logBytes []) }.replayed := by
  let k : FileJournal := { j with file := some (logBytes []) }
  have hopen : j.open_ = k.open_ := by
    have hheader : logBytes [] = fileHeader journalMagic := List.append_nil _
    rw [open_of_absent h hfile, open_of_header (j := k) h rfl]
    show _ = { j with file := some (logBytes []) }.openAt
    rw [hheader]
  exact yields_congr hopen (yields_intact (j := k) h rfl hsnap fun t ht => by simp at ht)

/-- A journal over the same files replays what they hold. -/
theorem Holds.restart {j : FileJournal} {snap : Option SnapshotImage} {recs : List JournalRecord}
    (h : Holds j snap recs) : ∃ j', Yields j.restart snap recs j' ∧ Holds j' snap recs := by
  rcases h.log with hfile | ⟨hfile, rfl, -⟩
  · refine ⟨j.restart.replayed, ?_, ?_⟩
    · exact yields_intact (j := j.restart) h.faults hfile h.snapshot h.readable
    · exact ⟨h.faults, h.snapshot, h.readable, .inl hfile, fun _ => ⟨rfl, rfl⟩⟩
  · refine ⟨_, yields_absent (j := j.restart) h.faults hfile h.snapshot, ?_⟩
    exact ⟨h.faults, h.snapshot, h.readable, .inl rfl, fun _ => ⟨rfl, rfl⟩⟩

instance : LawfulJournal FileJournal where
  restart := restart
  overhead := 33
  Holds := Holds
  holds_append {j snap recs} t h hkind hwidth hok := by
    have haccepts : Accepts j t := accepts_of_append hok
    show Holds (j.append t).2 snap (recs ++ [t]) ∧ (j.append t).2.bytes = _
    rw [append_of_accepts h.faults haccepts]
    exact h.appended haccepts hkind hwidth
  holds_restart h := h.restart

end FileJournal

end CreditFabric
