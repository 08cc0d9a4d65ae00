import CreditFabric.TornTail

namespace CreditFabric

/-!
# A file journal whose operations fail

What one call of the journal does to its files under an arbitrary schedule of failures.  A failed
append leaves a part of a record behind the records of the log, where the next append writes
over it.  A rotation that fails in its last flush has cut the log off, and leaves the write
offset where the end of the log has been.

* `append_starts`: an append, whatever fails, keeps the records in front of the write offset.
* `writeSnapshot_cases`, `rotate_cases`: the ways in which the other two calls end.
* `reads_starts`: a replay returns the records that the log starts with.
-/

namespace FileJournal

/-- The log starts with the given bytes. -/
def Starts (j : FileJournal) (bytes : List UInt8) : Prop := ∃ rest, j.file = some (bytes ++ rest)

/-- What a single operation on the log leaves alone. -/
structure Kept (j j' : FileJournal) : Prop where
  options : j'.options = j.options
  snapshotFile : j'.snapshotFile = j.snapshotFile
  writeOffset : j'.writeOffset = j.writeOffset

/-- What two operations keep. -/
theorem Kept.trans {j₁ j₂ j₃ : FileJournal} (h : Kept j₁ j₂) (h' : Kept j₂ j₃) : Kept j₁ j₃ :=
  ⟨h'.options.trans h.options, h'.snapshotFile.trans h.snapshotFile,
    h'.writeOffset.trans h.writeOffset⟩

/-- A file that starts with bytes starts with the first of them. -/
theorem Starts.left {j : FileJournal} {bytes more : List UInt8} (h : Starts j (bytes ++ more)) :
    Starts j bytes := by
  obtain ⟨rest, hfile⟩ := h
  exact ⟨more ++ rest, by rw [hfile, List.append_assoc]⟩

/-- The log behind what it starts with. -/
theorem Starts.log {j : FileJournal} {bytes : List UInt8} (h : Starts j bytes) :
    ∃ rest, j.log = bytes ++ rest := by
  obtain ⟨rest, hfile⟩ := h
  refine ⟨rest, ?_⟩
  unfold FileJournal.log
  rw [hfile]
  rfl

/-! ### Single operations -/

/-- An operation that does not change a file. -/
theorem operation_kept (j : FileJournal) (detail : UInt64) :
    Kept j (j.operation detail).2 ∧ (j.operation detail).2.file = j.file :=
  ⟨⟨rfl, rfl, rfl⟩, rfl⟩

/-- Bytes written behind others. -/
theorem writeAt_append (bytes rest part : List UInt8) :
    writeAt (bytes ++ rest) bytes.length part = bytes ++ (part ++ rest.drop part.length) := by
  have hgap : bytes.length - (bytes ++ rest).length = 0 := by
    rw [List.length_append]
    omega
  have hover : bytes.drop (bytes.length + part.length) = [] :=
    List.drop_eq_nil_of_le (Nat.le_add_right _ _)
  unfold writeAt
  rw [List.take_left, hgap, List.replicate_zero, List.append_nil, List.drop_append, hover,
    List.nil_append, Nat.add_sub_cancel_left, List.append_assoc]

/-- A write behind the bytes that the log starts with, of all the data or a part of it. -/
theorem write_starts {j : FileJournal} {bytes : List UInt8} (h : Starts j bytes) (detail : UInt64)
    (data : List UInt8) :
    Kept j (j.write detail bytes.length data).2 ∧
      Starts (j.write detail bytes.length data).2 bytes ∧
      ((j.write detail bytes.length data).1.ok = true →
        Starts (j.write detail bytes.length data).2 (bytes ++ data)) := by
  obtain ⟨rest, hlog⟩ := h.log
  unfold write nextFault
  cases hfault : j.faults.head?.getD none with
  | none =>
    have hafter : writeAt j.log bytes.length data = bytes ++ data ++ rest.drop data.length := by
      rw [hlog, writeAt_append, List.append_assoc]
    let j' : FileJournal :=
      { j with faults := j.faults.tail, file := some (writeAt j.log bytes.length data) }
    have hstarts : Starts j' (bytes ++ data) := ⟨_, congrArg some hafter⟩
    exact ⟨⟨rfl, rfl, rfl⟩, hstarts.left, fun _ => hstarts⟩
  | some n =>
    have hafter : writeAt j.log bytes.length (data.take n) =
        bytes ++ (data.take n ++ rest.drop (data.take n).length) := by
      rw [hlog, writeAt_append]
    refine ⟨⟨rfl, rfl, rfl⟩, ⟨_, congrArg some hafter⟩, fun hok => ?_⟩
    exact absurd (show false = true from hok) (by decide)

/-! ### Appending -/

/-- The two ways an append ends: the log and the offset as before, or one record further. -/
structure AppendedAt (j : FileJournal) (t : JournalRecord) (bytes : List UInt8) (s : Status)
    (j' : FileJournal) : Prop where
  options : j'.options = j.options
  snapshotFile : j'.snapshotFile = j.snapshotFile
  failed : s.ok = false → Starts j' bytes ∧ j'.writeOffset = bytes.length
  ok : s.ok = true → Starts j' (bytes ++ recordBytes t) ∧
    j'.writeOffset = (bytes ++ recordBytes t).length ∧
    t.payload.length + envelopeBytes ≤ j.options.maxRecordBytes

/-- An append that fails leaves what was in front of it. -/
theorem AppendedAt.of_failed {j j' : FileJournal} {t : JournalRecord} {bytes : List UInt8}
    {s : Status} (hkept : Kept j j') (hoffset : j.writeOffset = bytes.length)
    (h : Starts j' bytes) (hs : s.ok = false) : AppendedAt j t bytes s j' where
  options := hkept.options
  snapshotFile := hkept.snapshotFile
  failed _ := ⟨h, hkept.writeOffset.trans hoffset⟩
  ok hok := by rw [hs] at hok; exact absurd hok (by decide)

/-- **One append.**  Whatever fails, the bytes in front of the write offset stay, and the
    offset moves only behind a whole record. -/
theorem append_starts {j : FileJournal} {bytes : List UInt8} (h : Starts j bytes)
    (hoffset : j.writeOffset = bytes.length) (t : JournalRecord) :
    AppendedAt j t bytes (j.append t).1 (j.append t).2 := by
  have hsame : Kept j j := ⟨rfl, rfl, rfl⟩
  unfold append
  split_ifs with hopened hreplaying htorn hrecord hroom
  · exact .of_failed hsame hoffset h rfl
  · exact .of_failed hsame hoffset h rfl
  · exact .of_failed hsame hoffset h rfl
  · exact .of_failed hsame hoffset h rfl
  · exact .of_failed hsame hoffset h rfl
  -- the seek
  obtain ⟨hkept₁, hfile₁⟩ := operation_kept j 53
  generalize j.operation 53 = result at *
  obtain ⟨s₁, j₁⟩ := result
  have h₁ : Starts j₁ bytes := by
    obtain ⟨rest, hfile⟩ := h
    exact ⟨rest, hfile₁.trans hfile⟩
  have hoffset₁ : j₁.writeOffset = bytes.length := hkept₁.writeOffset.trans hoffset
  cases hs₁ : s₁.ok with
  | false =>
    simp only [hs₁, Bool.not_false, if_true]
    exact .of_failed hkept₁ hoffset h₁ hs₁
  | true =>
  -- the length and the checksum
  simp only [hs₁, Bool.not_true, Bool.false_eq_true, if_false, hoffset₁]
  obtain ⟨hkept₂, h₂, hwritten₂⟩ := write_starts h₁ 54 (recordPrefix (encodeEnvelope t))
  generalize j₁.write 54 bytes.length (recordPrefix (encodeEnvelope t)) = result at *
  obtain ⟨s₂, j₂⟩ := result
  have hkept₂ := hkept₁.trans hkept₂
  cases hs₂ : s₂.ok with
  | false =>
    simp only [Bool.not_false, if_true]
    exact .of_failed hkept₂ hoffset h₂ hs₂
  | true =>
  -- the envelope
  have hhead := hwritten₂ hs₂
  have hbehind : j₂.writeOffset + recordOverhead =
      (bytes ++ recordPrefix (encodeEnvelope t)).length := by
    rw [hkept₂.writeOffset, hoffset, List.length_append, length_recordPrefix]
    rfl
  simp only [Bool.not_true, Bool.false_eq_true, if_false, hbehind]
  obtain ⟨hkept₃, h₃, hwritten₃⟩ := write_starts hhead 55 (encodeEnvelope t)
  generalize j₂.write 55 (bytes ++ recordPrefix (encodeEnvelope t)).length (encodeEnvelope t) =
    result at *
  obtain ⟨s₃, j₃⟩ := result
  have hkept₃ := hkept₂.trans hkept₃
  cases hs₃ : s₃.ok with
  | false =>
    simp only [Bool.not_false, if_true]
    exact .of_failed hkept₃ hoffset h₃.left hs₃
  | true =>
  -- the flush
  have hrecordBytes : Starts j₃ (bytes ++ recordBytes t) := by
    have hboth := hwritten₃ hs₃
    rw [List.append_assoc] at hboth
    exact hboth
  simp only [Bool.not_true, Bool.false_eq_true, if_false]
  obtain ⟨hkept₄, hfile₄⟩ := operation_kept j₃ 0
  unfold durableFlush
  generalize j₃.operation 0 = result at *
  obtain ⟨s₄, j₄⟩ := result
  have hkept₄ := hkept₃.trans hkept₄
  obtain ⟨rest, hrest⟩ := hrecordBytes
  have h₄ : Starts j₄ (bytes ++ recordBytes t) := ⟨rest, hfile₄.trans hrest⟩
  cases hs₄ : s₄.ok with
  | false =>
    simp only [Bool.not_false, if_true]
    exact .of_failed hkept₄ hoffset h₄.left hs₄
  | true =>
  simp only [Bool.not_true, Bool.false_eq_true, if_false]
  refine ⟨hkept₄.options, hkept₄.snapshotFile, fun hfailed => ?_, fun _ => ⟨h₄, ?_, ?_⟩⟩
  · exact absurd (show true = false from hfailed) (by decide)
  · show j₄.writeOffset + recordOverhead + (encodeEnvelope t).length = _
    rw [hkept₄.writeOffset, hoffset, List.length_append, recordBytes, List.length_append,
      length_recordPrefix, Nat.add_assoc]
    rfl
  · exact Nat.not_lt.mp hrecord

/-! ### Snapshots -/

/-- The two ways the writing of a snapshot ends. -/
structure WroteAt (j : FileJournal) (image : SnapshotImage) (s : Status) (j' : FileJournal) :
    Prop where
  options : j'.options = j.options
  file : j'.file = j.file
  writeOffset : j'.writeOffset = j.writeOffset
  failed : s.ok = false → j'.snapshotFile = j.snapshotFile
  ok : s.ok = true → j'.snapshotFile = some (snapshotBytes image) ∧
    image.payload.length ≤ snapshotPayloadLimit

/-- A snapshot that fails leaves the log alone. -/
theorem WroteAt.of_failed {j j' : FileJournal} {image : SnapshotImage} {s : Status}
    (hkept : Kept j j') (hfile : j'.file = j.file) (hs : s.ok = false) :
    WroteAt j image s j' where
  options := hkept.options
  file := hfile
  writeOffset := hkept.writeOffset
  failed _ := hkept.snapshotFile
  ok hok := by rw [hs] at hok; exact absurd hok (by decide)

/-- The temporary file is not the log. -/
private theorem writeTemporary_kept (j : FileJournal) (payload : List UInt8) :
    Kept j (j.writeTemporary payload).2 ∧ (j.writeTemporary payload).2.file = j.file := by
  unfold writeTemporary
  simp only
  split_ifs <;> exact ⟨⟨rfl, rfl, rfl⟩, rfl⟩

/-- The snapshot file is replaced as a whole or not at all. -/
theorem writeSnapshot_cases (j : FileJournal) (image : SnapshotImage) :
    WroteAt j image (j.writeSnapshot image).1 (j.writeSnapshot image).2 := by
  unfold writeSnapshot
  split_ifs with hsize
  · exact .of_failed ⟨rfl, rfl, rfl⟩ rfl rfl
  -- the operations in the order of the source: any that fails leaves the file alone
  obtain ⟨hkept₁, hfile₁⟩ := operation_kept j 70
  generalize j.operation 70 = result at *
  obtain ⟨s₁, j₁⟩ := result
  cases hs₁ : s₁.ok with
  | false =>
    simp only [hs₁, Bool.not_false, if_true]
    exact .of_failed hkept₁ hfile₁ hs₁
  | true =>
  simp only [hs₁, Bool.not_true, Bool.false_eq_true, if_false]
  obtain ⟨hkept₂, hfile₂⟩ := writeTemporary_kept j₁ image.payload
  generalize j₁.writeTemporary image.payload = result at *
  obtain ⟨s₂, j₂⟩ := result
  have hkept₂ := hkept₁.trans hkept₂
  have hfile₂ := hfile₂.trans hfile₁
  cases hs₂ : s₂.ok with
  | false =>
    simp only [Bool.not_false, if_true]
    exact .of_failed hkept₂ hfile₂ hs₂
  | true =>
  simp only [Bool.not_true, Bool.false_eq_true, if_false]
  unfold durableFlush
  obtain ⟨hkept₃, hfile₃⟩ := operation_kept j₂ 0
  generalize j₂.operation 0 = result at *
  obtain ⟨s₃, j₃⟩ := result
  have hkept₃ := hkept₂.trans hkept₃
  have hfile₃ := hfile₃.trans hfile₂
  cases hs₃ : s₃.ok with
  | false =>
    simp only [Bool.not_false, if_true]
    exact .of_failed hkept₃ hfile₃ hs₃
  | true =>
  simp only [Bool.not_true, Bool.false_eq_true, if_false]
  obtain ⟨hkept₄, hfile₄⟩ := operation_kept j₃ 0
  generalize j₃.operation 0 = result at *
  obtain ⟨s₄, j₄⟩ := result
  have hkept₄ := hkept₃.trans hkept₄
  have hfile₄ := hfile₄.trans hfile₃
  cases hs₄ : s₄.ok with
  | false =>
    simp only [Bool.not_false, if_true]
    exact .of_failed hkept₄ hfile₄ hs₄
  | true =>
  simp only [Bool.not_true, Bool.false_eq_true, if_false]
  refine ⟨hkept₄.options, hfile₄, hkept₄.writeOffset, fun hfailed => ?_, fun _ => ⟨rfl, ?_⟩⟩
  · exact absurd (show true = false from hfailed) (by decide)
  · exact Nat.not_lt.mp hsize

/-! ### Rotations -/

/-- The ways a rotation ends: the log as before, the log cut off with the offset as before, or
    both at the header. -/
inductive RotatedAt (j : FileJournal) : Status → FileJournal → Prop
  | spared {s : Status} {j' : FileJournal} (hs : s.ok = false) (hkept : Kept j j')
      (hfile : j'.file = j.file) : RotatedAt j s j'
  | cut {s : Status} {j' : FileJournal} (hs : s.ok = false) (hkept : Kept j j')
      (hfile : j'.file = some (logBytes [])) : RotatedAt j s j'
  | done {s : Status} {j' : FileJournal} (hs : s.ok = true) (hoptions : j'.options = j.options)
      (hsnapshot : j'.snapshotFile = j.snapshotFile) (hoffset : j'.writeOffset = headerBytes)
      (hfile : j'.file = some (logBytes [])) : RotatedAt j s j'

/-- Writing the header, or a part of it, over itself. -/
theorem writeAt_header {file part : List UInt8} (h : part <+: file) : writeAt file 0 part = file := by
  obtain ⟨rest, rfl⟩ := h
  unfold writeAt
  rw [List.take_zero, Nat.zero_sub, List.replicate_zero, Nat.zero_add, List.drop_left,
    List.nil_append, List.nil_append]

/-- The same header over the header. -/
private theorem rewriteJournalHeader_kept {j : FileJournal}
    (h : Starts j (fileHeader journalMagic)) :
    Kept j j.rewriteJournalHeader.2 ∧ j.rewriteJournalHeader.2.file = j.file := by
  obtain ⟨rest, hfile⟩ := h
  have hwrite : ∀ k : FileJournal, k.file = j.file →
      Kept k (k.write 22 0 (fileHeader journalMagic)).2 ∧
        (k.write 22 0 (fileHeader journalMagic)).2.file = j.file := by
    intro k hk
    have hklog : k.log = fileHeader journalMagic ++ rest := by
      unfold log
      rw [hk, hfile]
      rfl
    unfold write nextFault
    cases k.faults.head?.getD none with
    | none =>
      refine ⟨⟨rfl, rfl, rfl⟩, ?_⟩
      show some (writeAt k.log 0 (fileHeader journalMagic)) = j.file
      rw [hklog, writeAt_header (List.prefix_append _ _), hfile]
    | some n =>
      refine ⟨⟨rfl, rfl, rfl⟩, ?_⟩
      show some (writeAt k.log 0 ((fileHeader journalMagic).take n)) = j.file
      have hpart : (fileHeader journalMagic).take n <+: fileHeader journalMagic ++ rest :=
        (List.take_prefix _ _).trans (List.prefix_append _ _)
      rw [hklog, writeAt_header hpart, hfile]
  obtain ⟨hkept, hsame⟩ := hwrite (j.operation 21).2 rfl
  have hkept := (operation_kept j 21).1.trans hkept
  unfold rewriteJournalHeader
  simp only
  split_ifs with hseek hwritten
  · exact ⟨⟨rfl, rfl, rfl⟩, rfl⟩
  · exact ⟨hkept, hsame⟩
  · exact ⟨hkept.trans (operation_kept _ 0).1, hsame⟩

/-- The ways a rotation of a log with its header ends. -/
theorem rotate_cases {j : FileJournal} (h : Starts j (fileHeader journalMagic)) (n : UInt64) :
    RotatedAt j (j.rotate n).1 (j.rotate n).2 := by
  unfold rotate
  split_ifs with hopened
  · exact .spared rfl ⟨rfl, rfl, rfl⟩ rfl
  obtain ⟨hkept₁, hfile₁⟩ := rewriteJournalHeader_kept h
  generalize j.rewriteJournalHeader = result at *
  obtain ⟨s₁, j₁⟩ := result
  cases hs₁ : s₁.ok with
  | false =>
    simp only [hs₁, Bool.not_false, if_true]
    exact .spared hs₁ hkept₁ hfile₁
  | true =>
  simp only [hs₁, Bool.not_true, Bool.false_eq_true, if_false]
  -- both operations of the truncation come in front of the cut
  unfold truncateStream
  obtain ⟨hkept₂, hfile₂⟩ := operation_kept j₁ 1
  generalize j₁.operation 1 = result at *
  obtain ⟨s₂, j₂⟩ := result
  have hkept₂ := hkept₁.trans hkept₂
  have hfile₂ := hfile₂.trans hfile₁
  cases hs₂ : s₂.ok with
  | false =>
    simp only [hs₂, Bool.not_false, if_true]
    exact .spared hs₂ hkept₂ hfile₂
  | true =>
  simp only [hs₂, Bool.not_true, Bool.false_eq_true, if_false]
  obtain ⟨hkept₃, hfile₃⟩ := operation_kept j₂ 3
  generalize j₂.operation 3 = result at *
  obtain ⟨s₃, j₃⟩ := result
  have hkept₃ := hkept₂.trans hkept₃
  have hfile₃ := hfile₃.trans hfile₂
  cases hs₃ : s₃.ok with
  | false =>
    simp only [hs₃, Bool.not_false, if_true]
    exact .spared hs₃ hkept₃ hfile₃
  | true =>
  simp only [Status.ok_success, Bool.not_true, Bool.false_eq_true, if_false]
  have hcut : j₃.log.take headerBytes = logBytes [] := by
    obtain ⟨rest, hfile⟩ := h
    unfold log logBytes
    rw [hfile₃, hfile, Option.getD_some, List.flatMap_nil, List.append_nil]
    exact List.take_left' (length_fileHeader _)
  rw [hcut]
  -- the flush comes behind it
  unfold durableFlush
  obtain ⟨hkept₄, hfile₄⟩ := operation_kept { j₃ with file := some (logBytes []) } 0
  generalize operation 0 { j₃ with file := some (logBytes []) } = result at *
  obtain ⟨s₄, j₄⟩ := result
  have hkept₄ : Kept j j₄ :=
    ⟨hkept₄.options.trans hkept₃.options, hkept₄.snapshotFile.trans hkept₃.snapshotFile,
      hkept₄.writeOffset.trans hkept₃.writeOffset⟩
  cases hs₄ : s₄.ok with
  | false =>
    simp only [Bool.not_false, if_true]
    exact .cut hs₄ hkept₄ hfile₄
  | true =>
  simp only [Bool.not_true, Bool.false_eq_true, if_false]
  exact .done rfl hkept₄.options hkept₄.snapshotFile rfl hfile₄

/-! ### Reading back -/

/-- From any point of a log the scan comes to an end. -/
private theorem reads_total (size : Nat) : ∀ {j : FileJournal} {pre rest : List UInt8},
    rest.length ≤ size → Scanning j pre rest → ∃ recs j', Reads j recs j' := by
  induction size with
  | zero =>
    intro j pre rest hsize h
    rw [List.eq_nil_of_length_eq_zero (Nat.le_zero.mp hsize)] at h
    exact ⟨[], j, .done (nextRecord_end h)⟩
  | succ size ih =>
    intro j pre rest hsize h
    obtain ⟨-, hnext⟩ | ⟨-, hnext⟩ | ⟨t, bytes, rest', rfl, hbytes, -, -, hnext⟩ :=
      nextRecord_cases h
    · exact ⟨[], _, .done hnext⟩
    · exact ⟨[], _, .done hnext⟩
    · have hpos := length_recordBytes_pos t
      have hsmaller : rest'.length ≤ size := by
        rw [List.length_append] at hsize
        omega
      obtain ⟨recs, j', hreads⟩ := ih hsmaller h.skip
      exact ⟨t :: recs, j', .next hnext hreads⟩

/-- **A replay returns the records that the log starts with.** -/
theorem reads_starts {j : FileJournal} (hfaults : j.faults = []) {kept : List JournalRecord}
    (h : Starts j (logBytes kept)) (hreadable : Readable j.options kept) :
    ∃ more j', Reads j.begun (kept ++ more) j' := by
  obtain ⟨rest, hfile⟩ := h
  rw [logBytes, List.append_assoc] at hfile
  have hscan := begun_scanning hfaults hfile
  obtain ⟨more, j', hreads⟩ := reads_total _ le_rfl hscan.skip
  exact ⟨more, j', reads_records hscan hreadable hreads⟩

end FileJournal

end CreditFabric
