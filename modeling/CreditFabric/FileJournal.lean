import CreditFabric.Crc32c
import CreditFabric.Journal

namespace CreditFabric

/-!
# The file journal

`file_journal.cpp` on the bytes of its two files.  The log is a header and a sequence of
records, each a length, a checksum and an envelope; the snapshot is a file of its own.

Opening, seeking, writing, flushing, truncating and renaming are *operations*: each takes its
result from the schedule `faults`, and succeeds when the schedule is exhausted.  A failed write
may leave a part of its bytes in the file, any other failed operation leaves the file as it
was.  Reading fails only at the end of the file.

The file names, the record counter and the textual description are left out.  The stream is
open exactly when the journal is, so the null checks of the source are its `opened` checks.
-/

/-! ### Layout -/

/-- The first word of a log file. -/
def journalMagic : UInt32 := 0x314A4643

/-- The first word of a snapshot file. -/
def snapshotMagic : UInt32 := 0x31534643

/-- The version of both files. -/
def formatVersion : UInt8 := 1

/-- The bytes of a file header. -/
def headerBytes : Nat := 12

/-- The length and the checksum in front of an envelope. -/
def recordOverhead : Nat := 8

/-- The sequence, the kind and the chain value in front of a payload. -/
def envelopeBytes : Nat := 25

/-- The largest payload of a snapshot. -/
def snapshotPayloadLimit : Nat := 64 * 2 ^ 20

/-- A file header: the magic, the version, three zero bytes and the checksum of these. -/
def fileHeader (magic : UInt32) : List UInt8 :=
  let head := ByteWriter.u32 magic ++ [formatVersion, 0, 0, 0]
  head ++ ByteWriter.u32 (crc32c head)

/-- `encode_envelope`: what a record frames and sums. -/
def encodeEnvelope (t : JournalRecord) : List UInt8 :=
  ByteWriter.u64 t.sequence ++ ByteWriter.u8 (UInt8.ofNat t.kind.code) ++
    ByteWriter.digest t.chain ++ t.payload

/-- The length and the checksum of an envelope. -/
def recordPrefix (envelope : List UInt8) : List UInt8 :=
  ByteWriter.u32 (UInt32.ofNat envelope.length) ++ ByteWriter.u32 (crc32c envelope)

/-- A record in the log: the length, the checksum and the envelope. -/
def recordBytes (t : JournalRecord) : List UInt8 :=
  recordPrefix (encodeEnvelope t) ++ encodeEnvelope t

/-- A snapshot file. -/
def snapshotBytes (s : SnapshotImage) : List UInt8 :=
  fileHeader snapshotMagic ++ ByteWriter.u64 s.sequence ++ ByteWriter.u64 s.chain.lo ++
    s.payload ++ ByteWriter.u64 s.chain.hi ++
    ByteWriter.u32 (UInt32.ofNat s.payload.length) ++ ByteWriter.u32 (crc32c s.payload)

/-- `get_u32`. -/
def getU32 (bytes : List UInt8) : UInt32 := UInt32.ofNat (Lib.leValue (bytes.take 4))

/-- `get_u64`. -/
def getU64 (bytes : List UInt8) : UInt64 := UInt64.ofNat (Lib.leValue (bytes.take 8))

/-- The kinds a replay accepts. -/
def JournalRecordKind.ofByte? (byte : UInt8) : Option JournalRecordKind :=
  if byte = 1 then some .attempt else if byte = 2 then some .snapshot
  else if byte = 3 then some .intent else none

/-- Check a file header; a failure carries the details of the two corruptions. -/
def checkHeader (magic : UInt32) (magicDetail crcDetail : UInt64) (header : List UInt8) : Status :=
  if getU32 header ≠ magic then .refused .journalCorrupt magicDetail
  else if header.getD 4 0 ≠ formatVersion then
    .refused .journalVersionUnsupported (header.getD 4 0).toUInt64
  else if getU32 (header.drop 8) ≠ crc32c (header.take 8) then .refused .journalCorrupt crcDetail
  else .success

/-! ### State -/

/-- The prefix and the snapshot interval are read by no modelled function. -/
structure FileJournalOptions where
  maxRecordBytes : Nat := 1 <<< 20
  maxBytes : UInt64 := (64 : UInt64) <<< (20 : UInt64)
  truncateTornTail : Bool := true
deriving DecidableEq, Repr

/-- `FileJournal`: its files, the places where it writes and scans, and which of its next operations
    fail. -/
structure FileJournal where
  options : FileJournalOptions := {}
  file : Option (List UInt8) := none
  snapshotFile : Option (List UInt8) := none
  faults : List (Option Nat) := []
  opened : Bool := false
  replaying : Bool := false
  torn : Bool := false
  writeOffset : Nat := 0
  scanOffset : Nat := 0
  bytes : Nat := 0
  truncatedBytes : Nat := 0
deriving DecidableEq, Repr

namespace FileJournal

/-- The bytes of the log. -/
def log (j : FileJournal) : List UInt8 := j.file.getD []

/-! ### Operations -/

/-- The result of the next operation: `some n` is a failure after `n` bytes. -/
def nextFault (j : FileJournal) : Option Nat × FileJournal :=
  (j.faults.head?.getD none, { j with faults := j.faults.tail })

/-- An operation that does not change a file. -/
def operation (detail : UInt64) (j : FileJournal) : Status × FileJournal :=
  let (fault, j) := j.nextFault
  (if fault.isSome then .refused .ioError detail else .success, j)

/-- Overwrite from `offset` on; a gap behind the end of the file is filled with zeros. -/
def writeAt (file : List UInt8) (offset : Nat) (data : List UInt8) : List UInt8 :=
  file.take offset ++ List.replicate (offset - file.length) 0 ++ data ++
    file.drop (offset + data.length)

/-- A write of the stream at an offset. -/
def write (detail : UInt64) (offset : Nat) (data : List UInt8) (j : FileJournal) :
    Status × FileJournal :=
  let (fault, j) := j.nextFault
  match fault with
  | none => (.success, { j with file := some (writeAt j.log offset data) })
  | some n =>
    (.refused .ioError detail, { j with file := some (writeAt j.log offset (data.take n)) })

/-- Flushing and synchronising. -/
def durableFlush (j : FileJournal) : Status × FileJournal := j.operation 0

/-- `truncate_stream`: flush, then cut the file at `size`. -/
def truncateStream (size : Nat) (j : FileJournal) : Status × FileJournal :=
  let (status, j) := j.operation 1
  if !status.ok then (status, j) else
  let (status, j) := j.operation 3
  if !status.ok then (status, j) else
  (.success, { j with file := some (j.log.take size) })

/-! ### The journal -/

/-- The end of `open`: the offsets are read off the file. -/
def openAt (j : FileJournal) : Status × FileJournal :=
  let j := { j with opened := true, replaying := false, torn := false, truncatedBytes := 0 }
  let (status, j) := j.operation 15
  if !status.ok then (status, j) else
  let (status, j) := j.operation 16
  if !status.ok then (status, j) else
  (.success, { j with writeOffset := j.log.length, scanOffset := headerBytes,
                      bytes := j.log.length })

/-- `FileJournal::open`. -/
def open_ (j : FileJournal) : Status × FileJournal :=
  -- the parent directory, then the stream
  let (status, j) := j.operation 0
  if !status.ok then (status, j) else
  let (status, j) := j.operation 10
  if !status.ok then (status, j) else
  match j.file with
  | none =>
    let (status, j) := { j with file := some [] }.write 11 0 (fileHeader journalMagic)
    if !status.ok then (status, j) else
    let (status, j) := j.durableFlush
    if !status.ok then (status, j) else j.openAt
  | some file =>
    if file.length < headerBytes then (.refused .journalCorrupt 12, j) else
    let status := checkHeader journalMagic 13 14 (file.take headerBytes)
    if !status.ok then (status, j) else j.openAt

/-- `rewrite_journal_header`. -/
def rewriteJournalHeader (j : FileJournal) : Status × FileJournal :=
  let (status, j) := j.operation 21
  if !status.ok then (status, j) else
  let (status, j) := j.write 22 0 (fileHeader journalMagic)
  if !status.ok then (status, j) else j.durableFlush

/-- `FileJournal::begin_replay`. -/
def beginReplay (j : FileJournal) : Status × FileJournal :=
  if !j.opened then (.refused .invalidState 30, j)
  else if j.replaying then (.refused .invalidState 31, j)
  else (.success, { j with scanOffset := headerBytes, torn := false, replaying := true })

/-- The scan has met a damaged record. -/
def tear (j : FileJournal) : FileJournal :=
  { j with torn := true, truncatedBytes := j.writeOffset - j.scanOffset }

/-- The record at the scan offset with the length of its envelope, if it is not damaged. -/
def scanRecord (j : FileJournal) : Option (JournalRecord × Nat) :=
  let head := (j.log.drop j.scanOffset).take recordOverhead
  if head.length < recordOverhead then none else
  let length := (getU32 head).toNat
  if length > j.options.maxRecordBytes ∨ length < envelopeBytes ∨
      j.scanOffset + recordOverhead + length > j.writeOffset then none else
  let envelope := (j.log.drop (j.scanOffset + recordOverhead)).take length
  if envelope.length ≠ length then none else
  if crc32c envelope ≠ getU32 (head.drop 4) then none else
  match JournalRecordKind.ofByte? (envelope.getD 8 0) with
  | none => none
  | some kind =>
    let record : JournalRecord :=
      { sequence := getU64 envelope, kind,
        chain := ⟨getU64 (envelope.drop 9), getU64 (envelope.drop 17)⟩,
        payload := envelope.drop envelopeBytes }
    some (record, length)

/-- `FileJournal::next_record`. -/
def nextRecord (j : FileJournal) : Status × Option JournalRecord × FileJournal :=
  if !j.opened then (.refused .invalidState 32, none, j) else
  if j.scanOffset + recordOverhead > j.writeOffset then
    (.success, none, if j.scanOffset ≠ j.writeOffset then j.tear else j)
  else
  let (status, j) := j.operation 34
  if !status.ok then (status, none, j) else
  match j.scanRecord with
  | none => (.success, none, j.tear)
  | some (record, length) =>
    (.success, some record, { j with scanOffset := j.scanOffset + recordOverhead + length })

/-- The torn tail is cut off, and the journal stays marked as torn. -/
def endReplay (j : FileJournal) : Status × FileJournal :=
  if !j.opened then (.refused .invalidState 40, j)
  else if !j.replaying then (.refused .invalidState 42, j)
  else
  let j := { j with replaying := false }
  if !j.torn then (.success, j) else
  if !j.options.truncateTornTail then
    (.refused .journalTorn (UInt64.ofNat j.truncatedBytes), j)
  else
  let (status, j) := j.truncateStream j.scanOffset
  if !status.ok then (status, j) else
  (.success, { j with writeOffset := j.scanOffset, bytes := j.scanOffset })

/-- `FileJournal::append`. -/
def append (j : FileJournal) (t : JournalRecord) : Status × FileJournal :=
  if !j.opened then (.refused .invalidState 50, j)
  else if j.replaying then (.refused .invalidState 51, j)
  else if j.torn then (.refused .journalTorn (UInt64.ofNat j.truncatedBytes), j)
  else if t.payload.length + envelopeBytes > j.options.maxRecordBytes then
    (.refused .oversizedFrame (UInt64.ofNat t.payload.length), j)
  else if j.bytes + t.payload.length + envelopeBytes + recordOverhead >
      j.options.maxBytes.toNat then
    (.refused .budgetExceeded (UInt64.ofNat j.bytes), j)
  else
  let (status, j) := j.operation 53
  if !status.ok then (status, j) else
  let envelope := encodeEnvelope t
  let (status, j) := j.write 54 j.writeOffset (recordPrefix envelope)
  if !status.ok then (status, j) else
  let (status, j) := j.write 55 (j.writeOffset + recordOverhead) envelope
  if !status.ok then (status, j) else
  let (status, j) := j.durableFlush
  if !status.ok then (status, j) else
  let writeOffset := j.writeOffset + recordOverhead + envelope.length
  (.success, { j with writeOffset, bytes := writeOffset })

/-- The sequence of the snapshot is not used: the whole log is dropped. -/
def rotate (j : FileJournal) (_snapshotSequence : UInt64) : Status × FileJournal :=
  if !j.opened then (.refused .invalidState 60, j) else
  let (status, j) := j.rewriteJournalHeader
  if !status.ok then (status, j) else
  let (status, j) := j.truncateStream headerBytes
  if !status.ok then (status, j) else
  let (status, j) := j.durableFlush
  if !status.ok then (status, j) else
  (.success, { j with writeOffset := headerBytes, scanOffset := headerBytes,
                      bytes := headerBytes, torn := false, truncatedBytes := 0 })

/-- The three writes of a snapshot go to a temporary file, which a failure removes. -/
def writeTemporary (payload : List UInt8) (j : FileJournal) : Status × FileJournal :=
  let (status, j) := j.operation 71
  if !status.ok then (status, j) else
  let (status, j) := if payload.isEmpty then (.success, j) else j.operation 71
  if !status.ok then (status, j) else j.operation 71

/-- `FileJournal::write_snapshot`: a temporary file that replaces the old one. -/
def writeSnapshot (j : FileJournal) (s : SnapshotImage) : Status × FileJournal :=
  if s.payload.length > snapshotPayloadLimit then
    (.refused .oversizedFrame (UInt64.ofNat s.payload.length), j)
  else
  let (status, j) := j.operation 70
  if !status.ok then (status, j) else
  let (status, j) := j.writeTemporary s.payload
  if !status.ok then (status, j) else
  let (status, j) := j.durableFlush
  if !status.ok then (status, j) else
  -- the replacement of the snapshot file is atomic
  let (status, j) := j.operation 0
  if !status.ok then (status, j) else
  (.success, { j with snapshotFile := some (snapshotBytes s) })

/-- The checks on the bytes of a snapshot file. -/
def parseSnapshot (file : List UInt8) : Except Status SnapshotImage :=
  if file.length < headerBytes + 16 then .error (.refused .journalCorrupt 81) else
  let status := checkHeader snapshotMagic 82 83 (file.take headerBytes)
  if !status.ok then .error status else
  -- the checksum block is at the end of the file, behind the payload
  let trailer := file.drop (file.length - 16)
  let length := (getU32 (trailer.drop 8)).toNat
  if length > snapshotPayloadLimit then .error (.refused .journalCorrupt 85) else
  let payload := (file.drop (headerBytes + 16)).take length
  if payload.length ≠ length then .error (.refused .journalCorrupt 86) else
  if crc32c payload ≠ getU32 (trailer.drop 12) then .error (.refused .journalCorrupt 87) else
  .ok { sequence := getU64 (file.drop headerBytes),
        chain := ⟨getU64 (file.drop (headerBytes + 8)), getU64 trailer⟩, payload }

/-- `FileJournal::read_snapshot`. -/
def readSnapshot (j : FileJournal) : Status × Option SnapshotImage × FileJournal :=
  match j.snapshotFile with
  | none => (.success, none, j)
  | some file =>
    let (status, j) := j.operation 80
    if !status.ok then (status, none, j) else
    match parseSnapshot file with
    | .error status => (status, none, j)
    | .ok image => (.success, some image, j)

/-! ### A journal -/

/-- A record that is scanned lies in front of the end of the log. -/
theorem scanRecord_bound {j : FileJournal} {t : JournalRecord} {n : Nat}
    (h : j.scanRecord = some (t, n)) : j.scanOffset + recordOverhead + n ≤ j.writeOffset := by
  unfold scanRecord at h
  simp only at h
  split_ifs at h with hhead hsize hlen hcrc
  cases hkind : JournalRecordKind.ofByte? _ with
  | none =>
    rw [hkind] at h
    exact absurd h (by simp)
  | some kind =>
    rw [hkind] at h
    simp only [Option.some.injEq, Prod.mk.injEq] at h
    omega

/-- A replay reads on towards the end of the log. -/
theorem remaining_nextRecord (j : FileJournal) (t : JournalRecord)
    (h : (nextRecord j).2.1 = some t) :
    (nextRecord j).2.2.writeOffset - (nextRecord j).2.2.scanOffset <
      j.writeOffset - j.scanOffset := by
  unfold nextRecord at h ⊢
  simp only at h ⊢
  split_ifs at h ⊢ with hopened hroom hstatus
  cases hrecord : (j.operation 34).2.scanRecord with
  | none =>
    rw [hrecord] at h
    exact absurd h (by simp)
  | some found =>
    obtain ⟨record, length⟩ := found
    have hbound : j.scanOffset + recordOverhead + length ≤ j.writeOffset :=
      scanRecord_bound hrecord
    show j.writeOffset - (j.scanOffset + recordOverhead + length) < j.writeOffset - j.scanOffset
    unfold recordOverhead at *
    omega

instance : Journal FileJournal where
  open_ := open_
  append := append
  beginReplay := beginReplay
  nextRecord := nextRecord
  endReplay := endReplay
  rotate := rotate
  writeSnapshot := writeSnapshot
  readSnapshot := readSnapshot
  bytes := bytes
  remaining j := j.writeOffset - j.scanOffset
  remaining_nextRecord := remaining_nextRecord

/-- A journal over the files that another one left behind. -/
def restart (j : FileJournal) : FileJournal :=
  { options := j.options, file := j.file, snapshotFile := j.snapshotFile, faults := j.faults }

end FileJournal

end CreditFabric
