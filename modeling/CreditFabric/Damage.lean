import CreditFabric.TornTail
import CreditFabric.Crc32c

namespace CreditFabric

/-!
# The replay of a damaged log

A log is cut at an arbitrary byte behind its header, or one byte of it is replaced.  Outside the
length fields a replaced byte is noticed: it is a byte of the checksum, or one of the envelope,
and then the checksum of the envelope is another one.

* `scanRecord_replaced`: a record with a replaced byte is never read.
* `damaged_scans_iff`: every damage leaves exactly the records in front of it, as long as all
  records are of a known kind and of a length that the length field can hold.
-/

namespace FileJournal

/-- What happens to the bytes of a log. -/
inductive Damage where
  | none
  | cut (size : Nat)
  | replaced (position : Nat) (byte : UInt8)
deriving DecidableEq, Repr

/-- The position is one of the four bytes of a length field. -/
def InLength (recs : List JournalRecord) (position : Nat) : Prop :=
  ∃ k, k < recs.length ∧ (logBytes (recs.take k)).length ≤ position ∧
    position < (logBytes (recs.take k)).length + 4

namespace Damage

/-- What the damage makes of a log. -/
def apply : Damage → List UInt8 → List UInt8
  | .none, log => log
  | .cut size, log => log.take size
  | .replaced position byte, log => log.set position byte

/-- The number of bytes in front of the damage. -/
def place : Damage → List UInt8 → Nat
  | .none, log => log.length
  | .cut size, _ => size
  | .replaced position _, _ => position

/-- The damages considered: no damage, a cut at or behind the header, or another byte at a
    position behind the header and outside the length fields. -/
def Considered (recs : List JournalRecord) : Damage → Prop
  | .none => True
  | .cut size => headerBytes ≤ size ∧ size ≤ (logBytes recs).length
  | .replaced position byte =>
    headerBytes ≤ position ∧ position < (logBytes recs).length ∧
      (logBytes recs)[position]? ≠ some byte ∧ ¬ InLength recs position

/-- The damages that a scan reports: all but a cut on a boundary. -/
def Reported (recs : List JournalRecord) : Damage → Prop
  | .none => False
  | .cut size => ¬ OnBoundary recs size
  | .replaced _ _ => True

end Damage

/-- A journal over the files that another one left behind, with a damaged log. -/
def damaged (j : FileJournal) (d : Damage) : FileJournal :=
  { j.restart with file := some (d.apply j.log) }

/-- The journal opens and its scan returns `kept`, then reports a torn tail if `torn`. -/
def Scans (j : FileJournal) (kept : List JournalRecord) (torn : Prop) : Prop :=
  ∃ j₁ j₂ j₃, j.open_ = (.success, j₁) ∧ j₁.beginReplay = (.success, j₂) ∧ Reads j₂ kept j₃ ∧
    (j₃.torn = true ↔ torn)

/-! ### A replaced byte -/

/-- The checksum field with a replaced byte is another one. -/
theorem getU32_replaced {v : UInt32} {i : Nat} {byte : UInt8} (hi : i < 4)
    (h : getU32 ((ByteWriter.u32 v).set i byte) = v) : (ByteWriter.u32 v)[i]? = some byte := by
  have hlen : ((ByteWriter.u32 v).set i byte).length = 4 := by
    rw [List.length_set, ByteWriter.length_u32]
  have hlt := Lib.leValue_lt ((ByteWriter.u32 v).set i byte)
  rw [hlen] at hlt
  unfold getU32 at h
  rw [List.take_of_length_le (le_of_eq hlen)] at h
  have hvalue : Lib.leValue ((ByteWriter.u32 v).set i byte) = v.toNat := by
    have hnat := congrArg UInt32.toNat h
    rw [UInt32.toNat_ofNat_of_lt' hlt] at hnat
    exact hnat
  have hsame : (ByteWriter.u32 v).set i byte = ByteWriter.u32 v :=
    (Lib.leBytes_eq_iff v.toNat_lt _).mp ⟨hlen, hvalue⟩
  rw [← hsame, List.getElem?_set_self (by rw [ByteWriter.length_u32]; exact hi)]

/-- A record with a byte replaced behind its length field: the checksum field or the envelope
    is another one, and they no longer agree. -/
private theorem recordBytes_replaced {t : JournalRecord} {i : Nat} {byte : UInt8} (hlow : 4 ≤ i)
    (hhigh : i < (recordBytes t).length) (hne : (recordBytes t)[i]? ≠ some byte) :
    ∃ check envelope, (recordBytes t).set i byte =
        ByteWriter.u32 (UInt32.ofNat (encodeEnvelope t).length) ++ (check ++ envelope) ∧
      check.length = 4 ∧ envelope.length = (encodeEnvelope t).length ∧
      crc32c envelope ≠ getU32 check := by
  rw [length_recordBytes] at hhigh
  have henv := length_encodeEnvelope t
  -- the checksum, then the envelope
  have hsplit : recordBytes t = ByteWriter.u32 (UInt32.ofNat (encodeEnvelope t).length) ++
      (ByteWriter.u32 (crc32c (encodeEnvelope t)) ++ encodeEnvelope t) := by
    unfold recordBytes recordPrefix
    rw [List.append_assoc]
  rw [hsplit] at hne ⊢
  rw [List.getElem?_append_right (by rw [ByteWriter.length_u32]; exact hlow),
    ByteWriter.length_u32] at hne
  rw [List.set_append_right _ _ (by rw [ByteWriter.length_u32]; exact hlow), ByteWriter.length_u32]
  by_cases hcheck : i - 4 < 4
  · -- a byte of the checksum
    refine ⟨(ByteWriter.u32 (crc32c (encodeEnvelope t))).set (i - 4) byte, encodeEnvelope t,
      ?_, ?_, rfl, ?_⟩
    · rw [List.set_append_left _ _ (by rw [ByteWriter.length_u32]; exact hcheck)]
    · rw [List.length_set, ByteWriter.length_u32]
    · intro hagree
      rw [List.getElem?_append_left (by rw [ByteWriter.length_u32]; exact hcheck)] at hne
      exact hne (getU32_replaced hcheck hagree.symm)
  · -- a byte of the envelope
    have hge : 4 ≤ i - 4 := Nat.not_lt.mp hcheck
    refine ⟨ByteWriter.u32 (crc32c (encodeEnvelope t)), (encodeEnvelope t).set (i - 4 - 4) byte,
      ?_, ByteWriter.length_u32 _, List.length_set, ?_⟩
    · rw [List.set_append_right _ _ (by rw [ByteWriter.length_u32]; exact hge),
        ByteWriter.length_u32]
    · intro hagree
      rw [List.getElem?_append_right (by rw [ByteWriter.length_u32]; exact hge),
        ByteWriter.length_u32] at hne
      have hget := getU32_append (crc32c (encodeEnvelope t)) []
      rw [List.append_nil] at hget
      rw [hget] at hagree
      exact hne (crc32c_set (by omega) hagree)

/-- A record with a byte replaced behind its length field is no record. -/
theorem scanRecord_replaced {j : FileJournal} {pre rest : List UInt8} {t : JournalRecord} {i : Nat}
    {byte : UInt8} (h : Scanning j pre ((recordBytes t).set i byte ++ rest))
    (hfits : Fits j.options t) (hlow : 4 ≤ i) (hhigh : i < (recordBytes t).length)
    (hne : (recordBytes t)[i]? ≠ some byte) : j.scanRecord = none := by
  obtain ⟨check, envelope, hset, hcheck, henvelope, hcrc⟩ := recordBytes_replaced hlow hhigh hne
  have hrest : j.log.drop j.scanOffset =
      (ByteWriter.u32 (UInt32.ofNat (encodeEnvelope t).length) ++ check) ++ (envelope ++ rest) := by
    rw [h.log, h.scan, List.drop_left, hset]
    simp only [List.append_assoc]
  have hlen : (ByteWriter.u32 (UInt32.ofNat (encodeEnvelope t).length) ++ check).length =
      recordOverhead := by
    rw [List.length_append, ByteWriter.length_u32, hcheck]
    rfl
  have hhead : (j.log.drop j.scanOffset).take recordOverhead =
      ByteWriter.u32 (UInt32.ofNat (encodeEnvelope t).length) ++ check := by
    rw [hrest]
    exact List.take_left' hlen
  have hlength : (getU32 (ByteWriter.u32 (UInt32.ofNat (encodeEnvelope t).length) ++
      check)).toNat = envelope.length := by
    have hfull := getU32_recordPrefix hfits
    unfold recordPrefix at hfull
    rw [getU32_append] at hfull
    rw [getU32_append, hfull, henvelope, length_encodeEnvelope]
  have hbody : (j.log.drop (j.scanOffset + recordOverhead)).take envelope.length = envelope := by
    rw [← List.drop_drop, hrest, List.drop_left' hlen]
    exact List.take_left
  have hfield : (ByteWriter.u32 (UInt32.ofNat (encodeEnvelope t).length) ++ check).drop 4 =
      check := List.drop_left' (ByteWriter.length_u32 _)
  unfold scanRecord
  simp only [hhead, hlength, hbody, hfield, hcrc, ne_eq, not_false_eq_true, if_true, ite_self]

/-! ### The records in front of a damage -/

/-- A position behind the header lies in one record, behind those that survive. -/
theorem surviving_split (recs : List JournalRecord) (position : Nat)
    (h : position < (recs.flatMap recordBytes).length) :
    ∃ t rest, recs = surviving position recs ++ t :: rest ∧
      ((surviving position recs).flatMap recordBytes).length ≤ position ∧
      position < ((surviving position recs).flatMap recordBytes).length +
        (recordBytes t).length := by
  induction recs generalizing position with
  | nil => exact absurd h (by simp)
  | cons t recs ih =>
    by_cases hfits : (recordBytes t).length ≤ position
    · have hrest : position - (recordBytes t).length < (recs.flatMap recordBytes).length := by
        rw [List.flatMap_cons, List.length_append] at h
        omega
      obtain ⟨t', rest, hsplit, hlow, hhigh⟩ := ih _ hrest
      refine ⟨t', rest, ?_, ?_, ?_⟩
      · rw [surviving, if_pos hfits, List.cons_append, ← hsplit]
      · rw [surviving, if_pos hfits, List.flatMap_cons, List.length_append]
        omega
      · rw [surviving, if_pos hfits, List.flatMap_cons, List.length_append]
        omega
    · refine ⟨t, recs, ?_, ?_, ?_⟩ <;> rw [surviving, if_neg hfits]
      · rfl
      · exact Nat.zero_le _
      · rw [List.flatMap_nil, List.length_nil, Nat.zero_add]
        exact Nat.not_le.mp hfits

/-- Over an intact log the scan returns all records. -/
theorem scans_intact {j : FileJournal} (h : j.faults = []) {recs : List JournalRecord}
    (hfile : j.file = some (logBytes recs)) (hreadable : Readable j.options recs) :
    Scans j recs False := by
  refine ⟨j.ready, j.begun, _, (open_of_header h hfile).trans (openAt_of_none h), rfl,
    reads_intact h hfile hreadable, ?_⟩
  exact ⟨fun htorn => absurd (show false = true from htorn) (by decide), False.elim⟩

/-- Behind intact records the scan meets bytes that are no record, and reports them. -/
theorem scans_torn {j : FileJournal} (h : j.faults = []) {kept : List JournalRecord}
    {part : List UInt8} (hfile : j.file = some (logBytes kept ++ part))
    (hreadable : Readable j.options kept) (hne : part ≠ [])
    (hrecord : ∀ k : FileJournal, k.options = j.options → Scanning k (logBytes kept) part →
      recordOverhead ≤ part.length → k.scanRecord = none) : Scans j kept True := by
  rw [logBytes, List.append_assoc] at hfile
  have hscan := begun_scanning h hfile
  have htorn := nextRecord_torn hscan.skip hne (hrecord _ rfl hscan.skip)
  have hreads : Reads j.begun (kept ++ []) _ := reads_records hscan hreadable (.done htorn)
  rw [List.append_nil] at hreads
  exact ⟨j.ready, j.begun, _, (open_of_header h hfile).trans (openAt_of_none h), rfl, hreads,
    fun _ => trivial, fun _ => rfl⟩

/-- A cut behind the header leaves the complete records. -/
theorem scans_cut {j : FileJournal} {recs : List JournalRecord} (h : Wrote j recs)
    (hknown : ∀ t ∈ recs, Known t) {size : Nat} (hheader : headerBytes ≤ size)
    (hsize : size ≤ (logBytes recs).length) :
    Scans (j.damaged (.cut size)) (surviving (size - headerBytes) recs)
      (¬ OnBoundary recs size) := by
  obtain ⟨part, htake, hboundary, hpart⟩ := take_logBytes hheader hsize
  have hreadable := readable_of_known h.record hknown
  have hkept : Readable j.options (surviving (size - headerBytes) recs) :=
    fun t ht => hreadable t (mem_of_mem_surviving ht)
  have hfile : (j.damaged (.cut size)).file =
      some (logBytes (surviving (size - headerBytes) recs) ++ part) := by
    show some (j.log.take size) = _
    rw [h.log, htake]
  by_cases hnil : part = []
  · -- the cut falls between two records
    have hnot : (¬ OnBoundary recs size) = False := by simpa using hboundary.mp hnil
    rw [hnil, List.append_nil] at hfile
    rw [hnot]
    exact scans_intact (j := j.damaged (.cut size)) h.faults hfile hkept
  · -- the cut falls into the record behind the complete ones
    obtain ⟨t, ht, hpre, hshort⟩ := hpart.resolve_left hnil
    have hinside : (¬ OnBoundary recs size) = True := by simpa using mt hboundary.mpr hnil
    rw [hinside]
    refine scans_torn (j := j.damaged (.cut size)) h.faults hfile hkept hnil ?_
    intro k hoptions hscan hlen
    refine scanRecord_short hscan ?_ hpre hshort hlen
    rw [hoptions]
    exact (hreadable t ht).1

/-- A replaced byte leaves the records in front of its own. -/
theorem scans_replaced {j : FileJournal} {recs : List JournalRecord} (h : Wrote j recs)
    (hknown : ∀ t ∈ recs, Known t) {position : Nat} {byte : UInt8}
    (hheader : headerBytes ≤ position) (hposition : position < (logBytes recs).length)
    (hne : (logBytes recs)[position]? ≠ some byte) (hlength : ¬ InLength recs position) :
    Scans (j.damaged (.replaced position byte)) (surviving (position - headerBytes) recs)
      True := by
  rw [length_logBytes] at hposition
  obtain ⟨t, rest, hsplit, hlow, hhigh⟩ := surviving_split recs (position - headerBytes) (by omega)
  have hreadable := readable_of_known h.record hknown
  generalize hkept : surviving (position - headerBytes) recs = kept at *
  have hmem : t ∈ recs := by
    rw [hsplit]
    exact List.mem_append_right kept List.mem_cons_self
  have hlog : logBytes recs = logBytes kept ++ (recordBytes t ++ rest.flatMap recordBytes) := by
    conv_lhs => rw [hsplit]
    unfold logBytes
    rw [List.flatMap_append, List.flatMap_cons, List.append_assoc]
  have hbefore : (logBytes kept).length ≤ position := by
    rw [length_logBytes]
    omega
  have hwithin : position - (logBytes kept).length < (recordBytes t).length := by
    rw [length_logBytes]
    omega
  -- the position is behind the length field of its record
  have hbehind : 4 ≤ position - (logBytes kept).length := by
    by_contra hin
    refine hlength ⟨kept.length, ?_, ?_, ?_⟩
    · rw [hsplit, List.length_append, List.length_cons]
      omega
    · rw [hsplit, List.take_left]
      exact hbefore
    · rw [hsplit, List.take_left]
      omega
  have hset : (logBytes recs).set position byte = logBytes kept ++
      ((recordBytes t).set (position - (logBytes kept).length) byte ++
        rest.flatMap recordBytes) := by
    rw [hlog, List.set_append_right _ _ hbefore, List.set_append_left _ _ hwithin]
  have hother : (recordBytes t)[position - (logBytes kept).length]? ≠ some byte := by
    rw [hlog, List.getElem?_append_right hbefore, List.getElem?_append_left hwithin] at hne
    exact hne
  have hfile : (j.damaged (.replaced position byte)).file = some (logBytes kept ++
      ((recordBytes t).set (position - (logBytes kept).length) byte ++
        rest.flatMap recordBytes)) := by
    show some (j.log.set position byte) = _
    rw [h.log, hset]
  refine scans_torn (j := j.damaged (.replaced position byte)) h.faults hfile ?_ ?_ ?_
  · intro t' ht'
    refine hreadable t' ?_
    rw [hsplit]
    exact List.mem_append_left _ ht'
  · intro hnil
    have hnone := congrArg List.length hnil
    rw [List.length_append, List.length_set, length_recordBytes, List.length_nil] at hnone
    omega
  · intro k hoptions hscan _
    refine scanRecord_replaced hscan ?_ hbehind hwithin hother
    rw [hoptions]
    exact (hreadable t hmem).1

/-- **A damaged log replays to its intact part.**  Records are appended to a new journal.
    Exactly when they are all of a known kind and of a length that the length field can hold,
    every damage considered leaves the records that lie in front of it, and is reported unless
    it is a cut between two records; without a damage all records are returned. -/
theorem damaged_scans_iff (options : FileJournalOptions) (snapshotFile : Option (List UInt8))
    (recs : List JournalRecord) (j : FileJournal)
    (happended : appendAll ({ options, snapshotFile } : FileJournal).open_.2 recs =
      (.success, j)) :
    (∀ d : Damage, d.Considered recs →
      Scans (j.damaged d) (surviving (d.place j.log - headerBytes) recs) (d.Reported recs)) ↔
      ∀ t ∈ recs, Known t := by
  have hwrote : Wrote j recs := by
    obtain ⟨hnew, -⟩ := wrote_open (j := { options, snapshotFile }) rfl rfl
    have hok : (appendAll ({ options, snapshotFile } : FileJournal).open_.2 recs).1.ok = true := by
      rw [happended]
      rfl
    obtain ⟨hall, -⟩ := hnew.appendAll hok
    rw [happended] at hall
    exact hall
  -- the undamaged log survives whole
  have hfull : surviving (j.log.length - headerBytes) recs = recs := by
    have hall := surviving_take recs recs.length
    rw [List.take_length] at hall
    rw [hwrote.log, length_logBytes, Nat.add_sub_cancel_left]
    exact hall
  refine ⟨?_, ?_⟩
  · -- a replay returns known records only
    intro hscans t ht
    obtain ⟨j₁, j₂, j₃, hopen, hbegin, hreads, -⟩ := hscans .none trivial
    have hfile : (j.damaged .none).file = some (logBytes recs) := by
      show some j.log = _
      rw [hwrote.log]
    rw [(open_of_header (j := j.damaged .none) hwrote.faults hfile).trans
      (openAt_of_none (j := j.damaged .none) hwrote.faults)] at hopen
    cases hopen
    have hbegun : (j.damaged .none).ready.beginReplay = (.success, (j.damaged .none).begun) := rfl
    rw [hbegun] at hbegin
    cases hbegin
    obtain ⟨hknown, -, -⟩ := reads_scanned hreads
      (begun_scanning (j := j.damaged .none) hwrote.faults hfile)
    refine hknown t ?_
    show t ∈ surviving (j.log.length - headerBytes) recs
    rw [hfull]
    exact ht
  · intro hknown d hconsidered
    -- each kind of damage: none, a cut, a byte replaced
    cases d with
    | none =>
      show Scans (j.damaged .none) (surviving (j.log.length - headerBytes) recs) False
      rw [hfull]
      refine scans_intact (j := j.damaged .none) hwrote.faults ?_
        (readable_of_known hwrote.record hknown)
      show some j.log = _
      rw [hwrote.log]
    | cut size => exact scans_cut hwrote hknown hconsidered.1 hconsidered.2
    | replaced position byte =>
      obtain ⟨hheader, hposition, hne, hlength⟩ := hconsidered
      exact scans_replaced hwrote hknown hheader hposition hne hlength

namespace UnknownKind

/-- A record that carries the kind `Unknown`, in front of an attempt. -/
def records : List JournalRecord :=
  [{ sequence := 1, kind := .unknown, chain := ⟨0, 0⟩, payload := [7] },
   { sequence := 2, kind := .attempt, chain := ⟨1, 2⟩, payload := [8] }]

/-- A journal with the default options that has accepted both. -/
def written : FileJournal := (appendAll ({} : FileJournal).open_.2 records).2

/-- Both records are accepted, but the replay of the undamaged log does not return them. -/
theorem unknown_not_returned :
    appendAll ({} : FileJournal).open_.2 records = (.success, written) ∧
      ¬ Scans (written.damaged .none) records False := by
  refine ⟨by decide +kernel, ?_⟩
  rintro ⟨j₁, j₂, j₃, hopen, hbegin, hreads, -⟩
  have hfirst : (written.damaged .none).open_.2.beginReplay.2.nextRecord.2.1 = none := by
    decide +kernel
  rw [hopen] at hfirst
  simp only at hfirst
  rw [hbegin] at hfirst
  cases hreads with
  | next hread _ =>
    change j₂.nextRecord = _ at hread
    rw [hread] at hfirst
    exact absurd hfirst (by simp)

/-- A journal that has accepted the attempt only. -/
def attempted : FileJournal := (appendAll ({} : FileJournal).open_.2 (records.drop 1)).2

/-- A byte of its envelope is replaced. -/
theorem attempt_scanned : Scans (attempted.damaged (.replaced 40 9)) [] True := by
  have hknown : ∀ t ∈ records.drop 1, Known t := by
    intro t ht
    rw [List.mem_singleton.mp ht]
    exact ⟨by decide, by decide⟩
  have hconsidered : (Damage.replaced 40 9).Considered (records.drop 1) := by
    refine ⟨by decide, by decide +kernel, by decide +kernel, ?_⟩
    rintro ⟨k, hk, hlow, hhigh⟩
    have hzero : k = 0 := by
      have : (records.drop 1).length = 1 := rfl
      omega
    rw [hzero] at hhigh
    exact absurd hhigh (by decide +kernel)
  have hscans := (damaged_scans_iff {} none (records.drop 1) attempted (by decide +kernel)).mpr
    hknown _ hconsidered
  have hkept : surviving (40 - headerBytes) (records.drop 1) = [] := by decide +kernel
  change Scans _ (surviving (40 - headerBytes) (records.drop 1)) True at hscans
  rw [hkept] at hscans
  exact hscans

end UnknownKind

end FileJournal

end CreditFabric
