import CreditFabric.Stored
import CreditFabric.Faults

namespace CreditFabric

/-!
# The file journal keeps the contract

What the operations of a file journal leave in its two files, whichever of them fails, and what
the next process reads there.

* `append_leaves`: a failed append leaves the log as it was, with a part of the record behind it
  that no replay returns, or with the whole record.
* `yields_of_leaves`: opening and replaying the files returns exactly what they hold and cuts the
  rest off, as long as no operation of the replay fails.

A rotation that fails in its last flush has cut the log off and left the write offset behind its
end.  What is appended at that offset is not read back: the contract holds up to the first call
that does not return Ok, and no further.
-/

namespace FileJournal

/-! ### Operations that have succeeded -/

/-- The journal with no failures to come. -/
def calm (j : FileJournal) : FileJournal := { j with faults := [] }

/-- What has failed has not succeeded. -/
theorem refused_not_success {α : Type} {s : Status} {x y : α} {P : Prop}
    (h : (s, x) = (Status.success, y)) (hs : s.ok = false) : P := by
  rw [(Prod.mk.inj h).1] at hs
  exact absurd hs (by decide)

/-- Behind a step that has succeeded the next one has been made. -/
theorem next_of_success {s : Status} {j₀ j' : FileJournal} {rest : Status × FileJournal}
    (h : (if !s.ok then (s, j₀) else rest) = (.success, j')) :
    s.ok = true ∧ rest = (.success, j') := by
  cases hok : s.ok with
  | false =>
    rw [if_pos (by rw [hok]; rfl)] at h
    exact refused_not_success h hok
  | true =>
    rw [if_neg (by rw [hok]; decide)] at h
    exact ⟨rfl, h⟩

/-- A write that has succeeded is one that nothing has stopped. -/
theorem write_of_success {j : FileJournal} {detail : UInt64} {offset : Nat} {data : List UInt8}
    (h : (j.write detail offset data).1.ok = true) :
    (j.write detail offset data).2.calm =
      { j with faults := [], file := some (writeAt j.log offset data) } := by
  unfold write nextFault at h ⊢
  cases hfault : j.faults.head?.getD none with
  | none => rfl
  | some n =>
    rw [hfault] at h
    exact absurd (show false = true from h) (by decide)

/-- A truncation that has succeeded has cut the file. -/
theorem truncateStream_of_success {j : FileJournal} {size : Nat}
    (h : (j.truncateStream size).1.ok = true) :
    (j.truncateStream size).2.calm = { j.calm with file := some (j.log.take size) } := by
  unfold truncateStream at h ⊢
  simp only at h ⊢
  split_ifs at h ⊢ with hflush hcut
  · rw [h] at hflush
    exact absurd hflush (by decide)
  · rw [h] at hcut
    exact absurd hcut (by decide)
  · rfl

/-- An open that succeeds meets no fault. -/
theorem openAt_calm {j j' : FileJournal} (h : j.openAt = (.success, j')) :
    j'.calm = j.calm.ready := by
  unfold openAt at h
  simp only at h
  obtain ⟨-, h⟩ := next_of_success h
  obtain ⟨-, h⟩ := next_of_success h
  rw [← (Prod.mk.inj h).2]
  rfl

/-- Opening leaves what it leaves when nothing fails. -/
theorem open_calm {j j' : FileJournal} (h : j.open_ = (.success, j')) :
    j.calm.open_ = (.success, j'.calm) := by
  unfold open_ at h
  simp only at h
  obtain ⟨-, h⟩ := next_of_success h
  obtain ⟨-, h⟩ := next_of_success h
  have hsame : ((j.operation 0).2.operation 10).2.calm = j.calm := rfl
  generalize ((j.operation 0).2.operation 10).2 = j₀ at h hsame
  rw [← hsame]
  cases hfile : j₀.file with
  | none =>
    -- the log is created
    simp only [hfile] at h
    obtain ⟨hwritten, h⟩ := next_of_success h
    obtain ⟨-, h⟩ := next_of_success h
    have hwrite := write_of_success hwritten
    have hend := openAt_calm h
    rw [show ((write 11 0 (fileHeader journalMagic) { j₀ with file := some [] }).2.durableFlush).2.calm
      = _ from hwrite] at hend
    rw [open_of_absent (j := j₀.calm) rfl hfile, openAt_of_none rfl, hend]
    rfl
  | some file =>
    simp only [hfile] at h
    by_cases hshort : file.length < headerBytes
    · rw [if_pos hshort] at h
      exact refused_not_success h rfl
    · rw [if_neg hshort] at h
      obtain ⟨hheader, h⟩ := next_of_success h
      have hend := openAt_calm h
      unfold open_
      simp only [operation_of_none (j := j₀.calm) rfl, Status.ok_success, Bool.not_true,
        Bool.false_eq_true, if_false, show j₀.calm.file = some file from hfile, hshort, hheader,
        openAt_of_none (j := j₀.calm) rfl, hend]

/-- Nor does the read of a snapshot that succeeds. -/
theorem readSnapshot_calm {j j' : FileJournal} {snap : Option SnapshotImage}
    (h : j.readSnapshot = (.success, snap, j')) :
    j.calm.readSnapshot = (.success, snap, j'.calm) := by
  unfold readSnapshot at h ⊢
  rw [show j.calm.snapshotFile = j.snapshotFile from rfl]
  cases hfile : j.snapshotFile with
  | none =>
    rw [hfile] at h
    cases h
    rfl
  | some file =>
    simp only [hfile, operation_of_none (j := j.calm) rfl, Status.ok_success, Bool.not_true,
      Bool.false_eq_true, if_false] at h ⊢
    cases hok : (j.operation 80).1.ok with
    | false =>
      rw [hok] at h
      exact refused_not_success h hok
    | true =>
      rw [hok] at h
      simp only [Bool.not_true, Bool.false_eq_true, if_false] at h
      cases hparsed : parseSnapshot file with
      | error s =>
        rw [hparsed] at h
        cases h
        rfl
      | ok image =>
        rw [hparsed] at h
        cases h
        rfl

/-- Nor does the read of a record. -/
theorem nextRecord_calm {j j' : FileJournal} {next : Option JournalRecord}
    (h : j.nextRecord = (.success, next, j')) :
    j.calm.nextRecord = (.success, next, j'.calm) := by
  unfold nextRecord at h ⊢
  by_cases hopened : (!j.opened) = true
  · rw [if_pos hopened] at h
    -- an open that fails, the end of the log, or the read of one record
    exact refused_not_success h rfl
  by_cases hroom : j.scanOffset + recordOverhead > j.writeOffset
  · rw [if_neg hopened, if_pos hroom] at h
    rw [if_neg (show ¬ (!j.calm.opened) = true from hopened),
      if_pos (show j.calm.scanOffset + recordOverhead > j.calm.writeOffset from hroom)]
    by_cases hend : j.scanOffset ≠ j.writeOffset
    · rw [if_pos hend] at h
      rw [if_pos (show j.calm.scanOffset ≠ j.calm.writeOffset from hend)]
      cases h
      rfl
    · rw [if_neg hend] at h
      rw [if_neg (show ¬ j.calm.scanOffset ≠ j.calm.writeOffset from hend)]
      cases h
      rfl
  · rw [if_neg hopened, if_neg hroom] at h
    rw [if_neg (show ¬ (!j.calm.opened) = true from hopened),
      if_neg (show ¬ j.calm.scanOffset + recordOverhead > j.calm.writeOffset from hroom)]
    simp only [operation_of_none (j := j.calm) rfl, Status.ok_success, Bool.not_true,
      Bool.false_eq_true, if_false] at h ⊢
    cases hok : (j.operation 34).1.ok with
    | false =>
      rw [hok] at h
      exact refused_not_success h hok
    | true =>
      rw [hok] at h
      simp only [Bool.not_true, Bool.false_eq_true, if_false] at h
      rw [show (j.operation 34).2.scanRecord = j.calm.scanRecord from rfl] at h
      cases hrecord : j.calm.scanRecord with
      | none =>
        rw [hrecord] at h
        cases h
        rfl
      | some found =>
        rw [hrecord] at h
        cases h
        rfl

/-- Nor does the end of a replay. -/
theorem endReplay_calm {j j' : FileJournal} (h : j.endReplay = (.success, j')) :
    j.calm.endReplay = (.success, j'.calm) := by
  unfold endReplay at h ⊢
  by_cases hopened : (!j.opened) = true
  · rw [if_pos hopened] at h
    exact refused_not_success h rfl
  by_cases hreplaying : (!j.replaying) = true
  · rw [if_neg hopened, if_pos hreplaying] at h
    exact refused_not_success h rfl
  rw [if_neg hopened, if_neg hreplaying] at h
  rw [if_neg (show ¬ (!j.calm.opened) = true from hopened),
    if_neg (show ¬ (!j.calm.replaying) = true from hreplaying)]
  simp only at h ⊢
  by_cases htorn : (!j.torn) = true
  · rw [if_pos htorn] at h
    rw [if_pos (show (!j.calm.torn) = true from htorn)]
    cases h
    rfl
  rw [if_neg htorn] at h
  rw [if_neg (show ¬ (!j.calm.torn) = true from htorn)]
  by_cases htruncate : (!j.options.truncateTornTail) = true
  · rw [if_pos htruncate] at h
    exact refused_not_success h rfl
  rw [if_neg htruncate] at h
  rw [if_neg (show ¬ (!j.calm.options.truncateTornTail) = true from htruncate),
    truncateStream_of_none (j := { j.calm with replaying := false }) rfl]
  obtain ⟨hcut, h⟩ := next_of_success h
  have hafter := truncateStream_of_success hcut
  generalize truncateStream j.scanOffset { j with replaying := false } = result at h hafter
  rw [← (Prod.mk.inj h).2, show FileJournal.calm { result.2 with
    writeOffset := result.2.scanOffset, bytes := result.2.scanOffset } = { result.2.calm with
    writeOffset := result.2.calm.scanOffset, bytes := result.2.calm.scanOffset } from rfl, hafter]
  rfl

/-- Nor does its beginning. -/
theorem beginReplay_calm {j j' : FileJournal} (h : j.beginReplay = (.success, j')) :
    j.calm.beginReplay = (.success, j'.calm) := by
  unfold beginReplay at h ⊢
  by_cases hopened : (!j.opened) = true
  · rw [if_pos hopened] at h
    exact refused_not_success h rfl
  by_cases hreplaying : j.replaying = true
  · rw [if_neg hopened, if_pos hreplaying] at h
    exact refused_not_success h rfl
  rw [if_neg hopened, if_neg hreplaying] at h
  rw [if_neg (show ¬ (!j.calm.opened) = true from hopened),
    if_neg (show ¬ j.calm.replaying = true from hreplaying), ← (Prod.mk.inj h).2]
  rfl

/-- Records that are read are read without the faults to come. -/
theorem reads_calm {j j' : FileJournal} {recs : List JournalRecord} (h : Reads j recs j') :
    Reads j.calm recs j'.calm := by
  induction h with
  | done h => exact .done (nextRecord_calm h)
  | next h _ ih => exact .next (nextRecord_calm h) ih

/-- **Calm.**  A replay that has succeeded has found what it finds when nothing can fail. -/
theorem yields_calm {j j' : FileJournal} {snap : Option SnapshotImage} {recs : List JournalRecord}
    (h : Yields j snap recs j') : Yields j.calm snap recs j'.calm := by
  obtain ⟨j₁, j₂, j₃, j₄, hopen, hread, hbegin, hreads, hend⟩ := h
  exact ⟨j₁.calm, j₂.calm, j₃.calm, j₄.calm, open_calm hopen, readSnapshot_calm hread,
    beginReplay_calm hbegin, reads_calm hreads, endReplay_calm hend⟩

/-- A torn tail that may not be cut off is refused. -/
theorem endReplay_refused {j j' : FileJournal} (hopened : j.opened = true)
    (hreplaying : j.replaying = true) (htorn : j.torn = true)
    (htruncate : j.options.truncateTornTail = false) : j.endReplay ≠ (.success, j') := by
  intro hend
  unfold endReplay at hend
  rw [if_neg (by simp [hopened]), if_neg (by simp [hreplaying])] at hend
  simp only at hend
  rw [if_neg (by simp [htorn]), if_pos (by simp [htruncate])] at hend
  exact refused_not_success hend rfl

/-! ### What the files hold -/

/-- A part of a record that the journal can read, but not the whole of it. -/
def Cut (options : FileJournalOptions) (part : List UInt8) : Prop :=
  part = [] ∨ ∃ t, Fits options t ∧ part <+: recordBytes t ∧
    part.length < (recordBytes t).length

/-- The files hold the contents.  The log may end with a part of one more record, and may not
    have been created yet.  A record within the size limit has a place in the length field. -/
structure Leaves (j : FileJournal) (d : Disk) : Prop where
  width : j.options.maxRecordBytes < 2 ^ 32
  snapshot : HoldsSnapshot j.snapshotFile d.snapshot
  readable : Readable j.options d.records
  log : (∃ part, j.file = some (logBytes d.records ++ part) ∧ Cut j.options part) ∨
    j.file = none ∧ d.records = []

/-- The files hold the contents and nothing else, and the write offset is at the end. -/
structure Backs (j : FileJournal) (d : Disk) : Prop where
  width : j.options.maxRecordBytes < 2 ^ 32
  snapshot : HoldsSnapshot j.snapshotFile d.snapshot
  readable : Readable j.options d.records
  file : j.file = some (logBytes d.records)
  offset : j.writeOffset = j.log.length

section Leaves

variable {j j' : FileJournal} {d : Disk}

/-- What a journal backs is what it leaves. -/
theorem Backs.leaves (h : Backs j d) : Leaves j d :=
  ⟨h.width, h.snapshot, h.readable, .inl ⟨[], by rw [h.file, List.append_nil], .inl rfl⟩⟩

/-- The faults to come do not matter for what is backed. -/
theorem Backs.of_calm (h : Backs j.calm d) : Backs j d :=
  ⟨h.width, h.snapshot, h.readable, h.file, h.offset⟩

/-- The log of the storage is the log of the file. -/
theorem Backs.log (h : Backs j d) : j.log = logBytes d.records := by
  unfold FileJournal.log
  rw [h.file]
  rfl

/-- Another journal with the same files. -/
theorem Backs.left_by (h : Backs j d) (hoptions : j'.options = j.options)
    (hsnapshot : j'.snapshotFile = j.snapshotFile) (part : List UInt8)
    (hfile : j'.file = some (logBytes d.records ++ part)) (hpart : Cut j.options part) :
    Leaves j' d := by
  refine ⟨?_, ?_, ?_, .inl ⟨part, hfile, ?_⟩⟩
  · rw [hoptions]
    exact h.width
  · rw [hsnapshot]
    exact h.snapshot
  · rw [hoptions]
    exact h.readable
  · rw [hoptions]
    exact hpart

/-- The file of a storage is not longer than its offsets reach. -/
theorem Leaves.addressable (h : Leaves j d) : d.Addressable := by
  refine ⟨fun t ht => ?_, fun i hi => ?_⟩
  · have hwidth := (h.readable t ht).1.width
    omega
  · have hlimit := h.snapshot.2 i hi
    have hsmall : snapshotPayloadLimit < 2 ^ 64 := by decide
    omega

/-- **What the next process reads.**  A replay of the files that succeeds returns what they hold,
    and leaves a journal that holds it and nothing else. -/
theorem yields_of_leaves {k k' : FileJournal} (h : Leaves j d) (hoptions : k.options = j.options)
    (hfile : k.file = j.file) (hsnapshot : k.snapshotFile = j.snapshotFile)
    {snap : Option SnapshotImage} {recs : List JournalRecord} (hyields : Yields k snap recs k') :
    snap = d.snapshot ∧ recs = d.records ∧ Backs k' d := by
  have hwidth : k.calm.options.maxRecordBytes < 2 ^ 32 := by
    rw [show k.calm.options = j.options from hoptions]
    exact h.width
  have hsnap : HoldsSnapshot k.calm.snapshotFile d.snapshot := by
    rw [show k.calm.snapshotFile = j.snapshotFile from hsnapshot]
    exact h.snapshot
  have hreadable : Readable k.calm.options d.records := by
    rw [show k.calm.options = j.options from hoptions]
    exact h.readable
  have hcalm := yields_calm hyields
  -- a log that is read to its end
  have hwhole : ∀ {c' : FileJournal}, Yields k.calm d.snapshot d.records c' → c'.options =
      k.calm.options → c'.snapshotFile = k.calm.snapshotFile →
      c'.file = some (logBytes d.records) → c'.writeOffset = c'.log.length →
      snap = d.snapshot ∧ recs = d.records ∧ Backs k' d := by
    intro c' hown hoptions' hsnapshot' hfile' hoffset'
    obtain ⟨hsame, hrecs, rfl⟩ := hcalm.deterministic hown
    refine ⟨hsame, hrecs, .of_calm ⟨?_, ?_, ?_, hfile', hoffset'⟩⟩
    · rw [hoptions']
      exact hwidth
    · rw [hsnapshot']
      exact hsnap
    · rw [hoptions']
      exact hreadable
  rcases h.log with ⟨part, hlog, hpart⟩ | ⟨habsent, hnone⟩
  · have hstart : k.calm.file = some (logBytes d.records ++ part) := hfile.trans hlog
    by_cases hne : part = []
    · rw [hne, List.append_nil] at hstart
      exact hwhole (yields_intact (j := k.calm) rfl hstart hsnap hreadable) rfl rfl hstart rfl
    · -- the scan stops at the part of a record, and the part is cut off
      obtain ⟨t, hfits, hpre, hshort⟩ := hpart.resolve_left hne
      rw [logBytes, List.append_assoc] at hstart
      have hscan := begun_scanning (j := k.calm) rfl hstart
      have htear : (scanAt k.calm.begun _).nextRecord = (.success, none, _) :=
        nextRecord_torn hscan.skip hne (scanRecord_short hscan.skip (hoptions ▸ hfits) hpre hshort)
      have hreads : Reads k.calm.begun (d.records ++ []) _ :=
        reads_records hscan hreadable (.done htear)
      rw [List.append_nil] at hreads
      have hlogged : k.calm.log = logBytes d.records ++ part := by
        unfold FileJournal.log
        rw [hstart, logBytes, List.append_assoc]
        rfl
      by_cases htruncate : k.calm.options.truncateTornTail = true
      · have hend := endReplay_torn (j := (scanAt k.calm.begun (fileHeader journalMagic ++
          d.records.flatMap recordBytes).length).tear) rfl rfl rfl rfl htruncate
        have hcut : k.calm.log.take (fileHeader journalMagic ++
            d.records.flatMap recordBytes).length = logBytes d.records := by
          rw [hlogged]
          exact List.take_left
        refine hwhole (yields_of_reads (j := k.calm) rfl hstart hsnap hreads hend) rfl rfl
          (congrArg some hcut) ?_
        show (fileHeader journalMagic ++ d.records.flatMap recordBytes).length =
          (k.calm.log.take (fileHeader journalMagic ++
            d.records.flatMap recordBytes).length).length
        rw [hcut]
        rfl
      · -- a journal that may not cut it off refuses to go on
        obtain ⟨j₁, j₂, j₃, j₄, hopen, hread, hbegin, hreads', hend⟩ := hcalm
        rw [show Journal.open_ k.calm = (.success, k.calm.ready) from
          (open_of_header (j := k.calm) rfl hstart).trans (openAt_of_none rfl)] at hopen
        cases hopen
        rw [show Journal.readSnapshot k.calm.ready = (.success, d.snapshot, k.calm.ready) from
          readSnapshot_of_holds (j := k.calm.ready) rfl hsnap] at hread
        cases hread
        rw [show Journal.beginReplay k.calm.ready = (.success, k.calm.begun) from rfl] at hbegin
        cases hbegin
        obtain ⟨-, rfl⟩ := hreads'.deterministic hreads
        exact absurd hend (endReplay_refused rfl rfl rfl (Bool.not_eq_true _ ▸ htruncate))
  · have hstart : k.calm.file = none := hfile.trans habsent
    have hown := yields_absent (j := k.calm) rfl hstart hsnap
    rw [← hnone] at hown
    exact hwhole hown rfl rfl rfl rfl

/-! ### What an append leaves -/

/-- A write at the end of the log appends a part of its bytes, or all of them. -/
theorem write_grows (j : FileJournal) (detail : UInt64) (data : List UInt8) :
    Kept j (j.write detail j.log.length data).2 ∧
      ∃ part, part <+: data ∧ (j.write detail j.log.length data).2.file = some (j.log ++ part) ∧
        ((j.write detail j.log.length data).1.ok = true → part = data) := by
  unfold write nextFault
  cases j.faults.head?.getD none with
  | none =>
    refine ⟨⟨rfl, rfl, rfl⟩, data, List.prefix_rfl, ?_, fun _ => rfl⟩
    exact congrArg some (writeAt_length j.log data)
  | some n =>
    refine ⟨⟨rfl, rfl, rfl⟩, data.take n, List.take_prefix n data, ?_, fun hok => ?_⟩
    · exact congrArg some (writeAt_length j.log (data.take n))
    · exact absurd (show false = true from hok) (by decide)

/-- **Append.**  The record is in the log when the call returned Ok, and in the log, cut or missing
    when it did not. -/
theorem append_leaves (h : Backs j d) {t : JournalRecord} (hkind : t.kind ≠ .unknown) :
    ∃ d' ∈ d.after (.appended t (j.append t).1), Leaves (j.append t).2 d' ∧
      ((j.append t).1.ok = true → Backs (j.append t).2 d') := by
  -- nothing has been written
  have hsame : ∀ {s : Status} {j' : FileJournal}, s.ok = false → Kept j j' → j'.file = j.file →
      ∃ d' ∈ d.after (.appended t s), Leaves j' d' ∧ (s.ok = true → Backs j' d') := by
    intro s j' hs hkept hfile
    refine ⟨d, by simp [Disk.after, hs], ?_, fun hok => ?_⟩
    · refine h.left_by hkept.options hkept.snapshotFile [] ?_ (.inl rfl)
      rw [hfile, h.file, List.append_nil]
    · rw [hs] at hok
      exact absurd hok (by decide)
  unfold append
  split_ifs with hopened hreplaying htorn hrecord hroom
  · exact hsame rfl ⟨rfl, rfl, rfl⟩ rfl
  · exact hsame rfl ⟨rfl, rfl, rfl⟩ rfl
  · exact hsame rfl ⟨rfl, rfl, rfl⟩ rfl
  · exact hsame rfl ⟨rfl, rfl, rfl⟩ rfl
  · exact hsame rfl ⟨rfl, rfl, rfl⟩ rfl
  have hfits : Fits j.options t := by
    refine ⟨Nat.not_lt.mp hrecord, ?_⟩
    have hwidth := h.width
    omega
  -- a part of the record has been written
  have hpart : ∀ {s : Status} {j' : FileJournal} {part : List UInt8}, s.ok = false → Kept j j' →
      j'.file = some (j.log ++ part) → part <+: recordBytes t →
      ∃ d' ∈ d.after (.appended t s), Leaves j' d' ∧ (s.ok = true → Backs j' d') := by
    intro s j' part hs hkept hfile hpre
    rw [h.log] at hfile
    by_cases hwhole : part.length < (recordBytes t).length
    · refine ⟨d, by simp [Disk.after, hs], ?_, fun hok => ?_⟩
      · exact h.left_by hkept.options hkept.snapshotFile _ hfile (.inr ⟨t, hfits, hpre, hwhole⟩)
      · rw [hs] at hok
        exact absurd hok (by decide)
    · rw [hpre.eq_of_length_le (Nat.not_lt.mp hwhole), ← logBytes_concat] at hfile
      refine ⟨{ d with records := d.records ++ [t], written := d.written ++ [t] },
        by simp [Disk.after, hs], ⟨?_, ?_, ?_, .inl ⟨[], ?_, .inl rfl⟩⟩, fun hok => ?_⟩
      · rw [hkept.options]
        exact h.width
      · rw [hkept.snapshotFile]
        exact h.snapshot
      · rw [hkept.options]
        exact readable_concat h.readable hfits hkind
      · rw [List.append_nil]
        exact hfile
      · rw [hs] at hok
        exact absurd hok (by decide)
  -- the seek
  obtain ⟨hkept₁, hfile₁⟩ := operation_kept j 53
  generalize j.operation 53 = result at *
  obtain ⟨s₁, j₁⟩ := result
  by_cases hs₁ : s₁.ok = true
  swap
  · rw [Bool.not_eq_true] at hs₁
    simp only
    rw [if_pos (by rw [hs₁]; rfl)]
    exact hsame hs₁ hkept₁ hfile₁
  simp only
  rw [if_neg (by rw [hs₁]; decide)]
  -- the length and the checksum
  have hlog₁ : j₁.log = j.log := congrArg (Option.getD · []) hfile₁
  have hend₁ : j₁.writeOffset = j₁.log.length := by rw [hkept₁.writeOffset, h.offset, hlog₁]
  rw [hend₁]
  obtain ⟨hkept₂, part₂, hpre₂, hfile₂, hall₂⟩ :=
    write_grows j₁ 54 (recordPrefix (encodeEnvelope t))
  generalize j₁.write 54 j₁.log.length (recordPrefix (encodeEnvelope t)) = result at *
  obtain ⟨s₂, j₂⟩ := result
  rw [hlog₁] at hfile₂
  have hkept₂ := hkept₁.trans hkept₂
  by_cases hs₂ : s₂.ok = true
  swap
  · rw [Bool.not_eq_true] at hs₂
    simp only
    rw [if_pos (by rw [hs₂]; rfl)]
    exact hpart hs₂ hkept₂ hfile₂ (hpre₂.trans (List.prefix_append _ _))
  simp only
  rw [if_neg (by rw [hs₂]; decide)]
  -- the envelope
  rw [hall₂ hs₂] at hfile₂
  have hlog₂ : j₂.log = j.log ++ recordPrefix (encodeEnvelope t) :=
    congrArg (Option.getD · []) hfile₂
  have hend₂ : j₂.writeOffset + recordOverhead = j₂.log.length := by
    rw [hkept₂.writeOffset, h.offset, hlog₂, List.length_append, length_recordPrefix]
    rfl
  rw [hend₂]
  obtain ⟨hkept₃, part₃, hpre₃, hfile₃, hall₃⟩ := write_grows j₂ 55 (encodeEnvelope t)
  generalize j₂.write 55 j₂.log.length (encodeEnvelope t) = result at *
  obtain ⟨s₃, j₃⟩ := result
  rw [hlog₂, List.append_assoc] at hfile₃
  have hkept₃ := hkept₂.trans hkept₃
  by_cases hs₃ : s₃.ok = true
  swap
  · rw [Bool.not_eq_true] at hs₃
    simp only
    rw [if_pos (by rw [hs₃]; rfl)]
    exact hpart hs₃ hkept₃ hfile₃ ((List.prefix_append_right_inj _).mpr hpre₃)
  simp only
  rw [if_neg (by rw [hs₃]; decide)]
  -- the flush
  rw [hall₃ hs₃] at hfile₃
  unfold durableFlush
  obtain ⟨hkept₄, hfile₄⟩ := operation_kept j₃ 0
  generalize j₃.operation 0 = result at *
  obtain ⟨s₄, j₄⟩ := result
  have hkept₄ := hkept₃.trans hkept₄
  have hfile₄ := hfile₄.trans hfile₃
  by_cases hs₄ : s₄.ok = true
  swap
  · rw [Bool.not_eq_true] at hs₄
    simp only
    rw [if_pos (by rw [hs₄]; rfl)]
    exact hpart hs₄ hkept₄ hfile₄ List.prefix_rfl
  simp only
  rw [if_neg (by rw [hs₄]; decide)]
  have hfile : j₄.file = some (logBytes (d.records ++ [t])) := by
    rw [hfile₄, h.log, logBytes_concat]
    rfl
  have hbacks : Backs { j₄ with
      writeOffset := j₄.writeOffset + recordOverhead + (encodeEnvelope t).length,
      bytes := j₄.writeOffset + recordOverhead + (encodeEnvelope t).length }
      { d with records := d.records ++ [t], written := d.written ++ [t] } := by
    refine ⟨?_, ?_, ?_, hfile, ?_⟩
    · show j₄.options.maxRecordBytes < 2 ^ 32
      rw [hkept₄.options]
      exact h.width
    · show HoldsSnapshot j₄.snapshotFile d.snapshot
      rw [hkept₄.snapshotFile]
      exact h.snapshot
    · show Readable j₄.options (d.records ++ [t])
      rw [hkept₄.options]
      exact readable_concat h.readable hfits hkind
    · show j₄.writeOffset + recordOverhead + (encodeEnvelope t).length = (j₄.file.getD []).length
      rw [hfile, Option.getD_some, logBytes_concat, List.length_append, ← h.log,
        hkept₄.writeOffset, h.offset, recordBytes, List.length_append, length_recordPrefix,
        Nat.add_assoc]
      rfl
  exact ⟨_, by simp [Disk.after], hbacks.leaves, fun _ => hbacks⟩

/-! ### What a snapshot and a rotation leave -/

/-- **Snapshot.**  The new file has replaced the old one, or the old one is still there. -/
theorem writeSnapshot_leaves (h : Backs j d) (i : SnapshotImage) :
    ∃ d' ∈ d.after (.wroteSnapshot i (j.writeSnapshot i).1), Leaves (j.writeSnapshot i).2 d' ∧
      ((j.writeSnapshot i).1.ok = true → Backs (j.writeSnapshot i).2 d') := by
  have hwrote := writeSnapshot_cases j i
  generalize j.writeSnapshot i = result at hwrote ⊢
  obtain ⟨s, j'⟩ := result
  by_cases hs : s.ok = true
  · obtain ⟨hsnapshot, hlimit⟩ := hwrote.ok hs
    have hbacks : Backs j' { d with snapshot := some i } := by
      refine ⟨?_, ⟨hsnapshot, fun i' hi' => ?_⟩, ?_, hwrote.file.trans h.file, ?_⟩
      · rw [hwrote.options]
        exact h.width
      · rw [← Option.some.inj hi']
        exact hlimit
      · rw [hwrote.options]
        exact h.readable
      · rw [hwrote.writeOffset, h.offset]
        exact congrArg (fun file => (file.getD []).length) hwrote.file.symm
    exact ⟨_, by simp [Disk.after, hs], hbacks.leaves, fun _ => hbacks⟩
  · rw [Bool.not_eq_true] at hs
    refine ⟨d, by simp [Disk.after, hs], ?_, fun hok => ?_⟩
    · refine h.left_by hwrote.options (hwrote.failed hs) [] ?_ (.inl rfl)
      rw [List.append_nil]
      exact hwrote.file.trans h.file
    · rw [hs] at hok
      exact absurd hok (by decide)

/-- A rotation drops the whole log, whose records the snapshot covers. -/
theorem rotate_leaves (h : Backs j d) {n : UInt64} (hcovered : ∀ t ∈ d.records, t.sequence ≤ n) :
    ∃ d' ∈ d.after (.rotated n (j.rotate n).1), Leaves (j.rotate n).2 d' ∧
      ((j.rotate n).1.ok = true → Backs (j.rotate n).2 d') := by
  have hnone : d.records.filter (fun t => !(t.sequence ≤ n)) = [] := by
    refine List.filter_eq_nil_iff.mpr fun t ht => ?_
    simpa using hcovered t ht
  -- the log has been cut off, whether the call has returned Ok or not
  have hempty : ∀ {s : Status} {j' : FileJournal}, j'.options = j.options →
      j'.snapshotFile = j.snapshotFile → j'.file = some (logBytes []) →
      { d with records := [] } ∈ d.after (.rotated n s) ∧ Leaves j' { d with records := [] } := by
    intro s j' hoptions hsnapshot hfile
    refine ⟨?_, ?_, ?_, fun t ht => absurd ht List.not_mem_nil, .inl ⟨[], ?_, .inl rfl⟩⟩
    · simp only [Disk.after, hnone]
      split_ifs <;> simp
    · rw [hoptions]
      exact h.width
    · rw [hsnapshot]
      exact h.snapshot
    · rw [hfile, List.append_nil]
  have hrotated : RotatedAt j (j.rotate n).1 (j.rotate n).2 := by
    refine rotate_cases ⟨d.records.flatMap recordBytes, ?_⟩ n
    exact h.file
  generalize j.rotate n = result at hrotated ⊢
  obtain ⟨s, j'⟩ := result
  cases hrotated with
  | spared hs hkept hfile =>
    refine ⟨d, by simp [Disk.after, show s.ok = false from hs], ?_, fun hok => ?_⟩
    · refine h.left_by hkept.options hkept.snapshotFile [] ?_ (.inl rfl)
      rw [List.append_nil]
      exact hfile.trans h.file
    · rw [show s.ok = false from hs] at hok
      exact absurd hok (by decide)
  | cut hs hkept hfile =>
    obtain ⟨hafter, hleaves⟩ := hempty (s := s) hkept.options hkept.snapshotFile hfile
    refine ⟨_, hafter, hleaves, fun hok => ?_⟩
    rw [show s.ok = false from hs] at hok
    exact absurd hok (by decide)
  | done hs hoptions hsnapshot hoffset hfile =>
    obtain ⟨hafter, hleaves⟩ := hempty (s := s) hoptions hsnapshot hfile
    refine ⟨_, hafter, hleaves, fun _ => ?_⟩
    refine ⟨hleaves.width, hleaves.snapshot, hleaves.readable, hfile, ?_⟩
    rw [show j'.writeOffset = headerBytes from hoffset]
    exact congrArg (fun file => (file.getD []).length) hfile.symm

end Leaves

/-- **The contract.**  The next process opens the same files with the same options. -/
instance : StoredJournal FileJournal where
  Over j k := k.options = j.options ∧ k.file = j.file ∧ k.snapshotFile = j.snapshotFile
  Backs := Backs
  Leaves := Leaves
  leaves_of_backs h := h.leaves
  append_left _ h hkind := append_leaves h hkind
  writeSnapshot_left i h := writeSnapshot_leaves h i
  rotate_left _ h hcovered := rotate_leaves h hcovered
  yields_left h hover hyields := yields_of_leaves h hover.1 hover.2.1 hover.2.2 hyields
  addressable h := h.addressable

end FileJournal

end CreditFabric
