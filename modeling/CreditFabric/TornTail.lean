import CreditFabric.FileLog

namespace CreditFabric

/-!
# Appending behind a torn tail

A log is cut at an arbitrary byte, opened and replayed, and one more record is appended.  The
replay returns the records that are complete and cuts the rest of the file off, but leaves the
journal marked as torn, and a torn journal refuses every append.

* `resumes_iff`: the append is accepted, and read back behind them, exactly when the cut falls
  between two records and all the records involved are of a known kind and a length that the
  length field can hold.
-/

namespace FileJournal

/-- Opening and replaying a journal, without its snapshot. -/
def Replays (j : FileJournal) (recs : List JournalRecord) (j' : FileJournal) : Prop :=
  ∃ j₁ j₂ j₃, j.open_ = (.success, j₁) ∧ j₁.beginReplay = (.success, j₂) ∧ Reads j₂ recs j₃ ∧
    j₃.endReplay = (.success, j')

/-- Append records one after the other, up to the first refusal. -/
def appendAll (j : FileJournal) : List JournalRecord → Status × FileJournal
  | [] => (.success, j)
  | t :: recs =>
    let (status, j) := j.append t
    if !status.ok then (status, j) else j.appendAll recs

/-- A journal over the files that another one left behind, with the log cut at `cut`. -/
def cutAt (j : FileJournal) (cut : Nat) : FileJournal :=
  { j.restart with file := some (j.log.take cut) }

/-- The records that end within the first `size` bytes behind the header. -/
def surviving : Nat → List JournalRecord → List JournalRecord
  | _, [] => []
  | size, t :: recs =>
    if (recordBytes t).length ≤ size then
      t :: surviving (size - (recordBytes t).length) recs
    else []

/-- The cut falls behind the header or behind a record. -/
def OnBoundary (recs : List JournalRecord) (cut : Nat) : Prop :=
  ∃ k, cut = (logBytes (recs.take k)).length

/-- A record that a replay can return: its kind is one of the three, and the length of its
    envelope has a place in the length field. -/
structure Known (t : JournalRecord) : Prop where
  kind : t.kind ≠ .unknown
  width : t.payload.length + envelopeBytes < 2 ^ 32

/-- Appends resume: the journal opens and replays, then accepts `t`, and a journal over its
    files replays `kept` and behind it `t`. -/
def Resumes (j : FileJournal) (kept : List JournalRecord) (t : JournalRecord) : Prop :=
  ∃ recs j', Replays j recs j' ∧ (j'.append t).1.ok = true ∧
    ∃ j'', Replays (j'.append t).2.restart (kept ++ [t]) j''

/-! ### The complete records of a cut log -/

/-- A record has an envelope. -/
theorem length_recordBytes_pos (t : JournalRecord) : 0 < (recordBytes t).length := by
  rw [length_recordBytes]
  omega

/-- What is left of the records of a log: the complete ones, and a part of the next one. -/
theorem take_flatMap (recs : List JournalRecord) (size : Nat) :
    ∃ part, (recs.flatMap recordBytes).take size =
        (surviving size recs).flatMap recordBytes ++ part ∧
      (part = [] ∨ ∃ t ∈ recs, part <+: recordBytes t ∧ part.length < (recordBytes t).length) := by
  induction recs generalizing size with
  | nil => exact ⟨[], by simp [surviving], .inl rfl⟩
  | cons t recs ih =>
    by_cases hfits : (recordBytes t).length ≤ size
    · obtain ⟨part, htake, hpart⟩ := ih (size - (recordBytes t).length)
      refine ⟨part, ?_, hpart.imp_right ?_⟩
      · rw [surviving, if_pos hfits, List.flatMap_cons, List.take_append,
          List.take_of_length_le hfits, htake, List.flatMap_cons, List.append_assoc]
      · rintro ⟨t', ht', hpre⟩
        exact ⟨t', List.mem_cons_of_mem t ht', hpre⟩
    · -- the cut is inside the first record
      refine ⟨(recordBytes t).take size, ?_, .inr ⟨t, List.mem_cons_self, ?_, ?_⟩⟩
      · rw [surviving, if_neg hfits, List.flatMap_cons, List.flatMap_nil, List.nil_append,
          List.take_append_of_le_length (by omega)]
      · exact List.take_prefix size (recordBytes t)
      · rw [List.length_take]
        omega

/-- What survives a cut was written. -/
theorem mem_of_mem_surviving {size : Nat} {recs : List JournalRecord} {t : JournalRecord}
    (h : t ∈ surviving size recs) : t ∈ recs := by
  induction recs generalizing size with
  | nil => exact absurd h (by simp [surviving])
  | cons r recs ih =>
    unfold surviving at h
    split_ifs at h with hfits
    · rcases List.mem_cons.mp h with rfl | hmem
      · exact List.mem_cons_self
      · exact List.mem_cons_of_mem r (ih hmem)
    · exact absurd h List.not_mem_nil

/-- The surviving records are a part of the log from its start on. -/
theorem surviving_eq_take (size : Nat) (recs : List JournalRecord) :
    ∃ k, surviving size recs = recs.take k := by
  induction recs generalizing size with
  | nil => exact ⟨0, rfl⟩
  | cons t recs ih =>
    unfold surviving
    split_ifs with hfits
    · obtain ⟨k, hk⟩ := ih (size - (recordBytes t).length)
      exact ⟨k + 1, by rw [hk, List.take_succ_cons]⟩
    · exact ⟨0, rfl⟩

/-- All records before a boundary survive, and no other. -/
theorem surviving_take (recs : List JournalRecord) (k : Nat) :
    surviving ((recs.take k).flatMap recordBytes).length recs = recs.take k := by
  induction recs generalizing k with
  | nil => simp [surviving]
  | cons t recs ih =>
    cases k with
    | zero =>
      have hpos := length_recordBytes_pos t
      have hlong : ¬ (recordBytes t).length ≤ ([].flatMap recordBytes).length := by
        rw [List.flatMap_nil, List.length_nil]
        omega
      rw [List.take_zero, surviving, if_neg hlong]
    | succ k =>
      rw [List.take_succ_cons, List.flatMap_cons, List.length_append, surviving,
        if_pos (Nat.le_add_right _ _), Nat.add_sub_cancel_left, ih k]

/-- The length of a log. -/
theorem length_logBytes (recs : List JournalRecord) :
    (logBytes recs).length = headerBytes + (recs.flatMap recordBytes).length := by
  unfold logBytes
  rw [List.length_append, length_fileHeader]
  rfl

/-- A log that is cut behind its header. -/
theorem take_logBytes {recs : List JournalRecord} {cut : Nat} (hheader : headerBytes ≤ cut)
    (hcut : cut ≤ (logBytes recs).length) :
    ∃ part, (logBytes recs).take cut = logBytes (surviving (cut - headerBytes) recs) ++ part ∧
      (part = [] ↔ OnBoundary recs cut) ∧
      (part = [] ∨ ∃ t ∈ recs, part <+: recordBytes t ∧ part.length < (recordBytes t).length) := by
  obtain ⟨part, htake, hpart⟩ := take_flatMap recs (cut - headerBytes)
  have hhead : (fileHeader journalMagic).length = headerBytes := length_fileHeader _
  have hlog : (logBytes recs).take cut =
      logBytes (surviving (cut - headerBytes) recs) ++ part := by
    unfold logBytes
    rw [List.take_append, hhead, htake, List.take_of_length_le (by omega), List.append_assoc]
  have hsize : cut = (logBytes (surviving (cut - headerBytes) recs)).length + part.length := by
    have hlen := congrArg List.length hlog
    rw [List.length_take, Nat.min_eq_left hcut, List.length_append] at hlen
    exact hlen
  refine ⟨part, hlog, ⟨?_, ?_⟩, hpart⟩
  · intro hnil
    obtain ⟨k, hk⟩ := surviving_eq_take (cut - headerBytes) recs
    refine ⟨k, ?_⟩
    rw [hnil, hk, List.length_nil, Nat.add_zero] at hsize
    exact hsize
  · rintro ⟨k, hk⟩
    have hrest : cut - headerBytes = ((recs.take k).flatMap recordBytes).length := by
      rw [length_logBytes] at hk
      omega
    have hkept : surviving (cut - headerBytes) recs = recs.take k := by
      rw [hrest]
      exact surviving_take recs k
    rw [hkept, ← hk] at hsize
    exact List.eq_nil_of_length_eq_zero (by omega)

/-! ### What one read can do -/

/-- A record that the scan returns is of a known kind, and its length is that of its bytes. -/
theorem scanRecord_known {j : FileJournal} {t : JournalRecord} {n : Nat}
    (h : j.scanRecord = some (t, n)) : Known t ∧ n = 25 + t.payload.length := by
  unfold scanRecord at h
  simp only at h
  split_ifs at h with hhead hsize hlen hcrc
  generalize hlength : (getU32 ((j.log.drop j.scanOffset).take recordOverhead)).toNat = length
    at h hsize hlen
  generalize (j.log.drop (j.scanOffset + recordOverhead)).take length = envelope at h hlen
  have hwidth : length < 2 ^ 32 := by
    rw [← hlength]
    exact UInt32.toNat_lt _
  have hmin : envelopeBytes ≤ length := by omega
  cases hkind : JournalRecordKind.ofByte? (envelope.getD 8 0) with
  | none =>
    rw [hkind] at h
    exact absurd h (by simp)
  | some kind =>
    rw [hkind] at h
    simp only [Option.some.injEq, Prod.mk.injEq] at h
    obtain ⟨rfl, rfl⟩ := h
    have hpayload : (envelope.drop envelopeBytes).length = length - envelopeBytes := by
      rw [List.length_drop, not_not.mp hlen]
    refine ⟨⟨?_, ?_⟩, ?_⟩
    · show kind ≠ .unknown
      unfold JournalRecordKind.ofByte? at hkind
      split_ifs at hkind <;> cases hkind <;> decide
    · show (envelope.drop envelopeBytes).length + envelopeBytes < 2 ^ 32
      omega
    · show length = 25 + (envelope.drop envelopeBytes).length
      rw [hpayload]
      unfold envelopeBytes at *
      omega

/-- Bytes behind a record do not change how it is read. -/
theorem scanRecord_extend {j k : FileJournal} {pre rest more : List UInt8}
    (hj : Scanning j pre rest) (hk : Scanning k pre (rest ++ more))
    (hoptions : k.options = j.options) {found : JournalRecord × Nat}
    (h : j.scanRecord = some found) : k.scanRecord = some found := by
  have hlogj : j.log.drop j.scanOffset = rest := by rw [hj.log, hj.scan, List.drop_left]
  have hlogk : k.log.drop k.scanOffset = rest ++ more := by rw [hk.log, hk.scan, List.drop_left]
  unfold scanRecord at h ⊢
  simp only [← List.drop_drop, hlogj, hlogk, hoptions] at h ⊢
  split_ifs at h with hhead hsize hlen hcrc
  have hroom : recordOverhead ≤ rest.length := by
    rw [List.length_take] at hhead
    omega
  have htake : (rest ++ more).take recordOverhead = rest.take recordOverhead :=
    List.take_append_of_le_length hroom
  rw [hj.scan, hj.write] at hsize
  have henvelope : ((rest ++ more).drop recordOverhead).take
      (getU32 (rest.take recordOverhead)).toNat =
      (rest.drop recordOverhead).take (getU32 (rest.take recordOverhead)).toNat := by
    rw [List.drop_append_of_le_length hroom]
    refine List.take_append_of_le_length ?_
    rw [List.length_drop]
    omega
  rw [htake, if_neg hhead, if_neg (by rw [hk.scan, hk.write, List.length_append]; omega),
    henvelope, if_neg hlen, if_neg hcrc]
  exact h

/-- One read: it is at the end, or it meets a damage, or it returns a record. -/
theorem nextRecord_cases {j : FileJournal} {pre rest : List UInt8} (h : Scanning j pre rest) :
    (rest = [] ∧ j.nextRecord = (.success, none, j)) ∨
      (rest ≠ [] ∧ j.nextRecord = (.success, none, j.tear)) ∨
      ∃ t bytes rest', rest = bytes ++ rest' ∧ bytes.length = (recordBytes t).length ∧ Known t ∧
        j.scanRecord = some (t, 25 + t.payload.length) ∧
        j.nextRecord = (.success, some t, j.scanAt (pre ++ bytes).length) := by
  by_cases hnil : rest = []
  · subst hnil
    exact .inl ⟨rfl, nextRecord_end h⟩
  refine .inr ?_
  by_cases htorn : recordOverhead ≤ rest.length → j.scanRecord = none
  · exact .inl ⟨hnil, nextRecord_torn h hnil htorn⟩
  refine .inr ?_
  obtain ⟨hroom, hfound⟩ := Classical.not_imp.mp htorn
  obtain ⟨⟨t, n⟩, hrecord⟩ := Option.ne_none_iff_exists'.mp hfound
  obtain ⟨hknown, rfl⟩ := scanRecord_known hrecord
  have hbound := scanRecord_bound hrecord
  rw [h.scan, h.write] at hbound
  have hlen : (rest.take (33 + t.payload.length)).length = (recordBytes t).length := by
    rw [List.length_take, length_recordBytes]
    unfold recordOverhead at hbound
    omega
  refine ⟨t, rest.take (33 + t.payload.length), rest.drop (33 + t.payload.length),
    (List.take_append_drop _ rest).symm, hlen, hknown, hrecord, ?_⟩
  rw [← List.take_append_drop (33 + t.payload.length) rest] at h
  exact nextRecord_of_scan h hlen hrecord

/-! ### What a whole replay does -/

/-- The records that a replay returns are known, and the scan has passed exactly their bytes;
    unless it has met a damage it is at the end of the log. -/
theorem reads_scanned {j j' : FileJournal} {recs : List JournalRecord} (h : Reads j recs j') :
    ∀ {pre rest : List UInt8}, Scanning j pre rest →
      (∀ t ∈ recs, Known t) ∧
      j'.scanOffset = j.scanOffset + (recs.flatMap recordBytes).length ∧
      (j'.torn = false → j' = j.scanAt (pre ++ rest).length) := by
  -- induction on the reads, for the bytes that are still to scan
  induction h with
  | @done j j' hend =>
    intro pre rest hscan
    change j.nextRecord = _ at hend
    obtain ⟨hnil, hnext⟩ | ⟨-, hnext⟩ | ⟨t, bytes, rest', -, -, -, -, hnext⟩ :=
      nextRecord_cases hscan
    · rw [hnext] at hend
      cases hend
      refine ⟨by simp, by simp, fun _ => ?_⟩
      unfold scanAt
      rw [hnil, List.append_nil, ← hscan.scan]
    · rw [hnext] at hend
      cases hend
      exact ⟨by simp, by simp [tear], fun htorn => absurd htorn (by simp [tear])⟩
    · rw [hnext] at hend
      cases hend
  | @next j j₁ j' t recs hread _ ih =>
    intro pre rest hscan
    change j.nextRecord = _ at hread
    -- the end of the log, a torn tail, or one more record
    obtain ⟨-, hnext⟩ | ⟨-, hnext⟩ | ⟨t', bytes, rest', rfl, hbytes, hknown, -, hnext⟩ :=
      nextRecord_cases hscan
    · rw [hnext] at hread
      cases hread
    · rw [hnext] at hread
      cases hread
    · rw [hnext] at hread
      cases hread
      obtain ⟨hall, hoffset, hend⟩ := ih hscan.skip
      refine ⟨?_, ?_, ?_⟩
      · intro r hr
        rcases List.mem_cons.mp hr with rfl | hmem
        · exact hknown
        · exact hall r hmem
      · have hpassed : (j.scanAt (pre ++ bytes).length).scanOffset =
            j.scanOffset + (recordBytes t).length := by
          rw [hscan.scan, ← hbytes]
          exact List.length_append
        rw [hoffset, hpassed, List.flatMap_cons, List.length_append, Nat.add_assoc]
      · intro htorn
        rw [hend htorn, List.append_assoc]
        rfl

/-- Bytes behind a log do not change how it is replayed, unless the replay met a damage. -/
theorem reads_extend {j j' : FileJournal} {recs : List JournalRecord} (h : Reads j recs j') :
    ∀ {k k' : FileJournal} {pre rest more : List UInt8} {tail : List JournalRecord},
      Scanning j pre rest → j'.torn = false → Scanning k pre (rest ++ more) →
      k.options = j.options → Reads (k.scanAt (pre ++ rest).length) tail k' →
      Reads k (recs ++ tail) k' := by
  -- induction on the reads; the longer file is read at the same place
  induction h with
  | @done j j' hend =>
    intro k k' pre rest more tail hscan htorn hk _ htail
    change j.nextRecord = _ at hend
    obtain ⟨hnil, -⟩ | ⟨-, hnext⟩ | ⟨t, bytes, rest', -, -, -, -, hnext⟩ :=
      nextRecord_cases hscan
    · have hsame : k.scanAt (pre ++ rest).length = k := by
        unfold scanAt
        rw [hnil, List.append_nil, ← hk.scan]
      rw [hsame] at htail
      exact htail
    · rw [hnext] at hend
      cases hend
      exact absurd htorn (by simp [tear])
    · rw [hnext] at hend
      cases hend
  | @next j j₁ j' t recs hread _ ih =>
    intro k k' pre rest more tail hscan htorn hk hoptions htail
    change j.nextRecord = _ at hread
    -- the end of the log, a torn tail, or one more record
    obtain ⟨-, hnext⟩ | ⟨-, hnext⟩ | ⟨t', bytes, rest', rfl, hbytes, -, hrecord, hnext⟩ :=
      nextRecord_cases hscan
    · rw [hnext] at hread
      cases hread
    · rw [hnext] at hread
      cases hread
    · rw [hnext] at hread
      cases hread
      rw [List.append_assoc] at hk
      refine .next (nextRecord_of_scan hk hbytes ?_) (ih hscan.skip htorn hk.skip hoptions ?_)
      · rw [← List.append_assoc] at hk
        exact scanRecord_extend hscan hk hoptions hrecord
      · rw [List.append_assoc]
        exact htail

/-! ### Writing a log -/

/-- The log of a journal that has accepted the records `recs`. -/
structure Wrote (j : FileJournal) (recs : List JournalRecord) : Prop where
  faults : j.faults = []
  file : j.file = some (logBytes recs)
  offset : j.writeOffset = j.log.length
  record : ∀ t ∈ recs, t.payload.length + envelopeBytes ≤ j.options.maxRecordBytes

/-- The file a journal wrote. -/
theorem Wrote.log {j : FileJournal} {recs : List JournalRecord} (h : Wrote j recs) :
    j.log = logBytes recs := by
  unfold FileJournal.log
  rw [h.file]
  rfl

/-- One accepted append. -/
theorem Wrote.append {j : FileJournal} {recs : List JournalRecord} (h : Wrote j recs)
    {t : JournalRecord} (hok : (j.append t).1.ok = true) :
    Wrote (j.append t).2 (recs ++ [t]) ∧ (j.append t).2.options = j.options := by
  have haccepts := accepts_of_append hok
  rw [append_of_accepts h.faults haccepts]
  have hfile : (j.appended t).file = some (logBytes (recs ++ [t])) := by
    rw [appended_log h.offset, h.log, logBytes_concat]
  refine ⟨⟨h.faults, hfile, ?_, ?_⟩, rfl⟩
  · show j.writeOffset + recordOverhead + (encodeEnvelope t).length =
      ((j.appended t).file.getD []).length
    rw [hfile, Option.getD_some, logBytes_concat, List.length_append, length_recordBytes,
      length_encodeEnvelope, h.offset, h.log]
    unfold recordOverhead
    omega
  · intro r hr
    rcases List.mem_append.mp hr with hold | hnew
    · exact h.record r hold
    · rw [List.mem_singleton.mp hnew]
      exact haccepts.record

/-- A whole list of accepted appends. -/
theorem Wrote.appendAll {recs : List JournalRecord} : ∀ {j : FileJournal}
    {held : List JournalRecord}, Wrote j held → (j.appendAll recs).1.ok = true →
    Wrote (j.appendAll recs).2 (held ++ recs) ∧ (j.appendAll recs).2.options = j.options := by
  induction recs with
  | nil =>
    intro j held h _
    rw [List.append_nil]
    exact ⟨h, rfl⟩
  | cons t recs ih =>
    intro j held h hok
    unfold FileJournal.appendAll at hok ⊢
    by_cases hone : (j.append t).1.ok = true
    · simp only [hone, Bool.not_true, Bool.false_eq_true, if_false] at hok ⊢
      obtain ⟨hwrote, hoptions⟩ := h.append hone
      obtain ⟨hall, hsame⟩ := ih hwrote hok
      rw [List.append_assoc] at hall
      exact ⟨hall, hsame.trans hoptions⟩
    · simp only at hok
      rw [if_pos (by simp [hone])] at hok
      exact absurd hok hone

/-- A journal that creates its log. -/
theorem wrote_open {j : FileJournal} (h : j.faults = []) (hfile : j.file = none) :
    Wrote j.open_.2 [] ∧ j.open_.2.options = j.options := by
  have hheader : logBytes [] = fileHeader journalMagic := List.append_nil _
  have hopen : j.open_ = (.success, { j with file := some (logBytes []) }.ready) := by
    rw [hheader]
    exact (open_of_absent h hfile).trans (openAt_of_none h)
  rw [hopen]
  exact ⟨⟨h, rfl, rfl, by simp⟩, rfl⟩

/-! ### The replay of a cut log -/

/-- Over a log with a header, a replay is what lies between `begin_replay` and `end_replay`. -/
theorem replays_iff {j : FileJournal} (h : j.faults = []) {rest : List UInt8}
    (hfile : j.file = some (fileHeader journalMagic ++ rest)) {recs : List JournalRecord}
    {j' : FileJournal} :
    Replays j recs j' ↔ ∃ j₃, Reads j.begun recs j₃ ∧ j₃.endReplay = (.success, j') := by
  have hopen : j.open_ = (.success, j.ready) := (open_of_header h hfile).trans (openAt_of_none h)
  refine ⟨?_, ?_⟩
  · rintro ⟨j₁, j₂, j₃, hfirst, hbegin, hreads, hend⟩
    rw [hopen] at hfirst
    cases hfirst
    have hbegun : j.ready.beginReplay = (.success, j.begun) := rfl
    rw [hbegun] at hbegin
    cases hbegin
    exact ⟨j₃, hreads, hend⟩
  · rintro ⟨j₃, hreads, hend⟩
    exact ⟨j.ready, j.begun, j₃, hopen, rfl, hreads, hend⟩

/-- The end of a replay does not clear the mark of a tear. -/
theorem torn_endReplay (j : FileJournal) : j.endReplay.2.torn = j.torn := by
  unfold endReplay truncateStream operation nextFault
  simp only
  split_ifs <;> rfl

/-- The end of a replay of a torn log cuts the damage off. -/
theorem endReplay_torn {j : FileJournal} (hfaults : j.faults = []) (hopened : j.opened = true)
    (hreplaying : j.replaying = true) (htorn : j.torn = true)
    (htruncate : j.options.truncateTornTail = true) :
    j.endReplay = (.success, { j with replaying := false, file := some (j.log.take j.scanOffset),
                                      writeOffset := j.scanOffset, bytes := j.scanOffset }) := by
  unfold endReplay
  rw [if_neg (by simp [hopened]), if_neg (by simp [hreplaying])]
  simp only
  rw [if_neg (by simp [htorn]), if_neg (by simp [htruncate]),
    truncateStream_of_none (j := { j with replaying := false }) hfaults]
  rfl

/-- Records of a known kind and size can be read. -/
theorem readable_of_known {options : FileJournalOptions} {recs : List JournalRecord}
    (hrecord : ∀ t ∈ recs, t.payload.length + envelopeBytes ≤ options.maxRecordBytes)
    (hknown : ∀ t ∈ recs, Known t) : Readable options recs :=
  fun t ht => ⟨⟨hrecord t ht, (hknown t ht).width⟩, (hknown t ht).kind⟩

/-! ### Appending behind the cut -/

/-- The journal behind a replay that met no damage, over the bytes `log`. -/
structure Settled (j : FileJournal) (options : FileJournalOptions) (bytes : List UInt8) :
    Prop where
  faults : j.faults = []
  options : j.options = options
  log : j.log = bytes
  offset : j.writeOffset = bytes.length

/-- A replay that is followed by an accepted append met no damage. -/
private theorem replays_settled {j j' : FileJournal} (h : j.faults = []) {rest : List UInt8}
    (hfile : j.file = some (fileHeader journalMagic ++ rest)) {recs : List JournalRecord}
    (hreplays : Replays j recs j') {t : JournalRecord} (hok : (j'.append t).1.ok = true) :
    ∃ j₃, Reads j.begun recs j₃ ∧ j₃.torn = false ∧ Settled j' j.options j.log := by
  obtain ⟨j₃, hreads, hend⟩ := (replays_iff h hfile).mp hreplays
  have htorn : j₃.torn = false := by
    have hkeep := torn_endReplay j₃
    rw [hend] at hkeep
    exact hkeep.symm.trans (accepts_of_append hok).torn
  obtain ⟨-, -, huntorn⟩ := reads_scanned hreads (begun_scanning h hfile)
  refine ⟨j₃, hreads, htorn, ?_⟩
  rw [huntorn htorn] at hend
  have hj' : { j.begun.scanAt (fileHeader journalMagic ++ rest).length with
               replaying := false } = j' := (Prod.mk.inj hend).2
  rw [← hj']
  exact ⟨h, rfl, rfl, rfl⟩

/-- Appends do not resume behind a part of a record, nor over records that are not known. -/
theorem resumes_whole {c : FileJournal} (hfaults : c.faults = []) {kept : List JournalRecord}
    {part : List UInt8} (hfile : c.file = some (logBytes kept ++ part)) {t : JournalRecord}
    (hrecord : t.payload.length + envelopeBytes ≤ c.options.maxRecordBytes)
    (h : Resumes c kept t) : part = [] ∧ ∀ r ∈ kept ++ [t], Known r := by
  obtain ⟨recs, j, hreplays, hok, j', hagain⟩ := h
  rw [logBytes, List.append_assoc] at hfile
  obtain ⟨j₃, hreads, htorn, hsettled⟩ := replays_settled hfaults hfile hreplays hok
  have hscan := begun_scanning hfaults hfile
  -- the log with the new record behind what the replay left
  have happend := append_of_accepts hsettled.faults (accepts_of_append hok)
  have hlog : c.log = fileHeader journalMagic ++ (kept.flatMap recordBytes ++ part) := by
    unfold FileJournal.log
    rw [hfile]
    rfl
  have hafter : (j.append t).2.restart.file = some (fileHeader journalMagic ++
      (kept.flatMap recordBytes ++ part ++ recordBytes t)) := by
    show (j.append t).2.file = _
    rw [happend, appended_log (by rw [hsettled.offset, hsettled.log]), hsettled.log, hlog,
      List.append_assoc]
  have hfaults' : (j.append t).2.restart.faults = [] := by
    rw [happend]
    exact hsettled.faults
  have hoptions : (j.append t).2.restart.options = c.options := by
    rw [happend]
    exact hsettled.options
  generalize (j.append t).2.restart = d at *
  obtain ⟨d₃, hreads', -⟩ := (replays_iff hfaults' hafter).mp hagain
  have hscan' := begun_scanning hfaults' hafter
  obtain ⟨hknown, -, -⟩ := reads_scanned hreads' hscan'
  refine ⟨?_, hknown⟩
  -- the second replay returns what the first one did, and the new record
  have hsame : recs ++ [t] = kept ++ [t] := by
    have htknown : Known t := hknown t (List.mem_append_right kept List.mem_cons_self)
    have hfits : Fits d.options t := ⟨by rw [hoptions]; exact hrecord, htknown.width⟩
    have hrest := hscan'.skip
    rw [← List.append_nil (recordBytes t)] at hrest
    have hboth := reads_extend hreads hscan htorn hscan' hoptions
      (.next (nextRecord_intact hrest hfits htknown.kind) (.done (nextRecord_end hrest.skip)))
    exact (hboth.deterministic hreads').1
  have hkept : recs = kept := List.append_cancel_right hsame
  -- so the first replay passed exactly the complete records
  obtain ⟨-, hoffset, hend⟩ := reads_scanned hreads hscan
  rw [hend htorn, hkept, hscan.scan] at hoffset
  have hsize : (fileHeader journalMagic ++ (kept.flatMap recordBytes ++ part)).length =
      (fileHeader journalMagic).length + (kept.flatMap recordBytes).length := hoffset
  rw [List.length_append, List.length_append] at hsize
  exact List.eq_nil_of_length_eq_zero (by omega)

/-- Behind whole and known records appends resume. -/
theorem resumes_of_whole {c : FileJournal} (hfaults : c.faults = []) {kept : List JournalRecord}
    (hfile : c.file = some (logBytes kept)) {t : JournalRecord}
    (hreadable : Readable c.options (kept ++ [t]))
    (hroom : (logBytes kept).length + t.payload.length + envelopeBytes + recordOverhead ≤
      c.options.maxBytes.toNat) : Resumes c kept t := by
  have hlog : c.log = logBytes kept := by
    unfold FileJournal.log
    rw [hfile]
    rfl
  have hfirst : Reads c.begun kept (c.begun.scanAt c.log.length) :=
    reads_intact hfaults hfile fun r hr => hreadable r (List.mem_append_left [t] hr)
  have haccepts : Accepts c.replayed t := by
    refine ⟨rfl, rfl, rfl, ?_, ?_⟩
    · exact (hreadable t (List.mem_append_right kept List.mem_cons_self)).1.record
    · rw [← hlog] at hroom
      exact hroom
  have happend := append_of_accepts (j := c.replayed) hfaults haccepts
  refine ⟨kept, c.replayed, (replays_iff hfaults hfile).mpr ⟨_, hfirst, rfl⟩, ?_, ?_⟩
  · rw [happend]
    rfl
  · rw [happend]
    have hafter : (c.replayed.appended t).restart.file = some (logBytes (kept ++ [t])) := by
      show (c.replayed.appended t).file = _
      rw [appended_log (j := c.replayed) rfl, logBytes_concat, ← hlog]
      rfl
    have hsecond := reads_intact (j := (c.replayed.appended t).restart) hfaults hafter hreadable
    exact ⟨_, (replays_iff (j := (c.replayed.appended t).restart) hfaults hafter).mpr
      ⟨_, hsecond, rfl⟩⟩

/-- **Appends resume exactly behind whole, known records.** Records are appended to a new
    journal and the log is cut anywhere behind its header.  Once the cut log has been replayed,
    an append within the size limits is accepted and later read back behind the complete records
    exactly when the cut falls between two records, and these records and the new one are of a
    known kind and of a length that the length field can hold. -/
theorem resumes_iff (options : FileJournalOptions) (snapshotFile : Option (List UInt8))
    (recs : List JournalRecord) (j : FileJournal)
    (happended : appendAll ({ options, snapshotFile } : FileJournal).open_.2 recs = (.success, j))
    (cut : Nat) (hheader : headerBytes ≤ cut) (hcut : cut ≤ j.log.length) (t : JournalRecord)
    (hrecord : t.payload.length + envelopeBytes ≤ options.maxRecordBytes)
    (hroom : (logBytes (surviving (cut - headerBytes) recs)).length + t.payload.length +
      envelopeBytes + recordOverhead ≤ options.maxBytes.toNat) :
    Resumes (j.cutAt cut) (surviving (cut - headerBytes) recs) t ↔
      OnBoundary recs cut ∧ ∀ r ∈ surviving (cut - headerBytes) recs ++ [t], Known r := by
  obtain ⟨hwrote, hoptions⟩ : Wrote j recs ∧ j.options = options := by
    obtain ⟨hnew, hsame⟩ := wrote_open (j := { options, snapshotFile }) rfl rfl
    have hok : (appendAll ({ options, snapshotFile } : FileJournal).open_.2 recs).1.ok = true := by
      rw [happended]
      rfl
    obtain ⟨hall, hkeep⟩ := hnew.appendAll hok
    rw [happended] at hall hkeep
    exact ⟨hall, hkeep.trans hsame⟩
  rw [hwrote.log] at hcut
  obtain ⟨part, htake, hboundary, -⟩ := take_logBytes hheader hcut
  have hfile : (j.cutAt cut).file =
      some (logBytes (surviving (cut - headerBytes) recs) ++ part) := by
    show some (j.log.take cut) = _
    rw [hwrote.log, htake]
  rw [← hoptions] at hrecord hroom
  refine ⟨?_, ?_⟩
  · intro hresumes
    obtain ⟨hpart, hknown⟩ := resumes_whole (c := j.cutAt cut) hwrote.faults hfile hrecord hresumes
    exact ⟨hboundary.mp hpart, hknown⟩
  · rintro ⟨hon, hknown⟩
    have hsizes : ∀ r ∈ surviving (cut - headerBytes) recs ++ [t],
        r.payload.length + envelopeBytes ≤ j.options.maxRecordBytes := by
      intro r hr
      rcases List.mem_append.mp hr with hold | hnew
      · exact hwrote.record r (mem_of_mem_surviving hold)
      · rw [List.mem_singleton.mp hnew]
        exact hrecord
    rw [hboundary.mpr hon, List.append_nil] at hfile
    exact resumes_of_whole (c := j.cutAt cut) hwrote.faults hfile
      (readable_of_known hsizes hknown) hroom

namespace TornAppend

/-- The record that is cut. -/
def first : JournalRecord := { sequence := 1, kind := .attempt, chain := ⟨1, 2⟩, payload := [7] }

/-- The record that is appended after the restart. -/
def second : JournalRecord := { sequence := 1, kind := .intent, chain := ⟨0, 0⟩, payload := [8] }

/-- A journal with the default options and one record in its log. -/
def written : FileJournal := (appendAll ({} : FileJournal).open_.2 [first]).2

/-- A cut eight bytes into the first record, with the default options: the append is refused,
    although the record is within the size limits. -/
theorem cut_not_resumed :
    (appendAll ({} : FileJournal).open_.2 [first]).1 = .success ∧
      written.options.truncateTornTail = true ∧ headerBytes ≤ 20 ∧ 20 ≤ written.log.length ∧
      second.payload.length + envelopeBytes ≤ written.options.maxRecordBytes ∧
      (logBytes (surviving (20 - headerBytes) [first])).length + second.payload.length +
        envelopeBytes + recordOverhead ≤ written.options.maxBytes.toNat ∧
      ¬ Resumes (written.cutAt 20) (surviving (20 - headerBytes) [first]) second := by
  have hfile : (written.cutAt 20).file =
      some (logBytes (surviving (20 - headerBytes) [first]) ++ (recordBytes first).take 8) := by
    decide +kernel
  have hpart : (recordBytes first).take 8 ≠ [] := by decide +kernel
  have hfaults : (written.cutAt 20).faults = [] := by decide +kernel
  have hrecord : second.payload.length + envelopeBytes ≤
      (written.cutAt 20).options.maxRecordBytes := by decide +kernel
  refine ⟨by decide +kernel, by decide +kernel, by decide, by decide +kernel, by decide +kernel,
    by decide +kernel, ?_⟩
  intro hresumes
  exact hpart (resumes_whole hfaults hfile hrecord hresumes).1

/-- Three records of one log. -/
def three : List JournalRecord :=
  [first, { sequence := 2, kind := .intent, chain := ⟨1, 2⟩, payload := [8, 9] },
    { sequence := 3, kind := .attempt, chain := ⟨3, 4⟩, payload := [] }]

/-- A journal with the three records in its log. -/
def longer : FileJournal := (appendAll ({} : FileJournal).open_.2 three).2

/-- A cut behind the second record: two records are whole, and the append is accepted. -/
theorem whole_resumed : (surviving (81 - headerBytes) three).length = 2 ∧ OnBoundary three 81 ∧
    Resumes (longer.cutAt 81) (surviving (81 - headerBytes) three) second := by
  have htwo : (surviving (81 - headerBytes) three).length = 2 := by decide +kernel
  have hon : OnBoundary three 81 := ⟨2, by decide +kernel⟩
  have hall : ∀ r ∈ three ++ [second],
      r.kind ≠ .unknown ∧ r.payload.length + envelopeBytes < 2 ^ 32 := by
    decide
  have hknown : ∀ r ∈ surviving (81 - headerBytes) three ++ [second], Known r := by
    intro r hr
    have hmem : r ∈ three ++ [second] := by
      rcases List.mem_append.mp hr with hold | hnew
      · exact List.mem_append_left _ (mem_of_mem_surviving hold)
      · exact List.mem_append_right _ hnew
    exact ⟨(hall r hmem).1, (hall r hmem).2⟩
  exact ⟨htwo, hon, (resumes_iff {} none three longer (by decide +kernel) 81 (by decide)
    (by decide +kernel) second (by decide) (by decide +kernel)).mpr ⟨hon, hknown⟩⟩

end TornAppend

end FileJournal

end CreditFabric
