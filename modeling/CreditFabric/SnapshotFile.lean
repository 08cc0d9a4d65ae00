import CreditFabric.Damage

namespace CreditFabric

/-!
# A damaged snapshot file

One byte of a snapshot file is replaced.  The header checksum covers the magic and the version,
the payload checksum the payload; the sequence, the chain value and the two fields in front of
the payload checksum are outside both.

* `parseSnapshot_parts`: the checks of the load path, field by field.
* `Reading` lists what can be read of such a file: nothing, another sequence, a payload that was
  cut or continued, or another chain value.
* `parseSnapshot_replaced`: which of them it is depends on the place of the byte, and the chain
  value is another one exactly for the 16 bytes that hold it.
-/

namespace FileJournal

/-- A field with a replaced byte has another value. -/
theorem getU64_replaced {v : UInt64} {i : Nat} {byte : UInt8} (hi : i < 8)
    (h : getU64 ((ByteWriter.u64 v).set i byte) = v) : (ByteWriter.u64 v)[i]? = some byte := by
  have hlen : ((ByteWriter.u64 v).set i byte).length = 8 := by
    rw [List.length_set, ByteWriter.length_u64]
  have hlt := Lib.leValue_lt ((ByteWriter.u64 v).set i byte)
  rw [hlen] at hlt
  unfold getU64 at h
  rw [List.take_of_length_le (le_of_eq hlen)] at h
  have hvalue : Lib.leValue ((ByteWriter.u64 v).set i byte) = v.toNat := by
    have hnat := congrArg UInt64.toNat h
    rw [UInt64.toNat_ofNat_of_lt' hlt] at hnat
    exact hnat
  have hsame : (ByteWriter.u64 v).set i byte = ByteWriter.u64 v :=
    (Lib.leBytes_eq_iff v.toNat_lt _).mp ⟨hlen, hvalue⟩
  rw [← hsame, List.getElem?_set_self (by rw [ByteWriter.length_u64]; exact hi)]

/-- A header with a replaced byte does not pass its checks. -/
theorem checkHeader_replaced {magic : UInt32} {d d' : UInt64} {i : Nat} {byte : UInt8}
    (hi : i < 12) (hne : (fileHeader magic)[i]? ≠ some byte) :
    (checkHeader magic d d' ((fileHeader magic).set i byte)).ok = false := by
  let head := ByteWriter.u32 magic ++ [formatVersion, 0, 0, 0]
  have hhead : head.length = 8 := by simp [head]
  have hsplit : fileHeader magic = head ++ ByteWriter.u32 (crc32c head) := rfl
  have hdiffer : getU32 (((fileHeader magic).set i byte).drop 8) ≠
      crc32c (((fileHeader magic).set i byte).take 8) := by
    intro hagree
    rw [hsplit] at hne hagree
    by_cases hlow : i < 8
    · rw [List.getElem?_append_left (by omega)] at hne
      rw [List.set_append_left _ _ (by omega), List.drop_left' (by rw [List.length_set, hhead]),
        List.take_left' (by rw [List.length_set, hhead])] at hagree
      have hget := getU32_append (crc32c head) []
      rw [List.append_nil] at hget
      rw [hget] at hagree
      exact hne (crc32c_set (by omega) hagree.symm)
    · rw [List.getElem?_append_right (by omega), hhead] at hne
      rw [List.set_append_right _ _ (by omega), hhead, List.drop_left' hhead,
        List.take_left' hhead] at hagree
      exact hne (getU32_replaced (by omega) hagree)
  unfold checkHeader
  split_ifs <;> rfl

section Parts

variable {header sequence lo payload hi length check : List UInt8}

/-- The checks of the load path, field by field. -/
theorem parseSnapshot_parts (hheader : header.length = 12) (hsequence : sequence.length = 8)
    (hlo : lo.length = 8) (hhi : hi.length = 8) (hlength : length.length = 4)
    (hcheck : check.length = 4) :
    parseSnapshot (header ++ (sequence ++ (lo ++ (payload ++ (hi ++ (length ++ check)))))) =
      if (checkHeader snapshotMagic 82 83 header).ok = false then
        .error (checkHeader snapshotMagic 82 83 header)
      else if (getU32 length).toNat > snapshotPayloadLimit then
        .error (.refused .journalCorrupt 85)
      else if ((payload ++ (hi ++ (length ++ check))).take (getU32 length).toNat).length ≠
          (getU32 length).toNat then .error (.refused .journalCorrupt 86)
      else if crc32c ((payload ++ (hi ++ (length ++ check))).take (getU32 length).toNat) ≠
          getU32 check then .error (.refused .journalCorrupt 87)
      else .ok { sequence := getU64 sequence, chain := ⟨getU64 lo, getU64 hi⟩,
                 payload := (payload ++ (hi ++ (length ++ check))).take
                   (getU32 length).toNat } := by
  have hget32 : ∀ {x rest : List UInt8}, x.length = 4 → getU32 (x ++ rest) = getU32 x := by
    intro x rest hx
    unfold getU32
    rw [List.take_left' hx, List.take_of_length_le hx.le]
  have hget64 : ∀ {x rest : List UInt8}, x.length = 8 → getU64 (x ++ rest) = getU64 x := by
    intro x rest hx
    unfold getU64
    rw [List.take_left' hx, List.take_of_length_le hx.le]
  generalize hfile : header ++ (sequence ++ (lo ++ (payload ++ (hi ++ (length ++ check))))) = file
  have hsize : file.length = 44 + payload.length := by
    rw [← hfile]
    simp only [List.length_append, hheader, hsequence, hlo, hhi, hlength, hcheck]
    omega
  -- the file from each of its fields on
  have hhead : file.take headerBytes = header := by
    rw [← hfile]
    exact List.take_left' hheader
  have hfirst : file.drop headerBytes =
      sequence ++ (lo ++ (payload ++ (hi ++ (length ++ check)))) := by
    rw [← hfile]
    exact List.drop_left' hheader
  have hsecond : file.drop (headerBytes + 8) = lo ++ (payload ++ (hi ++ (length ++ check))) := by
    rw [← List.drop_drop, hfirst]
    exact List.drop_left' hsequence
  have hthird : file.drop (headerBytes + 16) = payload ++ (hi ++ (length ++ check)) := by
    rw [show headerBytes + 16 = headerBytes + 8 + 8 from rfl, ← List.drop_drop, hsecond]
    exact List.drop_left' hlo
  have hend : file.drop (file.length - 16) = hi ++ (length ++ check) := by
    rw [hsize, show 44 + payload.length - 16 = headerBytes + 16 + payload.length by
      unfold headerBytes; omega, ← List.drop_drop, hthird]
    exact List.drop_left
  have height : (hi ++ (length ++ check)).drop 8 = length ++ check := List.drop_left' hhi
  have htwelve : (hi ++ (length ++ check)).drop 12 = check := by
    rw [show 12 = 8 + 4 from rfl, ← List.drop_drop, height]
    exact List.drop_left' hlength
  have hlong : ¬ file.length < headerBytes + 16 := by
    rw [hsize]
    unfold headerBytes
    omega
  unfold parseSnapshot
  simp only [hlong, if_false, hhead, hend, height, htwelve, hfirst, hsecond, hthird,
    hget32 hlength, hget64 hsequence, hget64 hlo, hget64 hhi, Bool.not_eq_true']

end Parts

/-! ### One replaced byte -/

/-- The bytes that hold the chain value: its low half is in front of the payload, its high half
    behind it. -/
def ChainByte (s : SnapshotImage) (i : Nat) : Prop :=
  20 ≤ i ∧ i < 28 ∨ 28 + s.payload.length ≤ i ∧ i < 36 + s.payload.length

/-- What the load path can make of a file with byte `i` replaced. -/
inductive Reading (s : SnapshotImage) (i : Nat) : Except Status SnapshotImage → Prop
  | refused {status : Status} (herror : status.ok = false) (hplace : ¬ ChainByte s i) :
      Reading s i (.error status)
  | misplaced {sequence : UInt64} (hother : sequence ≠ s.sequence) (hplace : ¬ ChainByte s i) :
      Reading s i (.ok { s with sequence })
  | shortened {payload more : List UInt8} (hwhole : s.payload = payload ++ more)
      (hmore : more ≠ []) (hplace : ¬ ChainByte s i) : Reading s i (.ok { s with payload })
  | extended {more : List UInt8} (hmore : more ≠ []) (hplace : ¬ ChainByte s i) :
      Reading s i (.ok { s with payload := s.payload ++ more })
  | rechained {chain : Digest128} (hother : chain ≠ s.chain) (hplace : ChainByte s i) :
      Reading s i (.ok { s with chain })

section Replaced

variable {s : SnapshotImage} {i : Nat} {byte : UInt8}

/-- The file, field by field. -/
theorem snapshotBytes_fields (s : SnapshotImage) :
    snapshotBytes s = fileHeader snapshotMagic ++ (ByteWriter.u64 s.sequence ++
      (ByteWriter.u64 s.chain.lo ++ (s.payload ++ (ByteWriter.u64 s.chain.hi ++
        (ByteWriter.u32 (UInt32.ofNat s.payload.length) ++
          ByteWriter.u32 (crc32c s.payload)))))) := by
  unfold snapshotBytes
  simp only [List.append_assoc]

/-- A word reads back. -/
@[simp] theorem getU64_u64 (v : UInt64) : getU64 (ByteWriter.u64 v) = v := by
  have hget := getU64_append v []
  rwa [List.append_nil] at hget

/-- A file whose length field and checksum hold reads as the payload they describe. -/
theorem parseSnapshot_whole {sequence lo hi : List UInt8} (hsequence : sequence.length = 8)
    (hlo : lo.length = 8) (hhi : hi.length = 8)
    (hfits : s.payload.length ≤ snapshotPayloadLimit) :
    parseSnapshot (fileHeader snapshotMagic ++ (sequence ++ (lo ++ (s.payload ++ (hi ++
      (ByteWriter.u32 (UInt32.ofNat s.payload.length) ++
        ByteWriter.u32 (crc32c s.payload))))))) =
      .ok { sequence := getU64 sequence, chain := ⟨getU64 lo, getU64 hi⟩,
            payload := s.payload } := by
  have hlimit : snapshotPayloadLimit < 2 ^ 32 := by decide
  have hlength := getU32_append (UInt32.ofNat s.payload.length) []
  have hcheck := getU32_append (crc32c s.payload) []
  rw [List.append_nil] at hlength hcheck
  have hnat : (UInt32.ofNat s.payload.length).toNat = s.payload.length :=
    UInt32.toNat_ofNat_of_lt' (lt_of_le_of_lt hfits hlimit)
  rw [parseSnapshot_parts (length_fileHeader _) hsequence hlo hhi (ByteWriter.length_u32 _)
    (ByteWriter.length_u32 _), hlength, hcheck, hnat, List.take_left]
  have hheader : checkHeader snapshotMagic 82 83 (fileHeader snapshotMagic) = .success :=
    checkHeader_fileHeader _ _ _
  have hok : Status.success.ok = true := rfl
  simp only [hheader, hok, Bool.true_eq_false, if_false, not_lt.mpr hfits, ne_eq,
    not_true_eq_false]

/-- A payload whose checksum differs is refused. -/
theorem parseSnapshot_checked {payload check : List UInt8} {n : Nat}
    (hn : (UInt32.ofNat n).toNat = n) (hlength : payload.length = n) (hcheck : check.length = 4)
    (hdiffer : crc32c payload ≠ getU32 check) :
    ∃ status, status.ok = false ∧ parseSnapshot (fileHeader snapshotMagic ++
      (ByteWriter.u64 s.sequence ++ (ByteWriter.u64 s.chain.lo ++ (payload ++
        (ByteWriter.u64 s.chain.hi ++ (ByteWriter.u32 (UInt32.ofNat n) ++ check)))))) =
      .error status := by
  have hget := getU32_append (UInt32.ofNat n) []
  rw [List.append_nil] at hget
  rw [parseSnapshot_parts (length_fileHeader _) (ByteWriter.length_u64 _)
    (ByteWriter.length_u64 _) (ByteWriter.length_u64 _) (ByteWriter.length_u32 _) hcheck, hget,
    hn, List.take_left' hlength]
  split_ifs with hheader
  · exact ⟨_, hheader, rfl⟩
  · exact ⟨_, rfl, rfl⟩
  · exact ⟨_, rfl, rfl⟩
  · exact ⟨_, rfl, rfl⟩

/-- A file whose length field is another one is refused, or its payload is cut or continued. -/
private theorem parseSnapshot_relengthened {length : List UInt8} (hlength : length.length = 4)
    (hother : (getU32 length).toNat ≠ s.payload.length) (hplace : ¬ ChainByte s i) :
    Reading s i (parseSnapshot (fileHeader snapshotMagic ++ (ByteWriter.u64 s.sequence ++
      (ByteWriter.u64 s.chain.lo ++ (s.payload ++ (ByteWriter.u64 s.chain.hi ++
        (length ++ ByteWriter.u32 (crc32c s.payload)))))))) := by
  rw [parseSnapshot_parts (length_fileHeader _) (ByteWriter.length_u64 _)
    (ByteWriter.length_u64 _) (ByteWriter.length_u64 _) hlength (ByteWriter.length_u32 _),
    getU64_u64, getU64_u64, getU64_u64]
  generalize (getU32 length).toNat = n at hother ⊢
  split_ifs with hheader hlimit hshort hcrc
  · exact .refused hheader hplace
  · exact .refused rfl hplace
  · exact .refused rfl hplace
  · exact .refused rfl hplace
  by_cases hlow : n < s.payload.length
  · -- a proper prefix of the payload with the same checksum
    rw [List.take_append_of_le_length hlow.le]
    refine .shortened (List.take_append_drop n s.payload).symm (fun hnil => ?_) hplace
    have hdrop := congrArg List.length hnil
    rw [List.length_drop, List.length_nil] at hdrop
    omega
  · -- the trailer is read as the end of the payload
    rw [List.take_append] at hshort ⊢
    rw [List.take_of_length_le (Nat.not_lt.mp hlow)] at hshort ⊢
    refine .extended (fun hnil => ?_) hplace
    rw [hnil, List.append_nil] at hshort
    exact hshort (Ne.symm hother)

/-- **One replaced byte.**  A snapshot file with one byte replaced is refused, or it reads as the
    snapshot with another sequence, a cut or continued payload, or another chain value. -/
theorem parseSnapshot_replaced (hfits : s.payload.length ≤ snapshotPayloadLimit)
    (hi : i < (snapshotBytes s).length) (hne : (snapshotBytes s)[i]? ≠ some byte) :
    Reading s i (parseSnapshot ((snapshotBytes s).set i byte)) := by
  have hlimit : snapshotPayloadLimit < 2 ^ 32 := by decide
  have hnat : (UInt32.ofNat s.payload.length).toNat = s.payload.length :=
    UInt32.toNat_ofNat_of_lt' (lt_of_le_of_lt hfits hlimit)
  rw [snapshotBytes_fields] at hi hne ⊢
  have hheader := length_fileHeader snapshotMagic
  simp only [List.length_append, length_fileHeader, ByteWriter.length_u64,
    ByteWriter.length_u32] at hi
  by_cases h12 : i < 12
  · -- the header
    rw [List.getElem?_append_left (by omega)] at hne
    rw [List.set_append_left _ _ (by omega)]
    have hrefused : (checkHeader snapshotMagic 82 83 _).ok = false := checkHeader_replaced h12 hne
    rw [parseSnapshot_parts (by rw [List.length_set, hheader]) (ByteWriter.length_u64 _)
      (ByteWriter.length_u64 _) (ByteWriter.length_u64 _) (ByteWriter.length_u32 _)
      (ByteWriter.length_u32 _), if_pos hrefused]
    exact .refused hrefused (by unfold ChainByte; omega)
  rw [List.getElem?_append_right (by omega), hheader] at hne
  rw [List.set_append_right _ _ (by omega), hheader]
  by_cases h20 : i - 12 < 8
  · -- the sequence
    rw [List.getElem?_append_left (by rw [ByteWriter.length_u64]; omega)] at hne
    rw [List.set_append_left _ _ (by rw [ByteWriter.length_u64]; omega),
      parseSnapshot_whole (by rw [List.length_set, ByteWriter.length_u64])
        (ByteWriter.length_u64 _) (ByteWriter.length_u64 _) hfits, getU64_u64, getU64_u64]
    exact .misplaced (fun hsame => hne (getU64_replaced h20 hsame)) (by unfold ChainByte; omega)
  rw [List.getElem?_append_right (by rw [ByteWriter.length_u64]; omega),
    ByteWriter.length_u64] at hne
  rw [List.set_append_right _ _ (by rw [ByteWriter.length_u64]; omega), ByteWriter.length_u64]
  by_cases h28 : i - 12 - 8 < 8
  · -- the low half of the chain value
    rw [List.getElem?_append_left (by rw [ByteWriter.length_u64]; omega)] at hne
    rw [List.set_append_left _ _ (by rw [ByteWriter.length_u64]; omega),
      parseSnapshot_whole (ByteWriter.length_u64 _)
        (by rw [List.length_set, ByteWriter.length_u64]) (ByteWriter.length_u64 _) hfits,
      getU64_u64, getU64_u64]
    refine .rechained (fun hsame => hne (getU64_replaced h28 ?_)) (by unfold ChainByte; omega)
    exact congrArg Digest128.lo hsame
  rw [List.getElem?_append_right (by rw [ByteWriter.length_u64]; omega),
    ByteWriter.length_u64] at hne
  rw [List.set_append_right _ _ (by rw [ByteWriter.length_u64]; omega), ByteWriter.length_u64]
  by_cases hpayload : i - 12 - 8 - 8 < s.payload.length
  · -- the payload
    rw [List.getElem?_append_left hpayload] at hne
    rw [List.set_append_left _ _ hpayload]
    have hdiffer : crc32c (s.payload.set (i - 12 - 8 - 8) byte) ≠
        getU32 (ByteWriter.u32 (crc32c s.payload)) := by
      have hget := getU32_append (crc32c s.payload) []
      rw [List.append_nil] at hget
      rw [hget]
      exact fun hsame => hne (crc32c_set hpayload hsame)
    obtain ⟨status, herror, hparse⟩ := parseSnapshot_checked (s := s) hnat
      List.length_set (ByteWriter.length_u32 _) hdiffer
    rw [hparse]
    exact .refused herror (by unfold ChainByte; omega)
  rw [List.getElem?_append_right (by omega)] at hne
  rw [List.set_append_right _ _ (by omega)]
  by_cases hhigh : i - 12 - 8 - 8 - s.payload.length < 8
  · -- the high half of the chain value
    rw [List.getElem?_append_left (by rw [ByteWriter.length_u64]; omega)] at hne
    rw [List.set_append_left _ _ (by rw [ByteWriter.length_u64]; omega),
      parseSnapshot_whole (ByteWriter.length_u64 _) (ByteWriter.length_u64 _)
        (by rw [List.length_set, ByteWriter.length_u64]) hfits, getU64_u64, getU64_u64]
    refine .rechained (fun hsame => hne (getU64_replaced hhigh ?_)) (by unfold ChainByte; omega)
    exact congrArg Digest128.hi hsame
  rw [List.getElem?_append_right (by rw [ByteWriter.length_u64]; omega),
    ByteWriter.length_u64] at hne
  rw [List.set_append_right _ _ (by rw [ByteWriter.length_u64]; omega), ByteWriter.length_u64]
  by_cases hlength : i - 12 - 8 - 8 - s.payload.length - 8 < 4
  · -- the length field
    rw [List.getElem?_append_left (by rw [ByteWriter.length_u32]; omega)] at hne
    rw [List.set_append_left _ _ (by rw [ByteWriter.length_u32]; omega)]
    refine parseSnapshot_relengthened (by rw [List.length_set, ByteWriter.length_u32])
      (fun hsame => hne (getU32_replaced hlength ?_)) (by unfold ChainByte; omega)
    rw [← UInt32.toNat_inj, hsame, hnat]
  · -- the payload checksum
    rw [List.getElem?_append_right (by rw [ByteWriter.length_u32]; omega),
      ByteWriter.length_u32] at hne
    rw [List.set_append_right _ _ (by rw [ByteWriter.length_u32]; omega), ByteWriter.length_u32]
    obtain ⟨status, herror, hparse⟩ := parseSnapshot_checked (s := s) hnat rfl
      (by rw [List.length_set, ByteWriter.length_u32])
      (fun hsame => hne (getU32_replaced (by omega) hsame.symm))
    rw [hparse]
    exact .refused herror (by unfold ChainByte; omega)

end Replaced

/-! ### Another snapshot file -/

/-- The journal over another snapshot file. -/
def withSnapshotFile (j : FileJournal) (file : List UInt8) : FileJournal :=
  { j with snapshotFile := some file }

section Other

variable (j : FileJournal) (file : List UInt8)

/-- A write of the log does not see the snapshot's file. -/
theorem write_withSnapshotFile (detail : UInt64) (offset : Nat) (data : List UInt8) :
    (j.withSnapshotFile file).write detail offset data =
      ((j.write detail offset data).1, (j.write detail offset data).2.withSnapshotFile file) := by
  unfold write nextFault
  cases hfault : j.faults.head?.getD none with
  | none =>
    have hother : (j.withSnapshotFile file).faults.head?.getD none = none := hfault
    simp only [hother]
    rfl
  | some n =>
    have hother : (j.withSnapshotFile file).faults.head?.getD none = some n := hfault
    simp only [hother]
    rfl

/-- Nor does any other operation on the stream. -/
theorem operation_withSnapshotFile (detail : UInt64) :
    (j.withSnapshotFile file).operation detail =
      ((j.operation detail).1, (j.operation detail).2.withSnapshotFile file) := rfl

/-- The steps of an operation, one after the other, commute with the replacement of the
    snapshot file if each of them does. -/
theorem then_withSnapshotFile {f f' : Status × FileJournal}
    {g : FileJournal → Status × FileJournal} {file : List UInt8}
    (hf : f' = (f.1, f.2.withSnapshotFile file))
    (hg : ∀ k : FileJournal, g (k.withSnapshotFile file) =
      ((g k).1, (g k).2.withSnapshotFile file)) :
    (if !f'.1.ok then (f'.1, f'.2) else g f'.2) =
      ((if !f.1.ok then (f.1, f.2) else g f.2).1,
        (if !f.1.ok then (f.1, f.2) else g f.2).2.withSnapshotFile file) := by
  subst hf
  cases f.1.ok with
  | false => rfl
  | true => exact hg f.2

/-- Truncation does not. -/
theorem truncateStream_withSnapshotFile (size : Nat) :
    (j.withSnapshotFile file).truncateStream size =
      ((j.truncateStream size).1, (j.truncateStream size).2.withSnapshotFile file) := by
  let cut (k : FileJournal) : Status × FileJournal :=
    (.success, { k with file := some (k.log.take size) })
  let resize (k : FileJournal) : Status × FileJournal :=
    let seek := k.operation 3
    if !seek.1.ok then seek else cut seek.2
  exact then_withSnapshotFile (f := j.operation 1) (g := resize) rfl fun k =>
    then_withSnapshotFile (f := k.operation 3) (g := cut) rfl fun _ => rfl

/-- Opening the log does not. -/
theorem openAt_withSnapshotFile : (j.withSnapshotFile file).openAt =
    (j.openAt.1, j.openAt.2.withSnapshotFile file) := by
  let place (k : FileJournal) : Status × FileJournal :=
    (.success, { k with writeOffset := k.log.length, scanOffset := headerBytes,
                        bytes := k.log.length })
  let measure (k : FileJournal) : Status × FileJournal :=
    let size := k.operation 16
    if !size.1.ok then size else place size.2
  let opening : FileJournal :=
    { j with opened := true, replaying := false, torn := false, truncatedBytes := 0 }
  exact then_withSnapshotFile (f := opening.operation 15) (g := measure) rfl fun k =>
    then_withSnapshotFile (f := k.operation 16) (g := place) rfl fun _ => rfl

/-- Neither does the whole `open`. -/
theorem open_withSnapshotFile : (j.withSnapshotFile file).open_ =
    (j.open_.1, j.open_.2.withSnapshotFile file) := by
  let flush (k : FileJournal) : Status × FileJournal :=
    let flushed := k.durableFlush
    if !flushed.1.ok then flushed else flushed.2.openAt
  let create (k : FileJournal) : Status × FileJournal :=
    let written := { k with file := some [] }.write 11 0 (fileHeader journalMagic)
    if !written.1.ok then written else flush written.2
  let check (log : List UInt8) (k : FileJournal) : Status × FileJournal :=
    if log.length < headerBytes then (.refused .journalCorrupt 12, k) else
    let status := checkHeader journalMagic 13 14 (log.take headerBytes)
    if !status.ok then (status, k) else k.openAt
  let stream (start : FileJournal → Status × FileJournal) (k : FileJournal) :
      Status × FileJournal :=
    let found := k.operation 10
    if !found.1.ok then found else start found.2
  have hcreate : ∀ k : FileJournal, create (k.withSnapshotFile file) =
      ((create k).1, (create k).2.withSnapshotFile file) := by
    intro k
    have hwrite := write_withSnapshotFile { k with file := some [] } file 11 0
      (fileHeader journalMagic)
    exact then_withSnapshotFile (f := { k with file := some [] }.write 11 0 _) (g := flush)
      hwrite fun k =>
        then_withSnapshotFile (f := k.durableFlush) (g := openAt) rfl fun k =>
          openAt_withSnapshotFile k file
  have hcheck : ∀ (log : List UInt8) (k : FileJournal), check log (k.withSnapshotFile file) =
      ((check log k).1, (check log k).2.withSnapshotFile file) := by
    intro log k
    have hopen := openAt_withSnapshotFile k file
    simp only [check, hopen]
    split_ifs <;> rfl
  -- a new log is created, the header of an old one is checked
  obtain ⟨options, log, snapshotFile, faults, opened, replaying, torn, writeOffset, scanOffset,
    bytes, truncatedBytes⟩ := j
  cases log with
  | none =>
    let absent : FileJournal :=
      { options, file := none, snapshotFile, faults, opened, replaying, torn, writeOffset,
        scanOffset, bytes, truncatedBytes }
    exact then_withSnapshotFile (f := absent.operation 0) (g := stream create) rfl fun k =>
      then_withSnapshotFile (f := k.operation 10) (g := create) rfl hcreate
  | some log =>
    let present : FileJournal :=
      { options, file := some log, snapshotFile, faults, opened, replaying, torn, writeOffset,
        scanOffset, bytes, truncatedBytes }
    exact then_withSnapshotFile (f := present.operation 0) (g := stream (check log)) rfl fun k =>
      then_withSnapshotFile (f := k.operation 10) (g := check log) rfl (hcheck log)

/-- Nor the start of a replay. -/
theorem beginReplay_withSnapshotFile : (j.withSnapshotFile file).beginReplay =
    (j.beginReplay.1, j.beginReplay.2.withSnapshotFile file) := by
  have hopened : (j.withSnapshotFile file).opened = j.opened := rfl
  have hreplaying : (j.withSnapshotFile file).replaying = j.replaying := rfl
  unfold beginReplay
  simp only [hopened, hreplaying]
  split_ifs <;> rfl

/-- Nor its end. -/
theorem endReplay_withSnapshotFile : (j.withSnapshotFile file).endReplay =
    (j.endReplay.1, j.endReplay.2.withSnapshotFile file) := by
  obtain ⟨⟨maxRecordBytes, maxBytes, truncateTornTail⟩, log, snapshotFile, faults, opened, replaying,
    torn, writeOffset, scanOffset, bytes, truncatedBytes⟩ := j
  cases opened with
  | false => rfl
  | true =>
  cases replaying with
  | false => rfl
  | true =>
  cases torn with
  | false => rfl
  | true =>
  cases truncateTornTail with
  | false => rfl
  | true =>
    let place (k : FileJournal) : Status × FileJournal :=
      (.success, { k with writeOffset := k.scanOffset, bytes := k.scanOffset })
    let stopped : FileJournal :=
      { options := ⟨maxRecordBytes, maxBytes, true⟩, file := log, snapshotFile, faults,
        opened := true, replaying := false, torn := true, writeOffset, scanOffset, bytes,
        truncatedBytes }
    exact then_withSnapshotFile (f := stopped.truncateStream scanOffset) (g := place)
      (truncateStream_withSnapshotFile stopped file scanOffset) fun _ => rfl

/-- A record that is read is read over every snapshot file. -/
theorem nextRecord_withSnapshotFile {j k : FileJournal} {found : Option JournalRecord}
    (h : j.nextRecord = (.success, found, k)) :
    (j.withSnapshotFile file).nextRecord = (.success, found, k.withSnapshotFile file) := by
  -- the fields the scan reads are the log's
  have hopened : (j.withSnapshotFile file).opened = j.opened := rfl
  have hscan : (j.withSnapshotFile file).scanOffset = j.scanOffset := rfl
  have hwrite : (j.withSnapshotFile file).writeOffset = j.writeOffset := rfl
  have hrecord : ((j.operation 34).2.withSnapshotFile file).scanRecord =
    (j.operation 34).2.scanRecord := rfl
  unfold nextRecord at h ⊢
  simp only [hopened, hscan, hwrite, operation_withSnapshotFile, hrecord] at h ⊢
  cases hj : j.opened with
  | false =>
    rw [hj] at h
    exact absurd (show false = true from congrArg (fun x => x.1.ok) h) (by decide)
  | true =>
  simp only [hj, Bool.not_true, Bool.false_eq_true, if_false] at h ⊢
  by_cases hroom : j.scanOffset + recordOverhead > j.writeOffset
  · -- the end of the log
    rw [if_pos hroom] at h ⊢
    simp only [Prod.mk.injEq, true_and] at h ⊢
    refine ⟨h.1, ?_⟩
    rw [← h.2]
    split_ifs <;> rfl
  rw [if_neg hroom] at h ⊢
  cases hread : (j.operation 34).1.ok with
  | false =>
    simp only [hread, Bool.not_false, if_true] at h
    rw [show (j.operation 34).1 = .success from congrArg Prod.fst h] at hread
    exact absurd hread (by decide)
  | true =>
  simp only [hread, Bool.not_true, Bool.false_eq_true, if_false] at h ⊢
  cases hfound : (j.operation 34).2.scanRecord with
  | none =>
    simp only [hfound, Prod.mk.injEq, true_and] at h ⊢
    obtain ⟨rfl, rfl⟩ := h
    exact ⟨rfl, rfl⟩
  | some pair =>
    simp only [hfound, Prod.mk.injEq, true_and] at h ⊢
    obtain ⟨rfl, rfl⟩ := h
    exact ⟨rfl, rfl⟩

/-- A journal that yields a snapshot has read it from its snapshot file. -/
theorem readSnapshot_inv {j k : FileJournal} {image : SnapshotImage}
    (h : j.readSnapshot = (.success, some image, k)) :
    k = (j.operation 80).2 ∧ (j.operation 80).1 = .success ∧
      ∃ bytes, j.snapshotFile = some bytes ∧ parseSnapshot bytes = .ok image := by
  unfold readSnapshot at h
  cases hfile : j.snapshotFile with
  | none =>
    rw [hfile] at h
    exact absurd (congrArg (fun x => x.2.1) h) (by simp)
  | some bytes =>
    simp only [hfile] at h
    split_ifs at h with hstatus
    · exact absurd (congrArg (fun x => x.2.1) h) (by simp)
    · have hsuccess : (j.operation 80).1 = .success := by
        unfold operation at hstatus ⊢
        simp only at hstatus ⊢
        split_ifs at hstatus ⊢
        · exact absurd rfl hstatus
        · rfl
      cases hparse : parseSnapshot bytes with
      | error status =>
        rw [hparse] at h
        exact absurd (congrArg (fun x => x.2.1) h) (by simp)
      | ok read =>
        rw [hparse] at h
        simp only [Prod.mk.injEq, Option.some.injEq, true_and] at h
        exact ⟨h.2.symm, hsuccess, bytes, rfl, hparse.trans (congrArg Except.ok h.1)⟩

/-- The log of a journal is read the same over every snapshot file that can be read. -/
theorem yields_withSnapshotFile {j j' : FileJournal} {image other : SnapshotImage}
    {recs : List JournalRecord} (h : Yields j (some image) recs j')
    (hparse : parseSnapshot file = .ok other) :
    Yields (j.withSnapshotFile file) (some other) recs (j'.withSnapshotFile file) := by
  obtain ⟨j₁, j₂, j₃, j₄, hopen, hread, hbegin, hreads, hend⟩ := h
  replace hopen : j.open_ = (.success, j₁) := hopen
  replace hread : j₁.readSnapshot = (.success, some image, j₂) := hread
  replace hbegin : j₂.beginReplay = (.success, j₃) := hbegin
  replace hend : j₄.endReplay = (.success, j') := hend
  obtain ⟨hj₂, hsuccess, -⟩ := readSnapshot_inv hread
  refine ⟨j₁.withSnapshotFile file, j₂.withSnapshotFile file, j₃.withSnapshotFile file,
    j₄.withSnapshotFile file, ?_, ?_, ?_, ?_, ?_⟩
  · show (j.withSnapshotFile file).open_ = _
    rw [open_withSnapshotFile, hopen]
  · show (j₁.withSnapshotFile file).readSnapshot = _
    have hfile : (j₁.withSnapshotFile file).snapshotFile = some file := rfl
    unfold readSnapshot
    simp only [hfile, operation_withSnapshotFile, hsuccess, hparse, Status.ok_success,
      Bool.not_true, Bool.false_eq_true, if_false, hj₂]
  · show (j₂.withSnapshotFile file).beginReplay = _
    rw [beginReplay_withSnapshotFile, hbegin]
  · clear hend hbegin
    induction hreads with
    | done hnext => exact .done (nextRecord_withSnapshotFile file hnext)
    | next hnext _ ih => exact .next (nextRecord_withSnapshotFile file hnext) ih
  · show (j₄.withSnapshotFile file).endReplay = _
    rw [endReplay_withSnapshotFile, hend]

end Other

end FileJournal

end CreditFabric
