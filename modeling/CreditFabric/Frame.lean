import CreditFabric.FileLog

namespace CreditFabric

open FileJournal (getU32_append)

/-!
# Frames

The framing of `wire.cpp`: a magic, a version, a type, zero flags, a length, the payload and the
checksum of everything in front of it, all little-endian.  `decodeFrame_eq_ok` says which byte
strings are accepted, and from it follow the round trip, its converse and the detection of a
damaged byte.
-/

/-- `MessageType`. -/
inductive MessageType where
  | hello
  | helloAck
  | request
  | response
  | bye
deriving DecidableEq, Repr

/-- The byte of a type in a header. -/
def MessageType.code : MessageType → UInt8
  | .hello => 1
  | .helloAck => 2
  | .request => 3
  | .response => 4
  | .bye => 5

/-- The type of a byte, if it has one. -/
def MessageType.ofByte? (byte : UInt8) : Option MessageType :=
  if byte = 1 then some .hello else if byte = 2 then some .helloAck
  else if byte = 3 then some .request else if byte = 4 then some .response
  else if byte = 5 then some .bye else none

/-- `FrameHeader`. -/
structure FrameHeader where
  version : UInt8 := 0
  type : MessageType := .hello
  flags : UInt16 := 0
  payloadLength : UInt32 := 0
deriving DecidableEq, Repr

/-- A decoded frame.  The payload pointer and its length are the payload's bytes. -/
structure FrameView where
  header : FrameHeader := {}
  payload : List UInt8 := []
  consumed : Nat := 0
deriving DecidableEq, Repr

namespace Wire

/-- The first word of a frame. -/
def wireMagic : UInt32 := 0x31524643

/-- The bytes of a header. -/
def frameHeaderBytes : Nat := 12

/-- The bytes of the checksum behind the payload. -/
def frameTrailerBytes : Nat := 4

/-- What a frame adds to its payload. -/
def frameOverheadBytes : Nat := frameHeaderBytes + frameTrailerBytes

/-- `write_header`. -/
def writeHeader (type : MessageType) (flags : UInt16) (payloadLength : UInt32) : List UInt8 :=
  ByteWriter.u32 wireMagic ++ [formatVersion, type.code, (flags &&& 0xFF).toUInt8,
    ((flags >>> 8) &&& 0xFF).toUInt8] ++ ByteWriter.u32 payloadLength

/-- The header and the payload, which the checksum covers. -/
def frameBody (type : MessageType) (payload : List UInt8) : List UInt8 :=
  writeHeader type 0 (UInt32.ofNat payload.length) ++ payload

/-- `encode_frame`. -/
def encodeFrame (type : MessageType) (payload : List UInt8) : Except Status (List UInt8) :=
  if payload.length > 0xFFFFFFFF then
    .error (.refused .oversizedFrame (UInt64.ofNat payload.length))
  else
    let out := frameBody type payload
    .ok (out ++ ByteWriter.u32 (crc32c out))

/-- `decode_frame`: the header, the length and the checksum are checked in this order. -/
def decodeFrame (data : List UInt8) (maxPayload : Nat) : Except Status FrameView :=
  if data.length < frameOverheadBytes then
    .error (.refused .truncatedInput (UInt64.ofNat data.length))
  else if getU32 data ≠ wireMagic then .error (.refused .malformedMessage 1)
  else if data.getD 4 0 ≠ formatVersion then
    .error (.refused .unsupportedVersion (data.getD 4 0).toUInt64)
  else match MessageType.ofByte? (data.getD 5 0) with
  | none => .error (.refused .malformedMessage 2)
  | some type =>
    let flags := (data.getD 6 0).toUInt16 ||| ((data.getD 7 0).toUInt16 <<< 8)
    if flags ≠ 0 then .error (.refused .malformedMessage 3) else
    let payloadLength := getU32 (data.drop 8)
    let length := payloadLength.toNat
    if length > maxPayload then .error (.refused .oversizedFrame payloadLength.toUInt64) else
    let total := frameOverheadBytes + length
    if data.length < total then .error (.refused .truncatedInput (UInt64.ofNat data.length)) else
    let expected := getU32 (data.drop (frameHeaderBytes + length))
    let actual := crc32c (data.take (frameHeaderBytes + length))
    if expected ≠ actual then
      .error (.refused .checksumMismatch (expected ^^^ actual).toUInt64)
    else .ok { header := { version := data.getD 4 0, type, flags, payloadLength },
               payload := (data.drop frameHeaderBytes).take length, consumed := total }

/-! ### The accepted frames -/

/-- What is decoded of the frame with this type and payload. -/
def frameView (type : MessageType) (payload : List UInt8) : FrameView where
  header := { version := formatVersion, type, flags := 0,
              payloadLength := UInt32.ofNat payload.length }
  payload := payload
  consumed := frameOverheadBytes + payload.length

/-- The bytes of a frame. -/
def frameBytes (type : MessageType) (payload : List UInt8) : List UInt8 :=
  frameBody type payload ++ ByteWriter.u32 (crc32c (frameBody type payload))

/-- Bytes and types determine each other. -/
theorem MessageType.ofByte?_eq_some {byte : UInt8} {type : MessageType} :
    MessageType.ofByte? byte = some type ↔ byte = type.code := by
  constructor
  · intro h
    unfold MessageType.ofByte? at h
    split_ifs at h with h₁ h₂ h₃ h₄ h₅ <;> rw [← Option.some.inj h] <;> assumption
  · rintro rfl
    cases type <;> rfl

/-- A header has its length. -/
@[simp] theorem length_writeHeader (type : MessageType) (flags : UInt16) (n : UInt32) :
    (writeHeader type flags n).length = 12 := by
  simp [writeHeader]

/-- What the checksum covers. -/
@[simp] theorem length_frameBody (type : MessageType) (payload : List UInt8) :
    (frameBody type payload).length = 12 + payload.length := by
  simp [frameBody]

/-- The length of a frame. -/
@[simp] theorem length_frameBytes (type : MessageType) (payload : List UInt8) :
    (frameBytes type payload).length = 16 + payload.length := by
  simp [frameBytes]
  omega

/-- A payload that the length field can hold is framed. -/
theorem encodeFrame_of_le {type : MessageType} {payload : List UInt8}
    (h : payload.length ≤ 0xFFFFFFFF) :
    encodeFrame type payload = .ok (frameBytes type payload) := by
  unfold encodeFrame
  rw [if_neg (Nat.not_lt.mpr h)]
  rfl

/-- A longer one is not. -/
theorem encodeFrame_of_gt {type : MessageType} {payload : List UInt8}
    (h : 0xFFFFFFFF < payload.length) (frame : List UInt8) :
    encodeFrame type payload ≠ .ok frame := by
  unfold encodeFrame
  rw [if_pos h]
  exact nofun

/-- A word is the four bytes it is read from. -/
theorem take_four {bytes : List UInt8} (h : 4 ≤ bytes.length) :
    bytes.take 4 = ByteWriter.u32 (getU32 bytes) := by
  have hlen : (bytes.take 4).length = 4 := by simp [h]
  have hlt : Lib.leValue (bytes.take 4) < 2 ^ 32 := by
    have := Lib.leValue_lt (bytes.take 4)
    rw [hlen] at this
    exact this
  have hbytes := Lib.leBytes_leValue (bytes.take 4)
  rw [hlen] at hbytes
  unfold ByteWriter.u32 getU32
  rw [UInt32.toNat_ofNat_of_lt' hlt, hbytes]

/-- The next byte, and those behind it. -/
theorem drop_eq_getD_cons {bytes : List UInt8} {n : Nat} (h : n < bytes.length) :
    bytes.drop n = bytes.getD n 0 :: bytes.drop (n + 1) := by
  rw [List.drop_eq_getElem_cons h, List.getD_eq_getElem?_getD, List.getElem?_eq_getElem h,
    Option.getD_some]

/-- Flags of zero are two bytes of zero. -/
private theorem flags_eq_zero {low high : UInt8} (h : low.toUInt16 ||| (high.toUInt16 <<< 8) = 0) :
    low = 0 ∧ high = 0 := by
  have hnat := congrArg UInt16.toNat h
  have hlow := low.toNat_lt
  have hhigh := high.toNat_lt
  simp only [UInt16.toNat_or, UInt8.toNat_toUInt16, UInt16.toNat_shiftLeft, UInt16.reduceToNat,
    Nat.reduceMod, Nat.or_eq_zero_iff, Nat.shiftLeft_eq] at hnat
  refine ⟨UInt8.toNat_inj.mp hnat.1, UInt8.toNat_inj.mp ?_⟩
  have := hnat.2
  rw [Nat.mod_eq_of_lt (by omega)] at this
  show high.toNat = 0
  omega

/-- The header in front of an accepted frame. -/
private theorem take_twelve {data : List UInt8} {type : MessageType} (hsize : 16 ≤ data.length)
    (hmagic : getU32 data = wireMagic) (hversion : data.getD 4 0 = formatVersion)
    (htype : MessageType.ofByte? (data.getD 5 0) = some type)
    (hflags : (data.getD 6 0).toUInt16 ||| ((data.getD 7 0).toUInt16 <<< 8) = 0) :
    data.take 12 = writeHeader type 0 (getU32 (data.drop 8)) := by
  obtain ⟨hlow, hhigh⟩ := flags_eq_zero hflags
  have hword : data.take 4 = ByteWriter.u32 wireMagic := by
    rw [take_four (by omega), hmagic]
  have hlength : (data.drop 8).take 4 = ByteWriter.u32 (getU32 (data.drop 8)) :=
    take_four (by rw [List.length_drop]; omega)
  have hmiddle : (data.drop 4).take 4 = [formatVersion, type.code, 0, 0] := by
    rw [drop_eq_getD_cons (by omega), drop_eq_getD_cons (by omega),
      drop_eq_getD_cons (by omega), drop_eq_getD_cons (by omega), hversion,
      MessageType.ofByte?_eq_some.mp htype, hlow, hhigh]
    rfl
  have hsplit : data.take 12 = data.take 4 ++ (data.drop 4).take 4 ++ (data.drop 8).take 4 := by
    rw [show 12 = 4 + (4 + 4) from rfl, List.take_add, List.take_add, List.drop_drop,
      List.append_assoc]
  rw [hsplit, hword, hmiddle, hlength]
  rfl

/-- What is decoded is a frame in front of the bytes. -/
theorem decodeFrame_inv {data : List UInt8} {maxPayload : Nat} {view : FrameView}
    (h : decodeFrame data maxPayload = .ok view) : ∃ type payload rest,
      payload.length ≤ maxPayload ∧ payload.length ≤ 0xFFFFFFFF ∧
      data = frameBytes type payload ++ rest ∧ view = frameView type payload := by
  unfold decodeFrame at h
  split_ifs at h with hsize hmagic hversion
  cases htype : MessageType.ofByte? (data.getD 5 0) with
  | none =>
    rw [htype] at h
    exact absurd h (by simp)
  | some type =>
    simp only [htype] at h
    split_ifs at h with hflags hmax htotal hcrc
    rw [Except.ok.injEq] at h
    -- the bytes, field by field, are those of the frame's parts
    unfold frameOverheadBytes frameHeaderBytes frameTrailerBytes at *
    generalize hn : (getU32 (data.drop 8)).toNat = n at h hmax htotal hcrc
    have hlt : n ≤ 0xFFFFFFFF := by
      have := (getU32 (data.drop 8)).toNat_lt
      omega
    have hlength : ((data.drop 12).take n).length = n := by
      rw [List.length_take, List.length_drop]
      omega
    have hword : UInt32.ofNat n = getU32 (data.drop 8) := by rw [← hn, UInt32.ofNat_toNat]
    have hbody : data.take (12 + n) = frameBody type ((data.drop 12).take n) := by
      unfold frameBody
      rw [List.take_add, take_twelve (by omega) (not_not.mp hmagic) (not_not.mp hversion) htype
        (not_not.mp hflags), hlength, hword]
    have htrailer : (data.drop (12 + n)).take 4 =
        ByteWriter.u32 (crc32c (frameBody type ((data.drop 12).take n))) := by
      rw [take_four (by rw [List.length_drop]; omega), not_not.mp hcrc, hbody]
    refine ⟨type, (data.drop 12).take n, data.drop (12 + n + 4), by omega, by omega, ?_, ?_⟩
    · unfold frameBytes
      rw [← htrailer, ← hbody, ← List.take_add, List.take_append_drop]
    · rw [← h]
      unfold frameView frameOverheadBytes frameHeaderBytes frameTrailerBytes
      rw [hlength, hword, not_not.mp hversion, not_not.mp hflags]

/-- The fixed bytes of a frame, and the length behind them. -/
theorem read_header {type : MessageType} {length : UInt32} {data tail : List UInt8}
    (h : data = writeHeader type 0 length ++ tail) :
    getU32 data = wireMagic ∧ data.getD 4 0 = formatVersion ∧ data.getD 5 0 = type.code ∧
      data.getD 6 0 = 0 ∧ data.getD 7 0 = 0 ∧ getU32 (data.drop 8) = length := by
  have hdata : data = ByteWriter.u32 wireMagic ++
      (formatVersion :: type.code :: 0 :: 0 :: (ByteWriter.u32 length ++ tail)) := by
    rw [h]
    simp [writeHeader]
  have hmiddle : data.drop 4 =
      formatVersion :: type.code :: 0 :: 0 :: (ByteWriter.u32 length ++ tail) := by
    rw [hdata]
    exact List.drop_left' (ByteWriter.length_u32 _)
  have hbyte : ∀ n, data.getD (4 + n) 0 = (data.drop 4).getD n 0 := by
    intro n
    rw [List.getD_eq_getElem?_getD, List.getD_eq_getElem?_getD, List.getElem?_drop]
  refine ⟨?_, ?_, ?_, ?_, ?_, ?_⟩
  · rw [hdata]
    exact getU32_append _ _
  · exact (hbyte 0).trans (by rw [hmiddle]; rfl)
  · exact (hbyte 1).trans (by rw [hmiddle]; rfl)
  · exact (hbyte 2).trans (by rw [hmiddle]; rfl)
  · exact (hbyte 3).trans (by rw [hmiddle]; rfl)
  · rw [show 8 = 4 + 4 from rfl, ← List.drop_drop, hmiddle]
    exact getU32_append _ _

/-- A frame in front of any bytes is decoded. -/
theorem decodeFrame_frameBytes {type : MessageType} {payload : List UInt8} {maxPayload : Nat}
    (hmax : payload.length ≤ maxPayload) (hlt : payload.length ≤ 0xFFFFFFFF)
    (rest : List UInt8) :
    decodeFrame (frameBytes type payload ++ rest) maxPayload = .ok (frameView type payload) := by
  have hbodyLength := length_frameBody type payload
  have hn : (UInt32.ofNat payload.length).toNat = payload.length :=
    UInt32.toNat_ofNat_of_lt' (by show _ < 2 ^ 32; omega)
  generalize hdata : frameBytes type payload ++ rest = data
  have hlen : data.length = 16 + payload.length + rest.length := by
    rw [← hdata, List.length_append, length_frameBytes]
  -- the checksum covers the header and the payload
  have hframe : data = frameBody type payload ++
      (ByteWriter.u32 (crc32c (frameBody type payload)) ++ rest) := by
    rw [← hdata, frameBytes, List.append_assoc]
  have hheader : data = writeHeader type 0 (UInt32.ofNat payload.length) ++ (payload ++
      (ByteWriter.u32 (crc32c (frameBody type payload)) ++ rest)) := by
    rw [hframe, frameBody, List.append_assoc]
  obtain ⟨hmagic, hversion, hcode, hlow, hhigh, hword⟩ := read_header hheader
  have hbody : data.take (12 + payload.length) = frameBody type payload := by
    rw [hframe]
    exact List.take_left' hbodyLength
  have htrailer : getU32 (data.drop (12 + payload.length)) = crc32c (frameBody type payload) := by
    rw [hframe, List.drop_left' hbodyLength]
    exact getU32_append _ _
  have hpayload : (data.drop 12).take payload.length = payload := by
    rw [hheader, List.drop_left' (length_writeHeader _ _ _)]
    exact List.take_left
  have hflags : (0 : UInt8).toUInt16 ||| ((0 : UInt8).toUInt16 <<< 8) = 0 := by decide
  unfold decodeFrame frameOverheadBytes frameHeaderBytes frameTrailerBytes
  simp only [hmagic, hversion, hcode, MessageType.ofByte?_eq_some.mpr rfl, hlow, hhigh, hflags,
    hword, hn, hbody, htrailer, hpayload, ne_eq, not_true_eq_false, if_false]
  rw [if_neg (by omega), if_neg (by omega), if_neg (by omega)]
  rfl

/-- **The accepted frames.** -/
theorem decodeFrame_eq_ok {data : List UInt8} {maxPayload : Nat} {view : FrameView} :
    decodeFrame data maxPayload = .ok view ↔ ∃ type payload rest,
      payload.length ≤ maxPayload ∧ payload.length ≤ 0xFFFFFFFF ∧
      data = frameBytes type payload ++ rest ∧ view = frameView type payload := by
  constructor
  · exact decodeFrame_inv
  · rintro ⟨type, payload, rest, hmax, hlt, rfl, rfl⟩
    exact decodeFrame_frameBytes hmax hlt rest

/-! ### Damage -/

/-- A body with its checksum behind it that is damaged in one byte is none any more. -/
private theorem set_checksummed {body body' : List UInt8} {i : Nat} {byte : UInt8}
    (hlen : body'.length = body.length) (hi : i < body.length + 4)
    (h : (body ++ ByteWriter.u32 (crc32c body)).set i byte =
      body' ++ ByteWriter.u32 (crc32c body')) :
    (body ++ ByteWriter.u32 (crc32c body))[i]? = some byte := by
  by_cases hbody : i < body.length
  · -- in the body: the checksum is the old one
    rw [List.set_append_left _ _ hbody] at h
    obtain ⟨hset, htrailer⟩ := List.append_inj h (by rw [List.length_set, hlen])
    have hcrc : crc32c body = crc32c body' := by
      have hget := getU32_append (crc32c body) []
      rw [htrailer, getU32_append] at hget
      exact hget.symm
    rw [← hset] at hcrc
    rw [List.getElem?_append_left hbody]
    exact crc32c_set hbody hcrc.symm
  · -- in the checksum: the body is the old one
    rw [List.set_append_right _ _ (by omega)] at h
    obtain ⟨rfl, htrailer⟩ := List.append_inj h hlen.symm
    rw [List.getElem?_append_right (by omega), ← htrailer, List.getElem?_set_self]
    rw [ByteWriter.length_u32]
    omega

/-- **Frames.**  A frame is read back, whatever follows it; what is read is a frame; and a frame
    with one damaged byte is never accepted as a whole. -/
theorem frames_roundTrip_separate (maxPayload : Nat) :
    (∀ type payload rest, payload.length ≤ maxPayload → payload.length < 2 ^ 32 →
      ∃ frame view, encodeFrame type payload = .ok frame ∧
        decodeFrame (frame ++ rest) maxPayload = .ok view ∧ view.header.type = type ∧
        view.payload = payload ∧ view.consumed = payload.length + 16) ∧
    (∀ data view, decodeFrame data maxPayload = .ok view →
      encodeFrame view.header.type view.payload = .ok (data.take view.consumed)) ∧
    (∀ type payload frame i byte view, encodeFrame type payload = .ok frame →
      i < frame.length → frame[i]? ≠ some byte →
      decodeFrame (frame.set i byte) maxPayload = .ok view →
      view.consumed ≠ (frame.set i byte).length) := by
  refine ⟨fun type payload rest hmax hlt => ?_, fun data view h => ?_,
    fun type payload frame i byte view hframe hi hbyte h hconsumed => hbyte ?_⟩
  · refine ⟨_, frameView type payload, encodeFrame_of_le (by omega),
      decodeFrame_frameBytes hmax (by omega) rest, rfl, rfl, ?_⟩
    show 16 + payload.length = payload.length + 16
    omega
  · obtain ⟨type, payload, rest, hmax, hlt, rfl, rfl⟩ := decodeFrame_eq_ok.mp h
    rw [show (frameView type payload).payload = payload from rfl, encodeFrame_of_le hlt]
    exact congrArg Except.ok (List.take_left' (length_frameBytes _ _)).symm
  · obtain ⟨type', payload', rest, hmax, hlt, hdata, rfl⟩ := decodeFrame_eq_ok.mp h
    -- the whole of the damaged frame was consumed
    have hrest : rest = [] := by
      have hlen := congrArg List.length hdata
      rw [List.length_append, length_frameBytes, ← hconsumed] at hlen
      have hnil : 16 + payload'.length = 16 + payload'.length + rest.length := hlen
      exact List.length_eq_zero_iff.mp (by omega)
    unfold encodeFrame at hframe
    split_ifs at hframe with hlong
    rw [Except.ok.injEq] at hframe
    subst hframe
    rw [hrest, List.append_nil] at hdata
    have hlen := congrArg List.length hdata
    rw [List.length_set, List.length_append, frameBytes, List.length_append,
      ByteWriter.length_u32, ByteWriter.length_u32] at hlen
    rw [List.length_append, ByteWriter.length_u32] at hi
    exact set_checksummed (by omega) hi hdata

/-- A frame without a payload, and the same with another type. -/
theorem bye_frame_separates :
    ∃ frame, encodeFrame .bye [] = .ok frame ∧
      ∀ view, decodeFrame (frame.set 5 4) 64 = .ok view → view.consumed ≠ 16 := by
  obtain ⟨frame, view, hframe, -⟩ := (frames_roundTrip_separate 64).1 .bye [] [] (by decide)
    (by decide)
  refine ⟨frame, hframe, fun view h => ?_⟩
  have heq : frame = frameBytes .bye [] := by
    rw [encodeFrame_of_le (by decide), Except.ok.injEq] at hframe
    exact hframe.symm
  have hlen : frame.length = 16 := by rw [heq, length_frameBytes]; rfl
  have hseparate := (frames_roundTrip_separate 64).2.2 .bye [] frame 5 4 view hframe (by omega)
    (by rw [heq]; decide +kernel) h
  rw [List.length_set, hlen] at hseparate
  exact hseparate

/-- A payload that the 32-bit length cannot count is not framed at all, whatever the bound of
    the receiver. -/
theorem longPayload_unframed :
    (List.replicate (2 ^ 32) (0 : UInt8)).length ≤ 2 ^ 32 ∧
      ¬ ∃ frame view, encodeFrame .bye (List.replicate (2 ^ 32) 0) = .ok frame ∧
        decodeFrame (frame ++ []) (2 ^ 32) = .ok view := by
  have hlen : (List.replicate (2 ^ 32) (0 : UInt8)).length = 2 ^ 32 := List.length_replicate
  generalize List.replicate (2 ^ 32) (0 : UInt8) = payload at hlen ⊢
  refine ⟨le_of_eq hlen, ?_⟩
  rintro ⟨frame, view, hframe, -⟩
  exact encodeFrame_of_gt (by omega) frame hframe

end Wire

end CreditFabric
