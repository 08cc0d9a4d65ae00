import CreditFabric.Frame

namespace CreditFabric

/-!
# Frames from a byte stream

`recv_frame` of `transport.cpp`: an exact read of a header, its checks, an exact read of what
the header announces, and `decode_frame` on both together.  The stream is what the peer sends
before it closes, in the pieces in which it arrives.

* `ReadOf`: what an exact read makes of a stream depends on its bytes alone.
* `Received`: the six ends of a reception, by the bytes of the stream.
* `recvFrame_agrees_iff`: receiving is decoding, except for a stream that ends right behind an
  accepted header.  That one is reported as closed.

The socket is open, no stop flag is set and no call of the socket fails.
-/

namespace Transport

open Wire

/-! ### Exact reads -/

/-- What a peer sends before it closes, in pieces. -/
abbrev Stream := List (List UInt8)

/-- `recv`: some of the next bytes, at most `count`; no bytes at the end of the stream only.
    Behind an empty piece the wait for the peer goes on. -/
def recv : Stream → Nat → List UInt8 × Stream
  | [], _ => ([], [])
  | [] :: later, count => recv later count
  | (byte :: piece) :: later, count =>
    ((byte :: piece).take count, (byte :: piece).drop count :: later)

/-- What an exact read leaves: its status, whether the peer had closed in front of its first
    byte, the bytes it has read, and the rest of the stream. -/
structure ExactRead where
  status : Status
  closed : Bool := false
  bytes : List UInt8
  stream : Stream

/-- The loop of `read_exact`, with some bytes already there. -/
def readExactFrom (count : Nat) (bytes : List UInt8) (stream : Stream) : ExactRead :=
  if bytes.length < count then
    let received := recv stream (count - bytes.length)
    if received.1.length = 0 then
      if bytes.length = 0 then { status := .success, closed := true, bytes, stream := received.2 }
      else
        { status := .refused .truncatedInput (UInt64.ofNat bytes.length), bytes,
          stream := received.2 }
    else readExactFrom count (bytes ++ received.1) received.2
  else { status := .success, bytes, stream }
termination_by count - bytes.length
decreasing_by
  have hsome : ¬ (recv stream (count - bytes.length)).1.length = 0 := by assumption
  rw [List.length_append]
  omega

/-- `recv_exact`, from nothing received. -/
def readExact (stream : Stream) (count : Nat) : ExactRead := readExactFrom count [] stream

/-- A `recv` loses no byte. -/
theorem recv_flatten (stream : Stream) (count : Nat) :
    (recv stream count).1 ++ (recv stream count).2.flatten = stream.flatten := by
  induction stream with
  | nil => rfl
  | cons piece later ih =>
    cases piece with
    | nil => exact ih
    | cons byte piece =>
      show (byte :: piece).take count ++ ((byte :: piece).drop count :: later).flatten = _
      rw [List.flatten_cons, ← List.append_assoc, List.take_append_drop, List.flatten_cons]

/-- A call that returns nothing has found the end of the stream. -/
theorem recv_ended {stream : Stream} {count : Nat} (hcount : 0 < count)
    (h : (recv stream count).1.length = 0) : stream.flatten = [] := by
  induction stream with
  | nil => rfl
  | cons piece later ih =>
    cases piece with
    | nil => exact ih h
    | cons byte piece =>
      change ((byte :: piece).take count).length = 0 at h
      rw [List.length_take, List.length_cons] at h
      omega

/-- A `recv` takes no more than it was asked for. -/
theorem length_recv_le (stream : Stream) (count : Nat) :
    (recv stream count).1.length ≤ count := by
  induction stream with
  | nil => exact Nat.zero_le _
  | cons piece later ih =>
    cases piece with
    | nil => exact ih
    | cons byte piece => exact List.length_take_le _ _

/-- The three ends of an exact read of a stream with the bytes `data`. -/
inductive ReadOf (count : Nat) (data : List UInt8) : ExactRead → Prop
  | full (bytes : List UInt8) (stream : Stream) (hlength : bytes.length = count)
      (hdata : bytes ++ stream.flatten = data) :
      ReadOf count data { status := .success, bytes, stream }
  | closed (bytes : List UInt8) (stream : Stream) (hdata : data = []) (hcount : 0 < count) :
      ReadOf count data { status := .success, closed := true, bytes, stream }
  | cut (bytes : List UInt8) (stream : Stream) (hdata : data ≠ []) (hlength : data.length < count) :
      ReadOf count data
        { status := .refused .truncatedInput (UInt64.ofNat data.length), bytes, stream }

/-- **Exact reads.**  However the stream arrives, its bytes decide. -/
private theorem readExactFrom_of {count : Nat} {bytes : List UInt8} {stream : Stream}
    {data : List UInt8} (hle : bytes.length ≤ count) (hdata : bytes ++ stream.flatten = data) :
    ReadOf count data (readExactFrom count bytes stream) := by
  fun_induction readExactFrom count bytes stream with
  | case1 bytes stream hshort received hnone hempty =>
    have hended := recv_ended (by omega) hnone
    rw [hended, List.append_nil] at hdata
    refine .closed _ _ ?_ (by omega)
    rw [← hdata]
    exact List.length_eq_zero_iff.mp hempty
  | case2 bytes stream hshort received hnone hsome =>
    have hended := recv_ended (by omega) hnone
    rw [hended, List.append_nil] at hdata
    subst hdata
    exact .cut _ _ (fun hnil => hsome (by rw [hnil]; rfl)) hshort
  | case3 bytes stream hshort received hsome ih =>
    have hroom : received.1.length ≤ count - bytes.length := length_recv_le _ _
    refine ih ?_ ?_
    · rw [List.length_append]
      omega
    · have hflatten : received.1 ++ received.2.flatten = stream.flatten := recv_flatten _ _
      rw [List.append_assoc, hflatten, hdata]
  | case4 bytes stream hfull => exact .full bytes stream (by omega) hdata

/-- What the loop can end with. -/
theorem readExact_of (stream : Stream) (count : Nat) :
    ReadOf count stream.flatten (readExact stream count) :=
  readExactFrom_of (Nat.zero_le _) rfl

/-! ### Frames -/

/-- What a reception leaves; the type is written with the payload only. -/
structure Reception where
  status : Status
  type : Option MessageType := none
  payload : List UInt8 := []
  closed : Bool := false
  stream : Stream

/-- The checks on a header in front of the second read, and the length it announces. -/
def checkHeader (header : List UInt8) (maxPayload : Nat) : Except Status UInt32 :=
  if getU32 header ≠ wireMagic then .error (.refused .malformedMessage 1)
  else if header.getD 4 0 ≠ formatVersion then
    .error (.refused .unsupportedVersion (header.getD 4 0).toUInt64)
  else
    let flags := (header.getD 6 0).toUInt16 ||| ((header.getD 7 0).toUInt16 <<< 8)
    if flags ≠ 0 then .error (.refused .malformedMessage 2) else
    let length := getU32 (header.drop 8)
    if length.toNat > maxPayload then .error (.refused .oversizedFrame length.toUInt64)
    else .ok length

/-- `recv_frame`: the header, its checks, then the payload. -/
def recvFrame (stream : Stream) (maxPayload : Nat) : Reception :=
  let header := readExact stream frameHeaderBytes
  if !header.status.ok then { status := header.status, stream := header.stream }
  else if header.closed then { status := .success, closed := true, stream := header.stream }
  else match checkHeader header.bytes maxPayload with
  | .error status => { status, stream := header.stream }
  | .ok length =>
    let body := readExact header.stream (length.toNat + frameTrailerBytes)
    if !body.status.ok then { status := body.status, stream := body.stream }
    else if body.closed then { status := .success, closed := true, stream := body.stream }
    else match Wire.decodeFrame (header.bytes ++ body.bytes) maxPayload with
    | .error status => { status, stream := body.stream }
    | .ok view =>
      { status := .success, type := some view.header.type, payload := view.payload,
        stream := body.stream }

/-- The header check answers with a refusal or not at all. -/
theorem checkHeader_refuses {header : List UInt8} {maxPayload : Nat} {status : Status}
    (h : checkHeader header maxPayload = .error status) : status.ok = false := by
  unfold checkHeader at h
  simp only at h
  split_ifs at h
  all_goals
    cases h
    rfl

/-- So does the decoder. -/
theorem decodeFrame_refuses {data : List UInt8} {maxPayload : Nat} {status : Status}
    (h : Wire.decodeFrame data maxPayload = .error status) : status.ok = false := by
  unfold Wire.decodeFrame at h
  split_ifs at h
  · cases h
    rfl
  · cases h
    rfl
  · cases h
    rfl
  cases htype : MessageType.ofByte? (data.getD 5 0) with
  | none =>
    simp only [htype] at h
    cases h
    rfl
  | some type =>
    simp only [htype] at h
    split_ifs at h
    all_goals
      cases h
      rfl

/-- The ends of a reception, by the bytes of the stream. -/
inductive Received (maxPayload : Nat) (data : List UInt8) : Reception → Prop
  | empty (stream : Stream) (h : data = []) :
      Received maxPayload data { status := .success, closed := true, stream }
  | cutHeader (status : Status) (stream : Stream) (h : data ≠ []) (hlength : data.length < 12)
      (hrefused : status.ok = false) : Received maxPayload data { status, stream }
  | badHeader (status : Status) (stream : Stream) (hlength : 12 ≤ data.length)
      (hrefused : status.ok = false) (h : checkHeader (data.take 12) maxPayload = .error status) :
      Received maxPayload data { status, stream }
  | headerOnly (stream : Stream) (length : UInt32) (hlength : data.length = 12)
      (h : checkHeader data maxPayload = .ok length) :
      Received maxPayload data { status := .success, closed := true, stream }
  | cutBody (status : Status) (stream : Stream) (length : UInt32) (hbehind : 12 < data.length)
      (hlength : data.length < 16 + length.toNat)
      (h : checkHeader (data.take 12) maxPayload = .ok length) (hrefused : status.ok = false) :
      Received maxPayload data { status, stream }
  | badFrame (status : Status) (stream : Stream) (length : UInt32)
      (hlength : 16 + length.toNat ≤ data.length)
      (h : checkHeader (data.take 12) maxPayload = .ok length)
      (hframe : Wire.decodeFrame (data.take (16 + length.toNat)) maxPayload = .error status)
      (hrefused : status.ok = false) : Received maxPayload data { status, stream }
  | frame (view : FrameView) (stream : Stream) (length : UInt32)
      (hlength : 16 + length.toNat ≤ data.length)
      (h : checkHeader (data.take 12) maxPayload = .ok length)
      (hframe : Wire.decodeFrame (data.take (16 + length.toNat)) maxPayload = .ok view)
      (hstream : stream.flatten = data.drop (16 + length.toNat)) :
      Received maxPayload data
        { status := .success, type := some view.header.type, payload := view.payload, stream }

/-- What a reception can end with. -/
theorem recvFrame_received (stream : Stream) (maxPayload : Nat) :
    Received maxPayload stream.flatten (recvFrame stream maxPayload) := by
  have hheader := readExact_of stream frameHeaderBytes
  unfold recvFrame
  generalize stream.flatten = data at hheader ⊢
  generalize readExact stream frameHeaderBytes = header at hheader ⊢
  have htwelve : frameHeaderBytes = 12 := rfl
  rw [htwelve] at hheader
  -- the first read: nothing, a part of a header, or a header
  cases hheader with
  | closed bytes rest hdata => exact .empty rest hdata
  | cut bytes rest hdata hlength => exact .cutHeader _ rest hdata hlength rfl
  | full bytes rest hlength hdata =>
  subst hdata
  have htake : (bytes ++ rest.flatten).take 12 = bytes := List.take_left' hlength
  simp only [Status.ok_success, Bool.not_true, Bool.false_eq_true, if_false]
  cases hcheck : checkHeader bytes maxPayload with
  | error status =>
    refine .badHeader status rest ?_ (checkHeader_refuses hcheck) (by rw [htake, hcheck])
    rw [List.length_append]
    omega
  | ok length =>
  have hbody := readExact_of rest (length.toNat + frameTrailerBytes)
  have hfour : frameTrailerBytes = 4 := rfl
  simp only
  generalize readExact rest (length.toNat + frameTrailerBytes) = body at hbody ⊢
  rw [hfour] at hbody
  generalize rest.flatten = tail at hbody htake ⊢
  -- the second read, of the length that the header announced
  cases hbody with
  | closed bytes' rest' hdata =>
    refine .headerOnly rest' length ?_ ?_
    · rw [hdata, List.append_nil, hlength]
    · rw [hdata, List.append_nil, hcheck]
  | cut bytes' rest' hdata hshort =>
    have hpos : 0 < tail.length := List.length_pos_iff.mpr hdata
    refine .cutBody _ rest' length ?_ ?_ (by rw [htake, hcheck]) rfl
    · rw [List.length_append]
      omega
    · rw [List.length_append]
      omega
  | full bytes' rest' hlength' hdata =>
    subst hdata
    have hsum : (bytes ++ bytes').length = 16 + length.toNat := by
      rw [List.length_append]
      omega
    have hframe : (bytes ++ (bytes' ++ rest'.flatten)).take (16 + length.toNat) =
        bytes ++ bytes' := by
      rw [← List.append_assoc]
      exact List.take_left' hsum
    have hrest : (bytes ++ (bytes' ++ rest'.flatten)).drop (16 + length.toNat) =
        rest'.flatten := by
      rw [← List.append_assoc]
      exact List.drop_left' hsum
    have hall : 16 + length.toNat ≤ (bytes ++ (bytes' ++ rest'.flatten)).length := by
      rw [← List.append_assoc, List.length_append]
      omega
    simp only [Status.ok_success, Bool.not_true, Bool.false_eq_true, if_false]
    -- the whole frame is decoded once more, now with its checksum
    cases hdecode : Wire.decodeFrame (bytes ++ bytes') maxPayload with
    | error status =>
      exact .badFrame status rest' length hall (by rw [htake, hcheck]) (by rw [hframe, hdecode])
        (decodeFrame_refuses hdecode)
    | ok view =>
      exact .frame view rest' length hall (by rw [htake, hcheck]) (by rw [hframe, hdecode])
        hrest.symm

/-! ### Receiving and decoding -/

/-- What the decoder accepts passes the checks on its header, and the bytes behind the frame do
    not matter. -/
theorem accepted_frame {data : List UInt8} {maxPayload : Nat} {view : FrameView}
    (h : Wire.decodeFrame data maxPayload = .ok view) : ∃ length,
      checkHeader (data.take 12) maxPayload = .ok length ∧ 16 + length.toNat ≤ data.length ∧
      view.consumed = 16 + length.toNat ∧
      Wire.decodeFrame (data.take (16 + length.toNat)) maxPayload = .ok view := by
  obtain ⟨type, payload, rest, hmax, hlt, rfl, rfl⟩ := decodeFrame_eq_ok.mp h
  have hn : (UInt32.ofNat payload.length).toNat = payload.length :=
    UInt32.toNat_ofNat_of_lt' (by show _ < 2 ^ 32; omega)
  have hheader : (frameBytes type payload ++ rest).take 12 =
      writeHeader type 0 (UInt32.ofNat payload.length) ++ [] := by
    rw [frameBytes, frameBody, List.append_assoc, List.append_assoc, List.append_nil]
    exact List.take_left' (length_writeHeader _ _ _)
  refine ⟨UInt32.ofNat payload.length, ?_, ?_, ?_, ?_⟩
  · obtain ⟨hmagic, hversion, -, hlow, hhigh, hword⟩ := read_header hheader
    have hflags : (0 : UInt8).toUInt16 ||| ((0 : UInt8).toUInt16 <<< 8) = 0 := by decide
    unfold checkHeader
    simp only [hmagic, hversion, hlow, hhigh, hflags, hword, hn, ne_eq, not_true_eq_false,
      if_false]
    rw [if_neg (by omega)]
  · rw [hn, List.length_append, length_frameBytes]
    omega
  · rw [hn]
    rfl
  · rw [hn, List.take_left' (length_frameBytes type payload),
      ← List.append_nil (frameBytes type payload)]
    exact decodeFrame_frameBytes hmax hlt []

/-- The decoder does not look past the frame. -/
theorem decodeFrame_append {data : List UInt8} {maxPayload : Nat} {view : FrameView}
    (h : Wire.decodeFrame data maxPayload = .ok view) (more : List UInt8) :
    Wire.decodeFrame (data ++ more) maxPayload = .ok view := by
  obtain ⟨type, payload, rest, hmax, hlt, rfl, rfl⟩ := decodeFrame_eq_ok.mp h
  rw [List.append_assoc]
  exact decodeFrame_frameBytes hmax hlt _

/-- The reception of a stream with the bytes `data` agrees with decoding them: an accepted frame
    is received with its type and payload and nothing behind it is taken off the stream, a
    closed stream is reported exactly if there was nothing, everything else is refused. -/
structure Agrees (maxPayload : Nat) (data : List UInt8) (result : Reception) : Prop where
  accepted : ∀ view, Wire.decodeFrame data maxPayload = .ok view →
    result.status.ok = true ∧ result.closed = false ∧ result.type = some view.header.type ∧
      result.payload = view.payload ∧ result.stream.flatten = data.drop view.consumed
  closed : result.closed = true ↔ data = []
  ended : data = [] → result.status.ok = true
  refused : data ≠ [] → (∀ view, Wire.decodeFrame data maxPayload ≠ .ok view) →
    result.status.ok = false

/-- The stream ends right behind a header that passes its checks. -/
def HeaderOnly (maxPayload : Nat) (data : List UInt8) : Prop :=
  data.length = 12 ∧ ∃ length, checkHeader data maxPayload = .ok length

/-- A refused stream that the decoder does not accept either. -/
theorem Agrees.of_refused {maxPayload : Nat} {data : List UInt8} {status : Status}
    {stream : Stream} (hdata : data ≠ []) (hrefused : status.ok = false)
    (h : ∀ view, Wire.decodeFrame data maxPayload ≠ .ok view) :
    Agrees maxPayload data { status, stream } :=
  ⟨fun view hview => absurd hview (h view),
    ⟨fun hclosed => absurd (show false = true from hclosed) (by decide),
      fun hnil => absurd hnil hdata⟩, fun hnil => absurd hnil hdata, fun _ _ => hrefused⟩

/-- Socket and decoder agree but on a bare header. -/
theorem Received.agrees {maxPayload : Nat} {data : List UInt8} {result : Reception}
    (h : Received maxPayload data result) (hnot : ¬ HeaderOnly maxPayload data) :
    Agrees maxPayload data result := by
  have hnonempty : ∀ {n : Nat}, n < data.length → data ≠ [] := by
    rintro n hlength rfl
    exact absurd hlength (Nat.not_lt_zero n)
  -- what the decoder accepts begins with a header the socket accepts
  have hheader : ∀ {length view}, checkHeader (data.take 12) maxPayload = .ok length →
      Wire.decodeFrame data maxPayload = .ok view → 16 + length.toNat ≤ data.length ∧
        view.consumed = 16 + length.toNat ∧
        Wire.decodeFrame (data.take (16 + length.toNat)) maxPayload = .ok view := by
    intro length view hcheck hview
    obtain ⟨length', hcheck', hrest⟩ := accepted_frame hview
    rw [hcheck, Except.ok.injEq] at hcheck'
    rw [hcheck']
    exact hrest
  cases h with
  | empty stream hdata =>
    refine ⟨fun view hview => ?_, ⟨fun _ => hdata, fun _ => rfl⟩, fun _ => rfl,
      fun hne => absurd hdata hne⟩
    obtain ⟨length, -, hlength, -⟩ := accepted_frame hview
    rw [hdata, List.length_nil] at hlength
    omega
  | cutHeader status stream hdata hlength hrefused =>
    refine .of_refused hdata hrefused fun view hview => ?_
    obtain ⟨length, -, hlength', -⟩ := accepted_frame hview
    omega
  | badHeader status stream hlength hrefused hcheck =>
    refine .of_refused (hnonempty (n := 0) (by omega)) hrefused fun view hview => ?_
    obtain ⟨length, hcheck', -⟩ := accepted_frame hview
    rw [hcheck] at hcheck'
    exact absurd hcheck' (by simp)
  -- the one case in which they differ
  | headerOnly stream length hlength hcheck => exact absurd ⟨hlength, length, hcheck⟩ hnot
  | cutBody status stream length hbehind hlength hcheck hrefused =>
    refine .of_refused (hnonempty hbehind) hrefused fun view hview => ?_
    obtain ⟨hlength', -⟩ := hheader hcheck hview
    omega
  | badFrame status stream length hlength hcheck hframe hrefused =>
    refine .of_refused (hnonempty (n := 0) (by omega)) hrefused fun view hview => ?_
    obtain ⟨-, -, hview'⟩ := hheader hcheck hview
    rw [hframe] at hview'
    exact absurd hview' (by simp)
  -- both take the same frame, and the socket is left behind it
  | frame view stream length hlength hcheck hframe hstream =>
    have hwhole : Wire.decodeFrame data maxPayload = .ok view := by
      have happend := decodeFrame_append hframe (data.drop (16 + length.toNat))
      rwa [List.take_append_drop] at happend
    have hdata : data ≠ [] := hnonempty (n := 0) (by omega)
    refine ⟨fun view' hview' => ?_, ⟨fun hclosed => ?_, fun hnil => absurd hnil hdata⟩,
      fun hnil => absurd hnil hdata, fun _ hnone => absurd hwhole (hnone view)⟩
    · rw [hwhole, Except.ok.injEq] at hview'
      subst hview'
      refine ⟨rfl, rfl, rfl, rfl, ?_⟩
      rw [(hheader hcheck hwhole).2.1]
      exact hstream
    · exact absurd (show false = true from hclosed) (by decide)

/-- A stream that ends behind an accepted header is reported as closed. -/
theorem Received.closed_of_headerOnly {maxPayload : Nat} {data : List UInt8} {result : Reception}
    (h : Received maxPayload data result) (hheader : HeaderOnly maxPayload data) :
    result.closed = true ∧ result.status.ok = true := by
  obtain ⟨hlength, length, hcheck⟩ := hheader
  have htake : data.take 12 = data := List.take_of_length_le (by omega)
  cases h with
  | empty => exact ⟨rfl, rfl⟩
  | cutHeader _ _ _ hshort => omega
  | badHeader _ _ _ _ hbad =>
    rw [htake, hcheck] at hbad
    exact absurd hbad (by simp)
  | headerOnly => exact ⟨rfl, rfl⟩
  | cutBody _ _ _ hbehind => omega
  | badFrame _ _ _ hlong => omega
  | frame _ _ _ hlong => omega

/-- **Receiving is decoding.**  For every stream, in whatever pieces it arrives, and every bound
    on the payload, the reception agrees with decoding the bytes of the stream exactly if the
    stream does not end right behind a header that passes its checks. -/
theorem recvFrame_agrees_iff (stream : Stream) (maxPayload : Nat) :
    Agrees maxPayload stream.flatten (recvFrame stream maxPayload) ↔
      ¬ HeaderOnly maxPayload stream.flatten := by
  have hreceived := recvFrame_received stream maxPayload
  constructor
  · intro hagrees hheader
    have hnil := hagrees.closed.mp (hreceived.closed_of_headerOnly hheader).1
    rw [HeaderOnly, hnil] at hheader
    exact absurd hheader.1 (by decide)
  · exact hreceived.agrees

namespace LoneHeader

/-- The header of a Bye, in two pieces. -/
def stream : Stream := [(writeHeader .bye 0 0).take 5, (writeHeader .bye 0 0).drop 5]

/-- Twelve bytes of a frame have arrived, and the stream is reported as one without any. -/
theorem stream_closed : ¬ ∀ (stream : Stream) (maxPayload : Nat),
    Agrees maxPayload stream.flatten (recvFrame stream maxPayload) := by
  intro hclaim
  have hcheck : checkHeader stream.flatten 64 = .ok 0 := by decide
  have hclosed := (recvFrame_received stream 64).closed_of_headerOnly ⟨by decide, 0, hcheck⟩
  have hnil := (hclaim stream 64).closed.mp hclosed.1
  exact absurd hnil (by decide)

end LoneHeader

end Transport

end CreditFabric
