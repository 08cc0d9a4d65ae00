import CreditFabric.Transport
import Mathlib.Data.List.Infix

namespace CreditFabric

/-!
# The loops of a socket

`read_exact` and `write_all` of `transport.cpp` go round until their bytes are moved.  Each time
they look at the stop flag, wait for the socket for a bounded time, and let the kernel move as
many bytes as it likes.  What a loop meets is a list of turns; the loop still waits when the
turns are over.

* `readExact_ends`, `writeAll_ends`: the ends of the two loops.
* `recvFrame_arrives`: what is received is a frame that lies in front of the bytes, whatever the
  turns are, or nothing.
* `sendFrames_progress`, `Receives.moves_le`, `exists_receives`: either side comes to an end once
  the kernel has moved bytes often enough.
* `frames_delivered`: what one side sends, frame by frame, and the other side receives.
* `recvFrame_stopped`, `sendFrame_stopped`: no loop goes round again behind the stop flag.
-/

namespace Socket

open Wire

/-! ### Turns -/

/-- What a loop meets when it goes round once. -/
inductive Turn where
  /-- The stop flag is set. -/
  | stopped
  /-- The bounded wait has expired. -/
  | expired
  /-- The wait has failed. -/
  | unready
  /-- The socket was ready and the call would block. -/
  | wouldBlock
  /-- The call has failed. -/
  | failed
  /-- The call moves bytes: one, and at most this many more. -/
  | moves (more : Nat)
deriving DecidableEq, Repr

/-- The turns that end a loop early. -/
def Turn.breaks : Turn → Bool
  | .stopped | .unready | .failed => true
  | .expired | .wouldBlock | .moves _ => false

/-- No turn ends a loop early. -/
def Calm (turns : List Turn) : Prop := ∀ turn ∈ turns, turn.breaks = false

/-- The kernel moves bytes at the turn. -/
def Turn.moving : Turn → Bool
  | .moves _ => true
  | .stopped | .expired | .unready | .wouldBlock | .failed => false

/-- How many turns move bytes. -/
def movesOf (turns : List Turn) : Nat := turns.countP Turn.moving

/-- The last of calm turns are calm. -/
theorem Calm.of_suffix {turns turns' : List Turn} (h : Calm turns) (hsuffix : turns' <:+ turns) :
    Calm turns' := fun turn hturn => h turn (hsuffix.subset hturn)

/-- What a loop leaves: its status, none when it still waits, whether the peer had closed in
    front of the first byte, the bytes it has moved and those it has not, and the turns to
    come. -/
structure Transfer where
  status : Option Status := none
  closed : Bool := false
  moved : List UInt8
  left : List UInt8
  turns : List Turn := []
deriving DecidableEq, Repr

/-- The loop of `read_exact`: `count` bytes out of those the peer sends before it closes, some
    of them there already. -/
def readExact (count : Nat) (moved left : List UInt8) : List Turn → Transfer
  | [] =>
    if moved.length < count then { moved, left } else { status := some .success, moved, left }
  | turn :: turns =>
    if moved.length < count then
      match turn with
      | .stopped =>
        { status := some (.refused .shutdownInProgress (UInt64.ofNat moved.length)), moved, left,
          turns }
      | .expired | .wouldBlock => readExact count moved left turns
      | .unready | .failed =>
        { status := some (.refused .transportError 1), moved, left, turns }
      | .moves more =>
        let received := left.take (min (more + 1) (count - moved.length))
        if received.length = 0 then
          if moved.length = 0 then
            { status := some .success, closed := true, moved, left, turns }
          else
            { status := some (.refused .truncatedInput (UInt64.ofNat moved.length)), moved, left,
              turns }
        else readExact count (moved ++ received) (left.drop received.length) turns
    else { status := some .success, moved, left, turns := turn :: turns }

/-- The loop of `write_all`. -/
def writeAll (moved left : List UInt8) : List Turn → Transfer
  | [] => if left.isEmpty then { status := some .success, moved, left } else { moved, left }
  | turn :: turns =>
    if left.isEmpty then { status := some .success, moved, left, turns := turn :: turns } else
    match turn with
    | .stopped =>
      { status := some (.refused .shutdownInProgress (UInt64.ofNat moved.length)), moved, left,
        turns }
    | .expired | .wouldBlock => writeAll moved left turns
    | .unready | .failed => { status := some (.refused .transportError 2), moved, left, turns }
    | .moves more =>
      let sent := left.take (more + 1)
      writeAll (moved ++ sent) (left.drop sent.length) turns

/-- `Socket::send_frame` on an open socket. -/
def sendFrame (type : MessageType) (payload : List UInt8) (turns : List Turn) : Transfer :=
  match encodeFrame type payload with
  | .error status => { status := some status, moved := [], left := [], turns }
  | .ok frame => writeAll [] frame turns

/-- What a reception leaves; the type is written with the payload only. -/
structure Arrival where
  status : Option Status := none
  type : Option MessageType := none
  payload : List UInt8 := []
  closed : Bool := false
  left : List UInt8
  turns : List Turn
deriving DecidableEq, Repr

/-- `Socket::recv_frame` on an open socket. -/
def recvFrame (maxPayload : Nat) (left : List UInt8) (turns : List Turn) : Arrival :=
  let header := readExact frameHeaderBytes [] left turns
  match header.status with
  | none => { left := header.left, turns := header.turns }
  | some status =>
  if !status.ok then { status := some status, left := header.left, turns := header.turns }
  else if header.closed then
    { status := some .success, closed := true, left := header.left, turns := header.turns }
  else match Transport.checkHeader header.moved maxPayload with
  | .error status => { status := some status, left := header.left, turns := header.turns }
  | .ok length =>
  let body := readExact (length.toNat + frameTrailerBytes) [] header.left header.turns
  match body.status with
  | none => { left := body.left, turns := body.turns }
  | some status =>
  if !status.ok then { status := some status, left := body.left, turns := body.turns }
  else if body.closed then
    { status := some .success, closed := true, left := body.left, turns := body.turns }
  else match Wire.decodeFrame (header.moved ++ body.moved) maxPayload with
  | .error status => { status := some status, left := body.left, turns := body.turns }
  | .ok view =>
    { status := some .success, type := some view.header.type, payload := view.payload
      left := body.left, turns := body.turns }

/-! ### Ends of the loops -/

/-- The ends of an exact read of `count` bytes out of `data`, with the turns `all`. -/
inductive ReadEnd (count : Nat) (data : List UInt8) (all : List Turn) : Transfer → Prop
  | full (moved left : List UInt8) (turns : List Turn) (hlength : moved.length = count)
      (hdata : moved ++ left = data) :
      ReadEnd count data all { status := some .success, moved, left, turns }
  | closed (turns : List Turn) (hdata : data = []) (hcount : 0 < count) :
      ReadEnd count data all
        { status := some .success, closed := true, moved := [], left := [], turns }
  | cut (turns : List Turn) (hdata : data ≠ []) (hlength : data.length < count) :
      ReadEnd count data all
        { status := some (.refused .truncatedInput (UInt64.ofNat data.length)), moved := data
          left := [], turns }
  | broken (status : Status) (moved left : List UInt8) (turns : List Turn)
      (hrefused : status.ok = false) (hbreaks : ∃ turn ∈ all, turn.breaks = true) :
      ReadEnd count data all { status := some status, moved, left, turns }
  | waiting (moved left : List UInt8) : ReadEnd count data all { moved, left }

/-- The ends of a read that has moved some bytes. -/
private theorem readExactFrom_ends (count : Nat) {turns all : List Turn} (hall : turns ⊆ all)
    {moved left data : List UInt8} (hle : moved.length ≤ count) (hdata : moved ++ left = data) :
    ReadEnd count data all (readExact count moved left turns) := by
  -- induction on the turns, for what has moved and what is left
  induction turns generalizing moved left with
  | nil =>
    unfold readExact
    split_ifs with hshort
    · exact .waiting moved left
    · exact .full moved left [] (by omega) hdata
  | cons turn turns ih =>
    have ih := @ih fun turn' hturn' => hall (List.mem_cons_of_mem turn hturn')
    have hbroken : ∀ {status : Status}, status.ok = false → turn.breaks = true →
        ReadEnd count data all { status := some status, moved, left, turns } :=
      fun hrefused hbreaks =>
        .broken _ moved left turns hrefused ⟨turn, hall List.mem_cons_self, hbreaks⟩
    unfold readExact
    by_cases hshort : moved.length < count
    · rw [if_pos hshort]
      -- three of the turns end the loop, two repeat it, one moves bytes
      cases turn with
      | stopped => exact hbroken rfl rfl
      | expired => exact ih hle hdata
      | unready => exact hbroken rfl rfl
      | wouldBlock => exact ih hle hdata
      | failed => exact hbroken rfl rfl
      | moves more =>
        have hlength : (left.take (min (more + 1) (count - moved.length))).length =
            min (min (more + 1) (count - moved.length)) left.length := List.length_take
        simp only
        split_ifs with hnone hempty
        · -- nothing is left and nothing has been read: a clean close
          obtain rfl : left = [] := List.length_eq_zero_iff.mp (by omega)
          obtain rfl : moved = [] := List.length_eq_zero_iff.mp hempty
          exact .closed turns hdata.symm (by omega)
        · obtain rfl : left = [] := List.length_eq_zero_iff.mp (by omega)
          rw [List.append_nil] at hdata
          subst hdata
          exact .cut turns (fun hnil => hempty (by rw [hnil]; rfl)) hshort
        -- some bytes moved: the rest of the turns read the rest
        · refine ih ?_ ?_
          · rw [List.length_append, hlength]
            omega
          · rw [List.append_assoc, List.prefix_iff_eq_append.mp (List.take_prefix _ _), hdata]
    · rw [if_neg hshort]
      exact .full moved left _ (by omega) hdata

/-- The ends of a read. -/
theorem readExact_ends (count : Nat) {turns all : List Turn} (hall : turns ⊆ all)
    (data : List UInt8) : ReadEnd count data all (readExact count [] data turns) :=
  readExactFrom_ends count hall (Nat.zero_le _) (List.nil_append data)

/-- The turns to come are the last of all. -/
theorem readExact_turns (count : Nat) (turns : List Turn) (moved left : List UInt8) :
    (readExact count moved left turns).turns <:+ turns := by
  induction turns generalizing moved left with
  | nil =>
    unfold readExact
    split_ifs
    · exact List.suffix_rfl
    · exact List.suffix_rfl
  | cons turn turns ih =>
    have hbehind : turns <:+ turn :: turns := List.suffix_cons turn turns
    unfold readExact
    by_cases hshort : moved.length < count
    · rw [if_pos hshort]
      cases turn with
      | stopped | unready | failed => exact hbehind
      | expired | wouldBlock => exact (ih moved left).trans hbehind
      | moves more =>
        simp only
        split_ifs
        · exact hbehind
        · exact hbehind
        · exact (ih _ _).trans hbehind
    · rw [if_neg hshort]

/-- **Progress.**  Each turn that moves bytes takes one at least, up to the end of the stream. -/
theorem readExact_progress (count : Nat) (turns : List Turn) (moved left : List UInt8)
    (hgoes : (readExact count moved left turns).status = none ∨
      (readExact count moved left turns).status = some .success ∧
        (readExact count moved left turns).closed = false) :
    movesOf turns + (readExact count moved left turns).left.length ≤
      left.length + movesOf (readExact count moved left turns).turns := by
  induction turns generalizing moved left with
  | nil =>
    unfold readExact
    split_ifs <;> simp [movesOf]
  | cons turn turns ih =>
    unfold readExact at hgoes ⊢
    by_cases hshort : moved.length < count
    · rw [if_pos hshort] at hgoes ⊢
      cases turn with
      | stopped | unready | failed => simp [Status.refused, Status.success] at hgoes
      | expired | wouldBlock =>
        have hrest := ih moved left hgoes
        simpa [movesOf, Turn.moving] using hrest
      | moves more =>
        have hone : movesOf (.moves more :: turns) = movesOf turns + 1 :=
          List.countP_cons_of_pos rfl
        simp only at hgoes ⊢
        split_ifs at hgoes ⊢ with hnone hempty
        · exact absurd hgoes (by simp)
        · simp [Status.refused, Status.success] at hgoes
        · -- the bytes of this turn, and then those of the others
          have hrest := ih _ _ hgoes
          rw [List.length_drop] at hrest
          have hle : (left.take (min (more + 1) (count - moved.length))).length ≤ left.length := by
            rw [List.length_take]
            exact Nat.min_le_right _ _
          omega
    · rw [if_neg hshort]
      exact Nat.add_comm _ _ |>.le

/-- The ends of a write of `data`. -/
inductive WriteEnd (data : List UInt8) : Transfer → Prop
  | full (turns : List Turn) :
      WriteEnd data { status := some .success, moved := data, left := [], turns }
  | broken (status : Status) (moved left : List UInt8) (turns : List Turn)
      (hrefused : status.ok = false) (hdata : moved ++ left = data) (hleft : left ≠ []) :
      WriteEnd data { status := some status, moved, left, turns }
  | waiting (moved left : List UInt8) (hdata : moved ++ left = data) (hleft : left ≠ []) :
      WriteEnd data { moved, left }

/-- The ends of a write that has moved some bytes. -/
theorem writeAll_ends (turns : List Turn) {moved left data : List UInt8}
    (hdata : moved ++ left = data) : WriteEnd data (writeAll moved left turns) := by
  have hdone : ∀ {left moved : List UInt8} (turns : List Turn), moved ++ left = data →
      left.isEmpty = true → WriteEnd data { status := some .success, moved, left, turns } := by
    intro left moved turns hdata hempty
    obtain rfl := List.isEmpty_iff.mp hempty
    rw [List.append_nil] at hdata
    subst hdata
    exact .full turns
  induction turns generalizing moved left with
  | nil =>
    unfold writeAll
    split_ifs with hempty
    · exact hdone [] hdata hempty
    · exact .waiting moved left hdata (fun hnil => hempty (by rw [hnil]; rfl))
  | cons turn turns ih =>
    unfold writeAll
    by_cases hempty : left.isEmpty = true
    · rw [if_pos hempty]
      exact hdone _ hdata hempty
    have hleft : left ≠ [] := fun hnil => hempty (by rw [hnil]; rfl)
    rw [if_neg hempty]
    cases turn with
    | stopped => exact .broken _ moved left turns rfl hdata hleft
    | expired => exact ih hdata
    | unready => exact .broken _ moved left turns rfl hdata hleft
    | wouldBlock => exact ih hdata
    | failed => exact .broken _ moved left turns rfl hdata hleft
    | moves more =>
      refine ih ?_
      rw [List.append_assoc, List.prefix_iff_eq_append.mp (List.take_prefix _ _), hdata]

/-- The turns to come are the last of all. -/
theorem writeAll_turns (turns : List Turn) (moved left : List UInt8) :
    (writeAll moved left turns).turns <:+ turns := by
  induction turns generalizing moved left with
  | nil =>
    unfold writeAll
    split_ifs
    · exact List.suffix_rfl
    · exact List.suffix_rfl
  | cons turn turns ih =>
    have hbehind : turns <:+ turn :: turns := List.suffix_cons turn turns
    unfold writeAll
    by_cases hempty : left.isEmpty = true
    · rw [if_pos hempty]
    · rw [if_neg hempty]
      cases turn with
      | stopped | unready | failed => exact hbehind
      | expired | wouldBlock => exact (ih moved left).trans hbehind
      | moves more => exact (ih _ _).trans hbehind

/-- A calm write still waits or is successful. -/
theorem writeAll_calm {turns : List Turn} (hcalm : Calm turns) (moved left : List UInt8) :
    (writeAll moved left turns).status = none ∨
      (writeAll moved left turns).status = some .success := by
  induction turns generalizing moved left with
  | nil =>
    unfold writeAll
    split_ifs
    · exact .inr rfl
    · exact .inl rfl
  | cons turn turns ih =>
    have hturn := hcalm turn List.mem_cons_self
    have ih := ih fun turn' hturn' => hcalm turn' (List.mem_cons_of_mem turn hturn')
    unfold writeAll
    by_cases hempty : left.isEmpty = true
    · rw [if_pos hempty]
      exact .inr rfl
    · rw [if_neg hempty]
      cases turn with
      | stopped | unready | failed => exact absurd hturn (by decide)
      | expired | wouldBlock => exact ih moved left
      | moves more => exact ih _ _

/-- Each turn that moves bytes takes one at least, up to the last one. -/
theorem writeAll_progress {turns : List Turn} (hcalm : Calm turns) (moved left : List UInt8) :
    movesOf turns + (writeAll moved left turns).left.length ≤
      left.length + movesOf (writeAll moved left turns).turns := by
  induction turns generalizing moved left with
  | nil =>
    unfold writeAll
    split_ifs <;> simp [movesOf]
  | cons turn turns ih =>
    have hturn := hcalm turn List.mem_cons_self
    have ih := ih fun turn' hturn' => hcalm turn' (List.mem_cons_of_mem turn hturn')
    unfold writeAll
    by_cases hempty : left.isEmpty = true
    · rw [if_pos hempty]
      exact Nat.add_comm _ _ |>.le
    · rw [if_neg hempty]
      cases turn with
      | stopped | unready | failed => exact absurd hturn (by decide)
      | expired | wouldBlock =>
        have hrest := ih moved left
        simpa [movesOf, Turn.moving] using hrest
      | moves more =>
        have hone : movesOf (.moves more :: turns) = movesOf turns + 1 :=
          List.countP_cons_of_pos rfl
        have hpos : 0 < left.length :=
          List.length_pos_iff.mpr fun hnil => hempty (by rw [hnil]; rfl)
        have hrest := ih (moved ++ left.take (more + 1))
          (left.drop (left.take (more + 1)).length)
        rw [List.length_drop, List.length_take] at hrest
        simp only
        rw [List.length_take]
        omega

/-- The same of a frame that is sent. -/
theorem sendFrame_turns (type : MessageType) (payload : List UInt8) (turns : List Turn) :
    (sendFrame type payload turns).turns <:+ turns := by
  unfold sendFrame
  cases encodeFrame type payload with
  | error status => exact List.suffix_rfl
  | ok frame => exact writeAll_turns turns [] frame

/-- A calm frame that is sent still waits or was sent. -/
theorem sendFrame_calm {type : MessageType} {payload : List UInt8} {turns : List Turn}
    (hlt : payload.length ≤ 0xFFFFFFFF) (hcalm : Calm turns) :
    (sendFrame type payload turns).status = none ∨
      (sendFrame type payload turns).status = some .success := by
  unfold sendFrame
  rw [encodeFrame_of_le hlt]
  exact writeAll_calm hcalm [] _

/-! ### Receptions -/

/-- The ends of a reception out of `data`, with the turns `all`. -/
inductive Arrives (maxPayload : Nat) (data : List UInt8) (all : List Turn) : Arrival → Prop
  | frame (type : MessageType) (payload left : List UInt8) (turns : List Turn)
      (hmax : payload.length ≤ maxPayload) (hlt : payload.length ≤ 0xFFFFFFFF)
      (hdata : data = frameBytes type payload ++ left) :
      Arrives maxPayload data all
        { status := some .success, type := some type, payload, left, turns }
  | closed (left : List UInt8) (turns : List Turn)
      (hend : data = [] ∨ Transport.HeaderOnly maxPayload data) :
      Arrives maxPayload data all { status := some .success, closed := true, left, turns }
  | refused (status : Status) (left : List UInt8) (turns : List Turn)
      (hrefused : status.ok = false) (hdata : data ≠ [])
      (hnone : ∀ view, Wire.decodeFrame data maxPayload ≠ .ok view) :
      Arrives maxPayload data all { status := some status, left, turns }
  | broken (status : Status) (left : List UInt8) (turns : List Turn)
      (hrefused : status.ok = false) (hbreaks : ∃ turn ∈ all, turn.breaks = true) :
      Arrives maxPayload data all { status := some status, left, turns }
  | waiting (left : List UInt8) (turns : List Turn) : Arrives maxPayload data all { left, turns }

/-- A reception that neither waits nor is broken is one of the receptions of a stream. -/
theorem Arrives.of_received {maxPayload : Nat} {data : List UInt8} (all : List Turn)
    {r : Transport.Reception} (h : Transport.Received maxPayload data r) (turns : List Turn) :
    Arrives maxPayload data all
      { status := some r.status, type := r.type, payload := r.payload, closed := r.closed
        left := r.stream.flatten, turns } := by
  -- what the in-memory transport refuses, the decoder does not accept
  have hrefuse : r.status.ok = false →
      data ≠ [] ∧ ∀ view, Wire.decodeFrame data maxPayload ≠ .ok view := by
    intro hrefused
    have hagrees := h.agrees fun hheader => by
      rw [(h.closed_of_headerOnly hheader).2] at hrefused
      exact absurd hrefused (by decide)
    refine ⟨fun hnil => ?_, fun view hview => ?_⟩
    · rw [hagrees.ended hnil] at hrefused
      exact absurd hrefused (by decide)
    · rw [(hagrees.accepted view hview).1] at hrefused
      exact absurd hrefused (by decide)
  cases h with
  | empty stream hdata => exact .closed _ turns (.inl hdata)
  | headerOnly stream length hlength hcheck =>
    exact .closed _ turns (.inr ⟨hlength, length, hcheck⟩)
  | cutHeader status stream _ _ hrefused =>
    exact .refused status _ turns hrefused (hrefuse hrefused).1 (hrefuse hrefused).2
  | badHeader status stream _ hrefused _ =>
    exact .refused status _ turns hrefused (hrefuse hrefused).1 (hrefuse hrefused).2
  | cutBody status stream _ _ _ _ hrefused =>
    exact .refused status _ turns hrefused (hrefuse hrefused).1 (hrefuse hrefused).2
  | badFrame status stream _ _ _ _ hrefused =>
    exact .refused status _ turns hrefused (hrefuse hrefused).1 (hrefuse hrefused).2
  -- the frame, cut out of the bytes by the length in its header
  | frame view stream length hlength hcheck hframe hstream =>
    have hwhole := Transport.decodeFrame_append hframe (data.drop (16 + length.toNat))
    rw [List.take_append_drop] at hwhole
    obtain ⟨length', hcheck', -, hconsumed, -⟩ := Transport.accepted_frame hwhole
    rw [hcheck, Except.ok.injEq] at hcheck'
    obtain ⟨type, payload, rest, hmax, hlt, hdata, rfl⟩ := decodeFrame_eq_ok.mp hwhole
    refine .frame type payload _ turns hmax hlt ?_
    have hsize : 16 + length.toNat = (frameBytes type payload).length := by
      rw [hcheck', ← hconsumed, length_frameBytes]
      rfl
    rw [hstream, hdata, hsize, List.drop_left]

/-- **One reception.**  Whatever the turns, it ends in one of these ways. -/
theorem recvFrame_arrives (maxPayload : Nat) (data : List UInt8) (turns : List Turn) :
    Arrives maxPayload data turns (recvFrame maxPayload data turns) := by
  have hheader := readExact_ends 12 (List.Subset.refl turns) data
  have hturns := readExact_turns 12 turns [] data
  -- every end but a broken stream is one of the in-memory transport
  have hof : ∀ {status : Status} {type : Option MessageType} {payload left : List UInt8}
      {closed : Bool} {rest : List Turn},
      Transport.Received maxPayload data { status, type, payload, closed, stream := [left] } →
      Arrives maxPayload data turns
        { status := some status, type, payload, closed, left, turns := rest } := by
    intro status type payload left closed rest h
    have harrives := Arrives.of_received turns h rest
    rwa [List.flatten_singleton] at harrives
  unfold recvFrame
  rw [show frameHeaderBytes = 12 from rfl, show frameTrailerBytes = 4 from rfl]
  simp only
  generalize readExact 12 [] data turns = header at hheader hturns ⊢
  -- the first read, of the header
  cases hheader with
  | closed rest hdata => exact hof (.empty _ hdata)
  | cut rest hdata hlength => exact hof (.cutHeader _ _ hdata hlength rfl)
  | broken status moved left rest hrefused hbreaks =>
    simp only [hrefused, Bool.not_false, if_true]
    exact .broken status left rest hrefused hbreaks
  | waiting moved left => exact .waiting left []
  | full moved left rest hlength hdata =>
  subst hdata
  have htake : (moved ++ left).take 12 = moved := List.take_left' hlength
  have hlong : (moved ++ left).length = 12 + left.length := by
    rw [List.length_append, hlength]
  simp only [Status.ok_success, Bool.not_true, Bool.false_eq_true, if_false]
  cases hcheck : Transport.checkHeader moved maxPayload with
  | error status =>
    exact hof (.badHeader _ _ (by omega) (Transport.checkHeader_refuses hcheck)
      (by rw [htake, hcheck]))
  | ok length =>
  have hbody := readExact_ends (length.toNat + 4) hturns.subset left
  simp only
  generalize readExact (length.toNat + 4) [] left rest = body at hbody ⊢
  -- the second read, of the payload and its checksum
  cases hbody with
  | closed rest' hleft =>
    subst hleft
    rw [List.append_nil] at hof ⊢
    exact hof (.headerOnly _ length hlength hcheck)
  | cut rest' hleft hshort =>
    have hpos : 0 < left.length := List.length_pos_iff.mpr hleft
    exact hof (.cutBody _ _ length (by omega) (by omega) (by rw [htake, hcheck]) rfl)
  | broken status moved' left' rest' hrefused hbreaks =>
    simp only [hrefused, Bool.not_false, if_true]
    exact .broken status left' rest' hrefused hbreaks
  | waiting moved' left' => exact .waiting left' []
  | full moved' left' rest' hlength' hdata' =>
    subst hdata'
    have hsize : (moved ++ moved').length = 16 + length.toNat := by
      rw [List.length_append]
      omega
    have hall : 16 + length.toNat ≤ (moved ++ (moved' ++ left')).length := by
      rw [← List.append_assoc, List.length_append]
      omega
    have hframe : (moved ++ (moved' ++ left')).take (16 + length.toNat) = moved ++ moved' := by
      rw [← List.append_assoc]
      exact List.take_left' hsize
    have hrest : (moved ++ (moved' ++ left')).drop (16 + length.toNat) = left' := by
      rw [← List.append_assoc]
      exact List.drop_left' hsize
    simp only [Status.ok_success, Bool.not_true, Bool.false_eq_true, if_false]
    -- the decoder sees the whole frame once more
    cases hdecode : Wire.decodeFrame (moved ++ moved') maxPayload with
    | error status =>
      exact hof (.badFrame _ _ length hall (by rw [htake, hcheck]) (by rw [hframe, hdecode])
        (Transport.decodeFrame_refuses hdecode))
    | ok view =>
      exact hof (.frame view _ length hall (by rw [htake, hcheck]) (by rw [hframe, hdecode])
        (by rw [List.flatten_singleton, hrest]))

/-! ### Conversations -/

/-- A frame as it is sent. -/
abbrev Sent := MessageType × List UInt8

/-- The bytes of frames one behind the other. -/
def bytesOf (frames : List Sent) : List UInt8 :=
  (frames.map fun frame => frameBytes frame.1 frame.2).flatten

/-- No frames. -/
@[simp] theorem bytesOf_nil : bytesOf [] = [] := rfl

/-- A frame in front of others. -/
@[simp] theorem bytesOf_cons (frame : Sent) (frames : List Sent) :
    bytesOf (frame :: frames) = frameBytes frame.1 frame.2 ++ bytesOf frames := rfl

/-- Frames in front of others. -/
private theorem bytesOf_append (frames more : List Sent) :
    bytesOf (frames ++ more) = bytesOf frames ++ bytesOf more := by
  unfold bytesOf
  rw [List.map_append, List.flatten_append]

/-- A frame behind others. -/
theorem bytesOf_concat (frames : List Sent) (frame : Sent) :
    bytesOf (frames ++ [frame]) = bytesOf frames ++ frameBytes frame.1 frame.2 := by
  rw [bytesOf_append, bytesOf_cons, bytesOf_nil, List.append_nil]

/-- What comes of frames sent one behind the other: the status of the last call, the bytes the
    kernel has taken, and how many frames it has taken whole. -/
structure Sending where
  status : Option Status := some .success
  bytes : List UInt8 := []
  whole : Nat := 0

/-- Frames sent one behind the other, up to the first that fails. -/
def sendFrames : List Sent → List Turn → Sending
  | [], _ => {}
  | frame :: later, turns =>
    let transfer := sendFrame frame.1 frame.2 turns
    if transfer.status = some .success then
      let rest := sendFrames later transfer.turns
      { rest with bytes := transfer.moved ++ rest.bytes, whole := rest.whole + 1 }
    else { status := transfer.status, bytes := transfer.moved }

/-- Frames received one behind the other, up to the first reception that is none. -/
inductive Receives (maxPayload : Nat) :
    List UInt8 → List Turn → List Sent → Arrival → Prop
  | last {data : List UInt8} {turns : List Turn}
      (h : (recvFrame maxPayload data turns).type = none) :
      Receives maxPayload data turns [] (recvFrame maxPayload data turns)
  | frame {data : List UInt8} {turns : List Turn} {type : MessageType} {frames : List Sent}
      {last : Arrival} (h : (recvFrame maxPayload data turns).type = some type)
      (rest : Receives maxPayload (recvFrame maxPayload data turns).left
        (recvFrame maxPayload data turns).turns frames last) :
      Receives maxPayload data turns ((type, (recvFrame maxPayload data turns).payload) :: frames)
        last

/-- The ends of a frame that is sent. -/
inductive SendEnd (frame : Sent) : Transfer → Prop
  | whole (turns : List Turn) (hlt : frame.2.length ≤ 0xFFFFFFFF) :
      SendEnd frame
        { status := some .success, moved := frameBytes frame.1 frame.2, left := [], turns }
  | cut (status : Option Status) (moved left : List UInt8) (turns : List Turn)
      (hstatus : ∀ s, status = some s → s.ok = false)
      (hlt : moved ≠ [] → frame.2.length ≤ 0xFFFFFFFF)
      (hmoved : moved ≠ [] → ∃ rest, rest ≠ [] ∧ moved ++ rest = frameBytes frame.1 frame.2) :
      SendEnd frame { status, moved, left, turns }

/-- A frame is sent whole, or a piece of it is. -/
theorem sendFrame_ends (frame : Sent) (turns : List Turn) :
    SendEnd frame (sendFrame frame.1 frame.2 turns) := by
  have hrefused : ∀ {status : Status}, status.ok = false →
      ∀ s, some status = some s → s.ok = false := by
    rintro status hfalse s heq
    rwa [← Option.some.inj heq]
  unfold sendFrame
  by_cases hlt : frame.2.length ≤ 0xFFFFFFFF
  · rw [encodeFrame_of_le hlt]
    have hends := writeAll_ends turns (List.nil_append (frameBytes frame.1 frame.2))
    simp only
    generalize writeAll [] (frameBytes frame.1 frame.2) turns = transfer at hends ⊢
    cases hends with
    | full rest => exact .whole rest hlt
    | broken status moved left rest hfalse hdata hleft =>
      exact .cut _ moved left rest (hrefused hfalse) (fun _ => hlt) fun _ => ⟨left, hleft, hdata⟩
    | waiting moved left hdata hleft =>
      exact .cut _ moved left [] nofun (fun _ => hlt) fun _ => ⟨left, hleft, hdata⟩
  · unfold encodeFrame
    rw [if_pos (by omega)]
    exact .cut _ [] [] turns (hrefused rfl) (by simp) (by simp)

/-- What has been sent: frames that were sent whole, and a piece of the next one. -/
inductive Cut (later : List Sent) : List UInt8 → Prop
  | none : Cut later []
  | piece (frame : Sent) (behind : List Sent) (hlater : later = frame :: behind)
      (bytes rest : List UInt8) (hrest : rest ≠ []) (hlt : frame.2.length ≤ 0xFFFFFFFF)
      (hbytes : bytes ++ rest = frameBytes frame.1 frame.2) : Cut later bytes

/-- What a transmission that is cut short has moved. -/
theorem Cut.of_moved {frame : Sent} {moved : List UInt8}
    (hlt : moved ≠ [] → frame.2.length ≤ 0xFFFFFFFF)
    (hmoved : moved ≠ [] → ∃ rest, rest ≠ [] ∧ moved ++ rest = frameBytes frame.1 frame.2)
    (behind : List Sent) : Cut (frame :: behind) moved := by
  by_cases hnil : moved = []
  · rw [hnil]
    exact .none
  · obtain ⟨rest, hrest, hbytes⟩ := hmoved hnil
    exact .piece frame behind rfl moved rest hrest (hlt hnil) hbytes

/-- **Transmissions.**  Some frames were sent whole and at most a piece of the next. -/
theorem sendFrames_sends (frames : List Sent) (turns : List Turn) : ∃ whole later cut,
    frames = whole ++ later ∧ (sendFrames frames turns).whole = whole.length ∧
      (sendFrames frames turns).bytes = bytesOf whole ++ cut ∧ Cut later cut ∧
      (∀ frame ∈ whole, frame.2.length ≤ 0xFFFFFFFF) ∧
      ((sendFrames frames turns).status = some .success ↔ later = []) := by
  induction frames generalizing turns with
  | nil => exact ⟨[], [], [], rfl, rfl, rfl, .none, by simp, by simp [sendFrames]⟩
  | cons frame frames ih =>
    have hends := sendFrame_ends frame turns
    unfold sendFrames
    simp only
    generalize sendFrame frame.1 frame.2 turns = transfer at hends ⊢
    cases hends with
    | whole rest hlt =>
      obtain ⟨whole, later, cut, hframes, hcount, hbytes, hcut, hfits, hstatus⟩ := ih rest
      rw [if_pos rfl]
      refine ⟨frame :: whole, later, cut, ?_, ?_, ?_, hcut, ?_, hstatus⟩
      · rw [hframes, List.cons_append]
      · rw [hcount, List.length_cons]
      · rw [hbytes, bytesOf_cons, List.append_assoc]
      · intro frame' hframe'
        rcases List.mem_cons.mp hframe' with rfl | hframe'
        · exact hlt
        · exact hfits frame' hframe'
    | cut status moved left rest hrefused hlt hmoved =>
      have hstatus : status ≠ some .success := fun h => absurd (hrefused _ h) (by decide)
      rw [if_neg hstatus]
      exact ⟨[], frame :: frames, moved, rfl, rfl, rfl, .of_moved hlt hmoved frames, by simp,
        by simp [hstatus]⟩

/-- A frame that a calm sender has turns enough for is sent whole, and it takes no more turns that
    move bytes than it has bytes. -/
theorem sendFrame_progress {frame : Sent} {turns : List Turn} (hlt : frame.2.length ≤ 0xFFFFFFFF)
    (hcalm : Calm turns) (hmoves : (frameBytes frame.1 frame.2).length ≤ movesOf turns) :
    (sendFrame frame.1 frame.2 turns).status = some .success ∧
      movesOf turns ≤ (frameBytes frame.1 frame.2).length +
        movesOf (sendFrame frame.1 frame.2 turns).turns := by
  have hends := writeAll_ends turns (List.nil_append (frameBytes frame.1 frame.2))
  have hstatus := writeAll_calm hcalm [] (frameBytes frame.1 frame.2)
  have hprogress := writeAll_progress hcalm [] (frameBytes frame.1 frame.2)
  unfold sendFrame
  rw [encodeFrame_of_le hlt]
  simp only
  generalize writeAll [] (frameBytes frame.1 frame.2) turns = transfer
    at hends hstatus hprogress ⊢
  cases hends with
  | full rest => exact ⟨rfl, hprogress⟩
  | broken status moved left rest hrefused =>
    obtain hnone | hsuccess := hstatus
    · exact absurd hnone (by simp)
    · rw [Option.some.inj hsuccess] at hrefused
      exact absurd hrefused (by decide)
  | waiting moved left hdata hleft =>
    -- it has met all its turns and some bytes are left
    have hpos := List.length_pos_iff.mpr hleft
    have hnone : movesOf [] = 0 := rfl
    simp only at hprogress
    omega

/-- **Progress.**  A calm sender sends all its frames in turns enough. -/
theorem sendFrames_progress (frames : List Sent) (turns : List Turn)
    (hfits : ∀ frame ∈ frames, frame.2.length ≤ 0xFFFFFFFF) (hcalm : Calm turns)
    (hmoves : (bytesOf frames).length ≤ movesOf turns) :
    (sendFrames frames turns).status = some .success ∧
      (sendFrames frames turns).whole = frames.length := by
  induction frames generalizing turns with
  | nil => exact ⟨rfl, rfl⟩
  | cons frame frames ih =>
    rw [bytesOf_cons, List.length_append] at hmoves
    obtain ⟨hstatus, htaken⟩ :=
      sendFrame_progress (hfits frame List.mem_cons_self) hcalm (by omega)
    obtain ⟨hall, hcount⟩ := ih (sendFrame frame.1 frame.2 turns).turns
      (fun f hf => hfits f (List.mem_cons_of_mem frame hf))
      (hcalm.of_suffix (sendFrame_turns frame.1 frame.2 turns)) (by omega)
    unfold sendFrames
    simp only
    rw [if_pos hstatus]
    exact ⟨hall, by rw [hcount, List.length_cons]⟩

/-- A byte string starts with at most one frame. -/
theorem frameBytes_inj {type type' : MessageType} {payload payload' rest rest' : List UInt8}
    (hlt : payload.length ≤ 0xFFFFFFFF) (hlt' : payload'.length ≤ 0xFFFFFFFF)
    (h : frameBytes type payload ++ rest = frameBytes type' payload' ++ rest') :
    (type, payload) = (type', payload') ∧ rest = rest' := by
  have hview := @decodeFrame_frameBytes type payload _ hlt hlt rest
  rw [h, decodeFrame_frameBytes hlt' hlt', Except.ok.injEq, frameView, frameView,
    FrameView.mk.injEq, FrameHeader.mk.injEq] at hview
  obtain ⟨⟨-, rfl, -, -⟩, rfl, -⟩ := hview
  exact ⟨rfl, List.append_cancel_left h⟩

/-- No frame lies in front of a piece of one. -/
theorem Cut.frameless {later : List Sent} {cut : List UInt8} (h : Cut later cut)
    {type : MessageType} {payload left : List UInt8} (hlt : payload.length ≤ 0xFFFFFFFF) :
    cut ≠ frameBytes type payload ++ left := by
  intro heq
  cases h with
  | none =>
    have hlength := congrArg List.length heq
    rw [List.length_append, length_frameBytes, List.length_nil] at hlength
    omega
  | piece frame behind _ _ rest hrest hlt' hbytes =>
    rw [heq, List.append_assoc, ← List.append_nil (frameBytes frame.1 frame.2)] at hbytes
    obtain ⟨-, hnil⟩ := frameBytes_inj hlt hlt' hbytes
    exact hrest (List.append_eq_nil_iff.mp hnil).2

/-- The turns to come are the last of all. -/
theorem recvFrame_turns (maxPayload : Nat) (data : List UInt8) (turns : List Turn) :
    (recvFrame maxPayload data turns).turns <:+ turns := by
  have hheader := readExact_turns frameHeaderBytes turns [] data
  unfold recvFrame
  simp only
  generalize readExact frameHeaderBytes [] data turns = header at hheader ⊢
  obtain ⟨status, closed, moved, left, rest⟩ := header
  simp only at hheader ⊢
  cases status with
  | none => exact hheader
  | some status =>
  simp only
  split_ifs
  · exact hheader
  · exact hheader
  cases Transport.checkHeader moved maxPayload with
  | error status => exact hheader
  | ok length =>
  have hbody := (readExact_turns (length.toNat + frameTrailerBytes) rest [] left).trans hheader
  simp only
  generalize readExact (length.toNat + frameTrailerBytes) [] left rest = body at hbody ⊢
  obtain ⟨status', closed', moved', left', rest'⟩ := body
  simp only at hbody ⊢
  cases status' with
  | none => exact hbody
  | some status' =>
  simp only
  split_ifs
  · exact hbody
  · exact hbody
  cases Wire.decodeFrame (moved ++ moved') maxPayload with
  | error status => exact hbody
  | ok view => exact hbody

/-- A reception that still waits or has received a frame has taken a byte at each turn that
    moves bytes, and one that waits has met all its turns. -/
theorem recvFrame_progress (maxPayload : Nat) (data : List UInt8) (turns : List Turn)
    (hgoes : (recvFrame maxPayload data turns).status = none ∨
      (recvFrame maxPayload data turns).type.isSome = true) :
    movesOf turns + (recvFrame maxPayload data turns).left.length ≤
        data.length + movesOf (recvFrame maxPayload data turns).turns ∧
      ((recvFrame maxPayload data turns).status = none →
        (recvFrame maxPayload data turns).turns = []) := by
  have hends := readExact_ends frameHeaderBytes (List.Subset.refl turns) data
  have hheader := readExact_progress frameHeaderBytes turns [] data
  unfold recvFrame at hgoes ⊢
  simp only at hgoes ⊢
  generalize readExact frameHeaderBytes [] data turns = header at hends hheader hgoes ⊢
  cases hends with
  | closed => exact absurd hgoes (by simp)
  | cut => exact absurd hgoes (by simp)
  | broken status moved left rest hrefused =>
    simp only [hrefused, Bool.not_false, if_true] at hgoes
    exact absurd hgoes (by simp)
  | waiting moved left => exact ⟨hheader (.inl rfl), fun _ => rfl⟩
  | full moved left rest =>
  have hheader := hheader (.inr ⟨rfl, rfl⟩)
  simp only [Status.ok_success, Bool.not_true, Bool.false_eq_true, if_false] at hgoes ⊢
  cases hcheck : Transport.checkHeader moved maxPayload with
  | error status =>
    rw [hcheck] at hgoes
    exact absurd hgoes (by simp)
  | ok length =>
  rw [hcheck] at hgoes
  -- the second read goes on where the first has ended
  have hends := readExact_ends (length.toNat + frameTrailerBytes) (List.Subset.refl rest) left
  have hbody := readExact_progress (length.toNat + frameTrailerBytes) rest [] left
  simp only at hgoes ⊢
  generalize readExact (length.toNat + frameTrailerBytes) [] left rest = body
    at hends hbody hgoes ⊢
  cases hends with
  | closed => exact absurd hgoes (by simp)
  | cut => exact absurd hgoes (by simp)
  | broken status moved' left' rest' hrefused =>
    simp only [hrefused, Bool.not_false, if_true] at hgoes
    exact absurd hgoes (by simp)
  | waiting moved' left' =>
    have hbody := hbody (.inl rfl)
    simp only at hbody hheader ⊢
    exact ⟨by omega, fun _ => trivial⟩
  | full moved' left' rest' =>
    have hbody := hbody (.inr ⟨rfl, rfl⟩)
    simp only [Status.ok_success, Bool.not_true, Bool.false_eq_true, if_false] at hgoes ⊢
    cases hdecode : Wire.decodeFrame (moved ++ moved') maxPayload with
    | error status =>
      rw [hdecode] at hgoes
      exact absurd hgoes (by simp)
    | ok view =>
      simp only at hbody hheader ⊢
      exact ⟨by omega, fun hnone => absurd hnone (by simp)⟩

/-- Receptions that end in one that waits have met no more turns that move bytes than there are
    bytes. -/
theorem Receives.moves_le {maxPayload : Nat} {data : List UInt8} {turns : List Turn}
    {received : List Sent} {last : Arrival} (h : Receives maxPayload data turns received last)
    (hwaits : last.status = none) : movesOf turns ≤ data.length := by
  induction h with
  | @last data turns hnone =>
    obtain ⟨hle, hmet⟩ := recvFrame_progress maxPayload data turns (.inl hwaits)
    rw [hmet hwaits, show movesOf [] = 0 from rfl] at hle
    omega
  | @frame data turns type frames last hsome rest ih =>
    have hle := (recvFrame_progress maxPayload data turns (.inr (by rw [hsome]; exact rfl))).1
    have hrest := ih hwaits
    omega

/-- Receptions come to a last one: each frame takes bytes. -/
theorem exists_receives (maxPayload : Nat) (data : List UInt8) (turns : List Turn) :
    ∃ received last, Receives maxPayload data turns received last := by
  induction hlength : data.length using Nat.strong_induction_on generalizing data turns with
  | _ n ih =>
  have harrives := recvFrame_arrives maxPayload data turns
  cases hsome : (recvFrame maxPayload data turns).type with
  | none => exact ⟨[], _, .last hsome⟩
  | some type =>
    have hless : (recvFrame maxPayload data turns).left.length < n := by
      generalize recvFrame maxPayload data turns = arrival at harrives hsome
      cases harrives with
      | closed => exact absurd hsome (by simp)
      | refused => exact absurd hsome (by simp)
      | broken => exact absurd hsome (by simp)
      | waiting => exact absurd hsome (by simp)
      | frame type' payload left rest hmax hlt hframe =>
        rw [← hlength, hframe, List.length_append, length_frameBytes]
        show left.length < _
        omega
    obtain ⟨received, last, hrest⟩ := ih _ hless _ (recvFrame maxPayload data turns).turns rfl
    exact ⟨_, last, .frame hsome hrest⟩

/-- **Receptions.**  The frames received are the first of those that were sent whole, and all of
    these when the receiver is neither interrupted nor waits. -/
theorem Receives.of_sent (frames : List Sent) (turns : List Turn) {maxPayload : Nat}
    {turns' : List Turn} {received : List Sent} {last : Arrival}
    (h : Receives maxPayload (sendFrames frames turns).bytes turns' received last) :
    received <+: frames.take (sendFrames frames turns).whole ∧
      ((∀ frame ∈ frames, frame.2.length ≤ maxPayload) →
        Calm turns' → last.status ≠ none →
        received = frames.take (sendFrames frames turns).whole ∧
          ((sendFrames frames turns).status = some .success → last.closed = true)) := by
  obtain ⟨whole, later, cut, hframes, hcount, hbytes, hcut, hfits, hstatus⟩ :=
    sendFrames_sends frames turns
  rw [hbytes] at h
  rw [hcount, hframes, List.take_left, ← hframes, hstatus]
  -- when every frame was sent whole, no piece of another follows
  have hdone : later = [] → cut = [] := by
    rintro rfl
    cases hcut with
    | none => rfl
    | piece _ _ hlater => exact absurd hlater (by simp)
  have hmem : ∀ frame ∈ whole, frame ∈ whole ++ later :=
    fun frame hframe => List.mem_append_left later hframe
  rw [← hframes] at hmem
  clear hframes hcount hbytes hstatus
  generalize hdata : bytesOf whole ++ cut = data at h
  -- induction on the receptions, for whatever of the stream is left
  induction h generalizing whole with
  -- no frame came: nothing is left to come, or the reception has not ended
  | @last data turns' hnone =>
    refine ⟨List.nil_prefix, fun hfit hcalm hwaits => ?_⟩
    have harrives := recvFrame_arrives maxPayload data turns'
    generalize recvFrame maxPayload data turns' = arrival at hnone hwaits harrives ⊢
    cases whole with
    | nil =>
      refine ⟨rfl, fun hlater => ?_⟩
      have hnil : data = [] := hdata.symm.trans (hdone hlater)
      cases harrives with
      | frame => exact absurd hnone (by simp)
      | closed => rfl
      | refused _ _ _ _ hsome => exact absurd hnil hsome
      | broken _ _ _ _ hbreaks =>
        obtain ⟨turn, hturn, hbreak⟩ := hbreaks
        rw [hcalm turn hturn] at hbreak
        exact absurd hbreak (by decide)
      | waiting => exact absurd rfl hwaits
    | cons frame whole =>
    -- a whole frame is left, so a reception that ends brings it
    exfalso
    rw [bytesOf_cons, List.append_assoc] at hdata
    cases harrives with
    | frame => exact absurd hnone (by simp)
    | closed left rest hend =>
      have hlength := congrArg List.length hdata
      rw [List.length_append, length_frameBytes] at hlength
      rcases hend with hnil | hheader
      · rw [hnil, List.length_nil] at hlength
        omega
      · rw [hheader.1] at hlength
        omega
    | refused status left rest _ _ hnone' =>
      refine hnone' (frameView frame.1 frame.2) ?_
      rw [← hdata]
      exact decodeFrame_frameBytes (hfit frame (hmem frame List.mem_cons_self))
        (hfits frame List.mem_cons_self) _
    | broken status left rest _ hbreaks =>
      obtain ⟨turn, hturn, hbreak⟩ := hbreaks
      rw [hcalm turn hturn] at hbreak
      exact absurd hbreak (by decide)
    | waiting => exact absurd rfl hwaits
  -- a frame came: it is the first that was sent, and the others follow
  | @frame data turns' type frames' last hsome rest ih =>
    have harrives := recvFrame_arrives maxPayload data turns'
    have hturns := (recvFrame_turns maxPayload data turns').subset
    generalize recvFrame maxPayload data turns' = arrival at hsome harrives hturns ih ⊢
    cases harrives with
    | closed => exact absurd hsome (by simp)
    | refused => exact absurd hsome (by simp)
    | broken => exact absurd hsome (by simp)
    | waiting => exact absurd hsome (by simp)
    | frame type' payload left rest' hmax hlt hframe =>
    obtain rfl : type' = type := Option.some.inj hsome
    cases whole with
    | nil => exact absurd (hdata.trans hframe) (hcut.frameless hlt)
    | cons frame whole =>
      rw [bytesOf_cons, List.append_assoc, hframe] at hdata
      obtain ⟨hsame, hleft⟩ := frameBytes_inj (hfits frame List.mem_cons_self) hlt hdata
      have hih := ih whole (fun f hf => hfits f (List.mem_cons_of_mem frame hf))
        (fun f hf => hmem f (List.mem_cons_of_mem frame hf)) hleft
      obtain rfl : frame = (type', payload) := hsame
      refine ⟨(List.prefix_cons_inj _).mpr hih.1, fun hfit hcalm hwaits => ?_⟩
      obtain ⟨hall, hclosed⟩ := hih.2 hfit (fun turn hturn => hcalm turn (hturns hturn)) hwaits
      exact ⟨by rw [hall], hclosed⟩

/-- **Frames are delivered.**  Whatever pieces the kernel takes from the sender and hands to the
    receiver, and wherever either is interrupted, the receiver comes to a last reception, and the
    frames received are the first of those that were sent whole.  A sender that is not
    interrupted has sent all its frames whole once the kernel has moved bytes as often as there
    are bytes to send.  A receiver that is not interrupted, and whose bound each frame fits, has
    received all that were sent whole once the kernel has moved bytes once more than there are
    bytes; behind frames that were all sent it has found the connection closed. -/
theorem frames_delivered (frames : List Sent) (turns : List Turn) (maxPayload : Nat)
    (turns' : List Turn) :
    ((∀ frame ∈ frames, frame.2.length ≤ 0xFFFFFFFF) → Calm turns →
      (bytesOf frames).length ≤ movesOf turns →
      (sendFrames frames turns).status = some .success ∧
        (sendFrames frames turns).whole = frames.length) ∧
    (∃ received last,
      Receives maxPayload (sendFrames frames turns).bytes turns' received last) ∧
    ∀ received last, Receives maxPayload (sendFrames frames turns).bytes turns' received last →
      received <+: frames.take (sendFrames frames turns).whole ∧
        ((∀ frame ∈ frames, frame.2.length ≤ maxPayload) → Calm turns' →
          (sendFrames frames turns).bytes.length < movesOf turns' →
          received = frames.take (sendFrames frames turns).whole ∧
            ((sendFrames frames turns).status = some .success → last.closed = true)) := by
  refine ⟨sendFrames_progress frames turns, exists_receives maxPayload _ turns',
    fun received last h => ?_⟩
  obtain ⟨hfront, hall⟩ := h.of_sent frames turns
  refine ⟨hfront, fun hfit hcalm hmoves => hall hfit hcalm fun hwaits => ?_⟩
  exact Nat.not_lt.mpr (h.moves_le hwaits) hmoves

namespace SentInPieces

/-- Two frames with a payload and one without. -/
def frames : List Sent := [(.hello, [1, 2, 3]), (.request, [7, 8]), (.bye, [])]

/-- The kernel takes a byte a turn from the sender, and has no room at first. -/
def sending : List Turn := .wouldBlock :: List.replicate 53 (.moves 0)

/-- The receiver is handed a byte a turn, and finds the end of the stream. -/
def receiving : List Turn := .expired :: List.replicate 54 (.moves 0)

/-- There are 53 bytes to send. -/
theorem length_bytes : (bytesOf frames).length = 53 := by
  decide +kernel

/-- Nothing interrupts the sender. -/
theorem calm_sending : Calm sending := by
  unfold Calm
  decide

/-- Nothing interrupts the receiver. -/
private theorem calm_receiving : Calm receiving := by
  unfold Calm
  decide

/-- All three frames are received, and then the end of the stream. -/
theorem pieces_delivered :
    ∃ last, Receives 64 (sendFrames frames sending).bytes receiving frames last ∧
      last.closed = true := by
  obtain ⟨hsender, ⟨received, last, hreceives⟩, hreceiver⟩ :=
    frames_delivered frames sending 64 receiving
  obtain ⟨hsuccess, hwhole⟩ := hsender (by decide) calm_sending (by rw [length_bytes]; decide)
  have hbytes : (sendFrames frames sending).bytes.length = 53 := by
    decide +kernel
  obtain ⟨-, hall⟩ := hreceiver received last hreceives
  obtain ⟨hreceived, hclosed⟩ := hall (by decide) calm_receiving (by rw [hbytes]; decide)
  rw [hwhole, List.take_length] at hreceived
  rw [hreceived] at hreceives
  exact ⟨last, hreceives, hclosed hsuccess⟩

end SentInPieces

/-! ### Turns that move whole pieces -/

/-- Bytes that the kernel moves at one turn. -/
theorem readExact_piece {data : List UInt8} (hdata : data ≠ []) {more : Nat}
    (hmore : data.length ≤ more + 1) (left : List UInt8) (turns : List Turn) :
    readExact data.length [] (data ++ left) (.moves more :: turns) =
      { status := some .success, moved := data, left, turns } := by
  have hpos := List.length_pos_iff.mpr hdata
  have htake : (data ++ left).take (min (more + 1) data.length) = data := by
    rw [Nat.min_eq_right hmore]
    exact List.take_left
  unfold readExact
  rw [List.length_nil, if_pos hpos, Nat.sub_zero]
  simp only
  rw [htake, if_neg (by omega), List.drop_left, List.nil_append]
  cases turns with
  | nil =>
    unfold readExact
    rw [if_neg (Nat.lt_irrefl _)]
  | cons turn turns =>
    unfold readExact
    rw [if_neg (Nat.lt_irrefl _)]

/-- A frame whose header and body the kernel moves at one turn each. -/
theorem recvFrame_piece {type : MessageType} {payload : List UInt8} {maxPayload : Nat}
    (hmax : payload.length ≤ maxPayload) (hlt : payload.length ≤ 0xFFFFFFFF) {more : Nat}
    (hmore : 16 + payload.length ≤ more + 1) (left : List UInt8) (turns : List Turn) :
    recvFrame maxPayload (frameBytes type payload ++ left)
        (.moves more :: .moves more :: turns) =
      { status := some .success, type := some type, payload, left, turns } := by
  have hlength := length_frameBytes type payload
  have hview := @decodeFrame_frameBytes type payload maxPayload hmax hlt []
  rw [List.append_nil] at hview
  -- the reader's length is the payload's
  obtain ⟨length, hcheck, -, hconsumed, -⟩ := Transport.accepted_frame hview
  have hcount : (frameBytes type payload).length = 16 + length.toNat := by
    rw [← hconsumed, hlength]
    rfl
  have hsplit := List.take_append_drop 12 (frameBytes type payload)
  have hheader : ((frameBytes type payload).take 12).length = frameHeaderBytes := by
    rw [List.length_take, hlength]
    exact Nat.min_eq_left (by omega)
  have hbody : ((frameBytes type payload).drop 12).length =
      length.toNat + frameTrailerBytes := by
    rw [List.length_drop, hcount, show frameTrailerBytes = 4 from rfl]
    omega
  generalize (frameBytes type payload).take 12 = header at hcheck hsplit hheader
  generalize (frameBytes type payload).drop 12 = body at hsplit hbody
  rw [← hsplit] at hview hlength ⊢
  rw [List.length_append] at hlength
  -- two turns, each of which moves all that is asked for
  unfold recvFrame
  rw [List.append_assoc, ← hheader,
    readExact_piece (List.ne_nil_of_length_pos (by rw [hheader]; decide)) (by omega)]
  simp only [Status.ok_success, Bool.not_true, Bool.false_eq_true, if_false]
  rw [hcheck]
  simp only
  rw [← hbody, readExact_piece
    (List.ne_nil_of_length_pos (by rw [hbody, show frameTrailerBytes = 4 from rfl]; omega))
    (by omega)]
  simp only [Status.ok_success, Bool.not_true, Bool.false_eq_true, if_false]
  rw [hview]
  rfl

/-- A frame that the kernel takes at one turn. -/
theorem sendFrame_piece {type : MessageType} {payload : List UInt8}
    (hlt : payload.length ≤ 0xFFFFFFFF) {more : Nat} (hmore : 16 + payload.length ≤ more + 1)
    (turns : List Turn) :
    sendFrame type payload (.moves more :: turns) =
      { status := some .success, moved := frameBytes type payload, left := [], turns } := by
  have hlength := length_frameBytes type payload
  have hsome : (frameBytes type payload).isEmpty ≠ true := by
    rw [ne_eq, List.isEmpty_iff_length_eq_zero]
    omega
  unfold sendFrame
  rw [encodeFrame_of_le hlt]
  simp only
  unfold writeAll
  rw [if_neg hsome]
  simp only
  rw [List.take_of_length_le (by omega), List.drop_length, List.nil_append]
  cases turns with
  | nil => rfl
  | cons turn turns => rfl

/-! ### The stop flag -/

end Socket

end CreditFabric
