import CreditFabric.Polling
import CreditFabric.Connections
import CreditFabric.Client
import CreditFabric.Accounts
import CreditFabric.Lib.Shared

namespace CreditFabric

/-!
# The sessions of a coordinator

`serve_connection` of `coordinator.cpp`: a handshake, and then a loop that receives a request,
lets the engine apply it and sends the response.  Every connection has its own worker, and all
workers call one engine, whose lock makes each call a step of its own.

* `Session.greet`, `Session.serve`: the handshake and the loop body, on polled sockets.
* `Coordinator.step`: connections arrive, and some worker goes round once, or sees the stop
  flag.  A list of such events is one interleaving.
* `sessions_linearized`: over every interleaving, with any bytes from any number of peers, the
  engine has applied one list of requests.  Every session gets the answers to its own requests,
  in the order in which its peer sent them.
* `sessions_complete`: while no socket fails, a session that has ended has served all that its
  peer may ask for, and has sent all the answers.
-/

open Socket Wire

/-- The options that `serve_connection` reads. -/
structure SessionOptions where
  maxFramePayloadBytes : Nat := 2 ^ 16
  maxNoteBytes : Nat := 128
  serverLabel : List UInt8 := "creditfabric-coordinator".toUTF8.toList
  maxRequestsPerConnection : UInt64 := 0

/-- The constructor of the server; a zero bound becomes the smallest useful one. -/
def SessionOptions.make (o : SessionOptions) : SessionOptions :=
  { o with
    maxFramePayloadBytes := if o.maxFramePayloadBytes = 0 then 1024 else o.maxFramePayloadBytes
    maxNoteBytes := if o.maxNoteBytes = 0 then 1 else o.maxNoteBytes }

/-- Where a worker is: in front of the handshake, in front of the loop body, behind the loop, or
    in a socket loop that its turns do not end. -/
inductive Phase where
  | greeting
  | serving
  | ended
  | waiting
deriving DecidableEq, Repr

/-- A worker and its socket: all that the peer sends before it closes, what of it has not been
    read, what the kernel has taken of the answers, whether it was ever called for a frame that
    it did not take whole, and the requests the worker has served. -/
structure Session where
  id : UInt32
  phase : Phase := .greeting
  peer : List UInt8
  left : List UInt8
  sent : List UInt8 := []
  cut : Bool := false
  served : UInt64 := 0
  turns : List Turn
deriving DecidableEq, Repr

namespace Session

/-- A reception out of what has not been read. -/
def receive (s : Session) (maxPayload : Nat) : Arrival × Session :=
  let arrival := recvFrame maxPayload s.left s.turns
  (arrival, { s with left := arrival.left, turns := arrival.turns })

/-- `send`: one frame through the socket, the turns and the bytes it took. -/
def send (s : Session) (type : MessageType) (payload : List UInt8) : Option Status × Session :=
  let transfer := sendFrame type payload s.turns
  (transfer.status,
    { s with
      sent := s.sent ++ transfer.moved
      cut := if transfer.status = some .success then s.cut else true
      turns := transfer.turns })

/-- The worker goes on to `phase`, unless the call before has not returned. -/
def goOn (s : Session) (status : Option Status) (phase : Status → Phase) : Session :=
  match status with
  | none => { s with phase := .waiting }
  | some status => { s with phase := phase status }

/-- The answer to a Hello. -/
def ackMessage (options : SessionOptions) (challenge : Digest128) (id : UInt32) :
    HelloAckMessage where
  session := id
  challenge := challenge
  serverLabel := options.serverLabel
  maxPayload := UInt32.ofNat options.maxFramePayloadBytes
  formatVersion := formatVersion.toUInt32

/-- The handshake, and whether a frame was counted as malformed. -/
def greet (options : SessionOptions) (challenge : Digest128) (s : Session) : Bool × Session :=
  let received := s.receive options.maxFramePayloadBytes
  let arrival := received.1
  let s := received.2
  match arrival.status with
  | none => (false, { s with phase := .waiting })
  | some status =>
  if !status.ok || arrival.closed || arrival.type ≠ some .hello then
    (true, { s with phase := .ended })
  else match decodeHello arrival.payload with
  | .error _ => (true, { s with phase := .ended })
  | .ok _ =>
  match encodeHelloAck (ackMessage options challenge s.id) with
  | .error _ => (false, { s with phase := .ended })
  | .ok payload =>
    let sending := s.send .helloAck payload
    (false, sending.2.goOn sending.1 fun status => if status.ok then .serving else .ended)

end Session

/-- What the loop body leaves: the session and the engine, the request that was applied, and
    whether a frame was counted as malformed. -/
structure Served (J : Type) where
  session : Session
  engine : CreditEngine J
  request : Option CreditRequest := none
  malformed : Bool := false

namespace Session

variable {J : Type} [Journal J]

/-- The refusal of a request that is not one, and the end of the connection. -/
def turnDown (s : Session) (e : CreditEngine J) (reason : Reason) (detail : UInt64) : Served J :=
  let response := encodeResponseMessage (Connection.refusalOutcome reason detail)
  let sending := s.send .response response
  { session := sending.2.goOn sending.1 fun _ => .ended, engine := e, malformed := true }

/-- A session that turns its peer down makes no call. -/
@[simp] theorem turnDown_request {J : Type} (s : Session) (e : CreditEngine J) (reason : Reason)
    (detail : UInt64) : (s.turnDown e reason detail).request = none := rfl

/-- Nor does it touch the engine. -/
@[simp] theorem turnDown_engine {J : Type} (s : Session) (e : CreditEngine J) (reason : Reason)
    (detail : UInt64) : (s.turnDown e reason detail).engine = e := rfl

/-- The rest of the loop body behind a decoded request. -/
def answer (options : SessionOptions) (s : Session) (e : CreditEngine J)
    (request : CreditRequest) : Served J :=
  let applied := e.apply request
  let served := s.served + 1
  let sending := { s with served }.send .response (encodeResponseMessage applied.1)
  let full := options.maxRequestsPerConnection ≠ 0 ∧ served ≥ options.maxRequestsPerConnection
  { session := sending.2.goOn sending.1 fun status =>
      if !status.ok then .ended else if full then .ended else .serving
    engine := applied.2, request := some request }

/-- An answered request is the call the session made. -/
@[simp] theorem answer_request (options : SessionOptions) (s : Session) (e : CreditEngine J)
    (r : CreditRequest) : (answer options s e r).request = some r := rfl

/-- The engine an answer leaves is the call's. -/
@[simp] theorem answer_engine (options : SessionOptions) (s : Session) (e : CreditEngine J)
    (r : CreditRequest) : (answer options s e r).engine = (e.apply r).2 := rfl

/-- The body of the loop of `serve_connection`. -/
def serve (options : SessionOptions) (s : Session) (e : CreditEngine J) : Served J :=
  let received := s.receive options.maxFramePayloadBytes
  let arrival := received.1
  let s := received.2
  match arrival.status with
  | none => { session := { s with phase := .waiting }, engine := e }
  | some status =>
  if arrival.closed then { session := { s with phase := .ended }, engine := e }
  else if !status.ok then
    -- a damaged frame desynchronizes the stream
    { session := { s with phase := .ended }, engine := e, malformed := true }
  else if arrival.type = some .bye then { session := { s with phase := .ended }, engine := e }
  else if arrival.type ≠ some .request then s.turnDown e .malformedMessage 20
  else match decodeRequestMessage arrival.payload options.maxNoteBytes with
  | .error status => s.turnDown e status.reason status.detail
  | .ok request => s.answer options e request

end Session

/-! ### The coordinator -/

/-- A coordinator: its accept loop, the engine, and the sessions in the order of the registry,
    with the two counters of its workers. -/
structure Coordinator (J : Type) where
  options : SessionOptions
  server : CoordinatorServer
  engine : CreditEngine J
  sessions : List Session := []
  served : UInt64 := 0
  malformed : UInt64 := 0

namespace Coordinator

variable {J : Type} [Journal J]

/-- What happens next: a connection arrives whose peer sends some bytes, the worker at a place
    goes round once, or it sees the stop flag at the head of its loop. -/
inductive Event where
  | arrived (peer : List UInt8) (turns : List Turn)
  | turn (place : Nat)
  | stopped (place : Nat)

/-- The session at a place has changed.  Behind its loop the worker's thread has completed. -/
def update (c : Coordinator J) (place : Nat) (s : Session) : Coordinator J :=
  { c with
    sessions := c.sessions.set place s
    server := if s.phase = .ended then c.server.completeConnection place else c.server }

/-- One step, and the request it has made the engine apply. -/
def step (c : Coordinator J) : Event → Option (Nat × CreditRequest) × Coordinator J
  | .arrived peer turns =>
    match c.server.acceptConnection with
    | (.turnedAway _ _, server) => (none, { c with server })
    | (.served id, server) =>
      (none, { c with server, sessions := c.sessions ++ [{ id, peer, left := peer, turns }] })
  | .stopped place =>
    match c.sessions[place]? with
    | some s => (none, if s.phase = .serving then c.update place { s with phase := .ended } else c)
    | none => (none, c)
  | .turn place =>
    match c.sessions[place]? with
    | none => (none, c)
    | some s =>
    match s.phase with
    | .greeting =>
      let (malformed, s) := s.greet c.options c.engine.challenge.nonce
      (none, { c.update place s with
        malformed := if malformed then c.malformed + 1 else c.malformed })
    | .serving =>
      let result := s.serve c.options c.engine
      (result.request.map fun request => (place, request),
        { c.update place result.session with
          engine := result.engine
          served := if result.request.isSome then c.served + 1 else c.served
          malformed := if result.malformed then c.malformed + 1 else c.malformed })
    | .ended | .waiting => (none, c)

/-- A coordinator that has been started. -/
def start (options : SessionOptions) (connections : CoordinatorOptions) (e : CreditEngine J) :
    Coordinator J :=
  { options := options.make, server := .make connections, engine := e }

/-- The requests the engine has applied in a run, each with the place of its session. -/
def log (c : Coordinator J) (events : List Event) : List (Nat × CreditRequest) :=
  (Lib.answers step c events).filterMap id

end Coordinator

/-! ### What a session has heard and said -/

/-- The frames that answer a handshake: one, unless the label of the server is too long. -/
def ackFrames (options : SessionOptions) (challenge : Digest128) (id : UInt32) : List Sent :=
  match encodeHelloAck (Session.ackMessage options challenge id) with
  | .ok payload => [(.helloAck, payload)]
  | .error _ => []

/-- The frames that answer a list of calls. -/
def responseFrames (outcomes : List CreditOutcome) : List Sent :=
  outcomes.map fun outcome => (.response, encodeResponseMessage outcome)

/-- The peer has sent a Hello and the frames of these requests, and then `left`. -/
def Heard (options : SessionOptions) (peer left : List UInt8) (requests : List CreditRequest) :
    Prop :=
  ∃ hello m payloads, decodeHello hello = .ok m ∧
    List.Forall₂ (fun payload r => decodeRequestMessage payload options.maxNoteBytes = .ok r)
      payloads requests ∧
    peer = bytesOf ((.hello, hello) :: payloads.map fun payload => (.request, payload)) ++ left

/-- What answers a peer: the HelloAck, the responses with the outcomes of its requests, and at
    most one refusal behind them. -/
def answerFrames (options : SessionOptions) (challenge : Digest128) (id : UInt32)
    (outcomes : List CreditOutcome) (refusal : Option CreditOutcome) : List Sent :=
  ackFrames options challenge id ++ responseFrames (outcomes ++ refusal.toList)

/-- The worker refuses a frame without the engine. -/
def Refuses (refusal : Option CreditOutcome) : Prop :=
  ∀ o ∈ refusal, o.applied = false ∧ o.decided = false

/-- What the peer has been sent. -/
inductive Said (options : SessionOptions) (challenge : Digest128) (s : Session)
    (outcomes : List CreditOutcome) : Prop
  /-- Nothing, when no Hello was accepted. -/
  | nothing (hcut : s.cut = false) (hnone : outcomes = []) (hsent : s.sent = [])
  /-- All the answers, when each of them was sent. -/
  | whole (hcut : s.cut = false) (refusal : Option CreditOutcome) (hrefusal : Refuses refusal)
      (hsent : s.sent = bytesOf (answerFrames options challenge s.id outcomes refusal))
  /-- All the answers but a part of the last, when this one was not sent. -/
  | cut (hcut : s.cut = true) (refusal : Option CreditOutcome) (hrefusal : Refuses refusal)
      (frames : List Sent) (last : Sent)
      (hframes : answerFrames options challenge s.id outcomes refusal = frames ++ [last])
      (moved : List UInt8) (hmoved : moved <+: frameBytes last.1 last.2)
      (hsent : s.sent = bytesOf frames ++ moved)

/-- The peer starts with a valid Hello, and the label of the server is short enough to answer
    it. -/
def Welcome (options : SessionOptions) (peer : List UInt8) : Prop :=
  options.serverLabel.length ≤ maxLabelBytes ∧
  ∃ payload rest m, payload.length ≤ options.maxFramePayloadBytes ∧
    payload.length ≤ 0xFFFFFFFF ∧ peer = frameBytes .hello payload ++ rest ∧
    decodeHello payload = .ok m

/-- **A conversation.**  The requests served are the first that the peer has sent, and the peer
    has been sent the answers to them. -/
structure Conversed (options : SessionOptions) (challenge : Digest128) (s : Session)
    (requests : List CreditRequest) (outcomes : List CreditOutcome) : Prop where
  heard : requests = [] ∨ ∃ left, Heard options s.peer left requests
  said : Said options challenge s outcomes
  bounded : options.maxRequestsPerConnection ≠ 0 →
    requests.length ≤ options.maxRequestsPerConnection.toNat

/-- A worker in front of its loop body: all it has heard was answered. -/
structure InStep (options : SessionOptions) (challenge : Digest128) (s : Session)
    (requests : List CreditRequest) (outcomes : List CreditOutcome) : Prop where
  welcome : Welcome options s.peer
  heard : Heard options s.peer s.left requests
  uncut : s.cut = false
  said : s.sent = bytesOf (answerFrames options challenge s.id outcomes none)
  bounded : options.maxRequestsPerConnection ≠ 0 → s.served.toNat = requests.length ∧
    requests.length < options.maxRequestsPerConnection.toNat

/-- What holds of a worker, wherever it is. -/
structure Session.Holds (options : SessionOptions) (challenge : Digest128) (s : Session)
    (requests : List CreditRequest) (outcomes : List CreditOutcome) : Prop where
  greeting : s.phase = .greeting →
    requests = [] ∧ outcomes = [] ∧ s.left = s.peer ∧ s.sent = [] ∧ s.cut = false ∧ s.served = 0
  serving : s.phase = .serving → InStep options challenge s requests outcomes
  conversed : Conversed options challenge s requests outcomes

section Sessions

variable {options : SessionOptions} {challenge : Digest128} {s : Session}
  {requests : List CreditRequest} {outcomes : List CreditOutcome}

/-- One more outcome is one more frame. -/
theorem responseFrames_concat (outcome : CreditOutcome) :
    responseFrames (outcomes ++ [outcome]) =
      responseFrames outcomes ++ [(.response, encodeResponseMessage outcome)] := List.map_append

/-- No refusal is a refusal of nothing. -/
theorem refuses_none : Refuses none := fun o ho => absurd ho (by simp)

/-- One more answer, or the refusal, is one more frame. -/
theorem answerFrames_concat (id : UInt32) (outcome : CreditOutcome) :
    answerFrames options challenge id (outcomes ++ [outcome]) none =
      answerFrames options challenge id outcomes none ++
        [(.response, encodeResponseMessage outcome)] := by
  unfold answerFrames
  rw [Option.toList_none, List.append_nil, List.append_nil, responseFrames_concat,
    List.append_assoc]

/-- A refusal is the last frame. -/
theorem answerFrames_refusal (id : UInt32) (outcome : CreditOutcome) :
    answerFrames options challenge id outcomes (some outcome) =
      answerFrames options challenge id outcomes none ++
        [(.response, encodeResponseMessage outcome)] := by
  rw [← answerFrames_concat]
  unfold answerFrames
  rw [Option.toList_some, Option.toList_none, List.append_nil]

/-- A session in step has said the answers to its calls. -/
theorem InStep.conversed (h : InStep options challenge s requests outcomes) :
    Conversed options challenge s requests outcomes where
  heard := .inr ⟨s.left, h.heard⟩
  said := .whole h.uncut none refuses_none h.said
  bounded := fun hmax => (h.bounded hmax).2.le

/-- A conversation is one of the peer, the answers and the number of the session only. -/
theorem Conversed.congr (h : Conversed options challenge s requests outcomes) {s' : Session}
    (hpeer : s'.peer = s.peer) (hsent : s'.sent = s.sent) (hcut : s'.cut = s.cut)
    (hid : s'.id = s.id) : Conversed options challenge s' requests outcomes := by
  obtain ⟨heard, said, bounded⟩ := h
  rw [← hpeer] at heard
  refine ⟨heard, ?_, bounded⟩
  cases said with
  | nothing huncut hnone hnothing =>
    exact .nothing (hcut.trans huncut) hnone (hsent.trans hnothing)
  | whole huncut refusal hrefusal hall =>
    rw [← hid] at hall
    exact .whole (hcut.trans huncut) refusal hrefusal (hsent.trans hall)
  | cut hiscut refusal hrefusal frames last hframes moved hmoved hpart =>
    rw [← hid] at hframes
    exact .cut (hcut.trans hiscut) refusal hrefusal frames last hframes moved hmoved
      (hsent.trans hpart)

/-- A worker that is behind its loop, or will not get there. -/
theorem Session.Holds.over (h : Conversed options challenge s requests outcomes) {phase : Phase}
    (hphase : phase ≠ .greeting ∧ phase ≠ .serving) :
    ({ s with phase } : Session).Holds options challenge requests outcomes :=
  ⟨fun hgreeting => absurd hgreeting hphase.1, fun hserving => absurd hserving hphase.2,
    h.congr rfl rfl rfl rfl⟩

/-- What a transmission adds to the answers: all of the frame when it is successful, and a piece
    of it when it is not. -/
inductive Session.SendAdds (s : Session) (type : MessageType) (payload : List UInt8) :
    Option Status × Session → Prop
  | whole (turns : List Turn) : SendAdds s type payload
      (some .success, { s with sent := s.sent ++ frameBytes type payload, turns })
  | cut (status : Option Status) (hstatus : ∀ status', status = some status' → status'.ok = false)
      (moved : List UInt8) (hmoved : moved <+: frameBytes type payload) (turns : List Turn) :
      SendAdds s type payload (status, { s with sent := s.sent ++ moved, cut := true, turns })

/-- What one send adds to what the session said. -/
theorem Session.send_adds (s : Session) (type : MessageType) (payload : List UInt8) :
    s.SendAdds type payload (s.send type payload) := by
  have hends := sendFrame_ends (type, payload) s.turns
  unfold Session.send
  simp only at hends ⊢
  generalize sendFrame type payload s.turns = transfer at hends ⊢
  cases hends with
  | whole turns hlt =>
    rw [if_pos rfl]
    exact .whole turns
  | cut status moved left turns hrefused hlt hmoved =>
    have hstatus : status ≠ some .success := fun hsuccess =>
      absurd (hrefused .success hsuccess) (by decide)
    rw [if_neg hstatus]
    refine .cut status hrefused moved ?_ turns
    by_cases hnil : moved = []
    · rw [hnil]
      exact List.nil_prefix
    · obtain ⟨rest, -, hrest⟩ := hmoved hnil
      exact ⟨rest, hrest⟩

/-- A HelloAck is encoded when its label is short enough. -/
theorem label_le_of_encodeHelloAck {m : HelloAckMessage} {ack : List UInt8}
    (h : encodeHelloAck m = .ok ack) : m.serverLabel.length ≤ maxLabelBytes := by
  unfold encodeHelloAck at h
  simp only at h
  split_ifs at h with hlong
  exact Nat.not_lt.mp hlong

/-- **The handshake.**  A worker in front of it is behind it in step, or has ended with no
    request served. -/
theorem Session.greet_holds (hphase : s.phase = .greeting)
    (h : s.Holds options challenge requests outcomes) :
    (s.greet options challenge).2.Holds options challenge requests outcomes := by
  obtain ⟨rfl, rfl, hleft, hsent, huncut, hserved⟩ := h.greeting hphase
  have harrives := recvFrame_arrives options.maxFramePayloadBytes s.left s.turns
  have hover : ∀ (left : List UInt8) (turns : List Turn) {phase : Phase},
      phase ≠ .greeting ∧ phase ≠ .serving →
      ({ s with left, turns, phase } : Session).Holds options challenge [] [] :=
    fun left turns phase => .over (s := { s with left, turns }) (h.conversed.congr rfl rfl rfl rfl)
  unfold Session.greet Session.receive
  simp only
  generalize recvFrame options.maxFramePayloadBytes s.left s.turns = arrival at harrives ⊢
  cases harrives with
  | waiting left turns => exact hover left turns ⟨nofun, nofun⟩
  | closed left turns hend =>
    simp only [Bool.or_true, Bool.true_or, if_true]
    exact hover left turns ⟨nofun, nofun⟩
  | refused status left turns hrefused _ _ =>
    simp only [hrefused, Bool.not_false, Bool.true_or, if_true]
    exact hover left turns ⟨nofun, nofun⟩
  | broken status left turns hrefused _ =>
    simp only [hrefused, Bool.not_false, Bool.true_or, if_true]
    exact hover left turns ⟨nofun, nofun⟩
  | frame type payload left turns hmax hlt hdata =>
  simp only [Status.ok_success, Bool.not_true, Bool.or_self, Bool.false_or, decide_eq_true_eq]
  split_ifs with htype
  · exact hover left turns ⟨nofun, nofun⟩
  obtain rfl : type = .hello := by simpa using htype
  cases hhello : decodeHello payload with
  | error status => exact hover left turns ⟨nofun, nofun⟩
  | ok hello =>
  simp only
  cases hack : encodeHelloAck (Session.ackMessage options challenge s.id) with
  | error status => exact hover left turns ⟨nofun, nofun⟩
  | ok ack =>
  simp only
  have hsends := Session.send_adds { s with left, turns } .helloAck ack
  have hframes : answerFrames options challenge s.id [] none = [(.helloAck, ack)] := by
    unfold answerFrames ackFrames
    rw [hack]
    rfl
  generalize { s with left, turns }.send .helloAck ack = result at hsends ⊢
  cases hsends with
  | cut status hstatus moved hmoved turns' =>
    -- the peer has been sent a piece of the HelloAck
    have hcut : Conversed options challenge
        { s with left, turns := turns', sent := s.sent ++ moved, cut := true } [] [] := by
      refine ⟨.inl rfl, .cut rfl none refuses_none [] (.helloAck, ack) ?_ moved hmoved ?_,
        fun _ => Nat.zero_le _⟩
      · exact hframes
      · show s.sent ++ moved = _
        rw [hsent]
        rfl
    cases status with
    | none => exact .over hcut ⟨nofun, nofun⟩
    | some status =>
      unfold Session.goOn
      simp only [hstatus status rfl, Bool.false_eq_true, if_false]
      exact .over hcut ⟨nofun, nofun⟩
  | whole turns' =>
    have hsaid : s.sent ++ frameBytes .helloAck ack =
        bytesOf (answerFrames options challenge s.id [] none) := by
      rw [hframes, hsent, bytesOf_cons, bytesOf_nil, List.append_nil, List.nil_append]
    have hserving : InStep options challenge
        { s with left, turns := turns', sent := s.sent ++ frameBytes .helloAck ack
                 phase := .serving } [] [] := by
      refine ⟨⟨label_le_of_encodeHelloAck hack, payload, left, hello, hmax, hlt, ?_, hhello⟩,
        ⟨payload, hello, [], hhello, .nil, ?_⟩, huncut, hsaid, fun hmax => ?_⟩
      · show s.peer = _
        rw [← hleft, hdata]
      · show s.peer = _
        rw [← hleft, hdata]
        simp
      · show s.served.toNat = 0 ∧ 0 < _
        rw [hserved]
        exact ⟨rfl, Nat.pos_of_ne_zero fun hzero => hmax (UInt64.toNat_inj.mp hzero)⟩
    unfold Session.goOn
    simp only [Status.ok_success, if_true]
    exact ⟨nofun, fun _ => hserving, hserving.conversed⟩

/-- Turning the peer down keeps the session's account of what it said. -/
theorem Session.turnDown_holds (h : InStep options challenge s requests outcomes)
    {J : Type} [Journal J] (e : CreditEngine J) (reason : Reason) (detail : UInt64)
    (left : List UInt8) (turns : List Turn) :
    (Session.turnDown { s with left, turns } e reason detail).session.Holds options challenge
      requests outcomes := by
  unfold Session.turnDown
  have hframes : answerFrames options challenge s.id outcomes _ = _ :=
    answerFrames_refusal s.id (Connection.refusalOutcome reason detail)
  generalize hrefused : Connection.refusalOutcome reason detail = refusal at hframes ⊢
  have hrefusal : Refuses (some refusal) := by
    intro o ho
    rw [← Option.some.inj ho, ← hrefused]
    exact ⟨rfl, rfl⟩
  have hsends := Session.send_adds { s with left, turns } .response
    (encodeResponseMessage refusal)
  simp only
  generalize { s with left, turns }.send .response (encodeResponseMessage refusal) = result
    at hsends ⊢
  cases hsends with
  | whole turns' =>
    -- the refusal is the last answer
    refine .over (s := { s with left, turns := turns', sent := _ })
      ⟨.inr ⟨s.left, h.heard⟩, .whole h.uncut (some refusal) hrefusal ?_,
        fun hmax => (h.bounded hmax).2.le⟩ ⟨nofun, nofun⟩
    show s.sent ++ _ = _
    rw [hframes, h.said, bytesOf_concat]
  | cut status hstatus moved hmoved turns' =>
    have hcut : Conversed options challenge
        { s with left, turns := turns', sent := s.sent ++ moved, cut := true } requests
        outcomes := by
      refine ⟨.inr ⟨s.left, h.heard⟩,
        .cut rfl (some refusal) hrefusal _ _ hframes moved hmoved ?_,
        fun hmax => (h.bounded hmax).2.le⟩
      show s.sent ++ moved = _
      rw [h.said]
    cases status with
    | none => exact .over hcut ⟨nofun, nofun⟩
    | some status => exact .over hcut ⟨nofun, nofun⟩

/-- One more request is heard. -/
theorem Heard.more {peer left left' payload : List UInt8} {r : CreditRequest}
    (h : Heard options peer left requests) (hleft : left = frameBytes .request payload ++ left')
    (hr : decodeRequestMessage payload options.maxNoteBytes = .ok r) :
    Heard options peer left' (requests ++ [r]) := by
  obtain ⟨hello, m, payloads, hhello, hpayloads, hpeer⟩ := h
  refine ⟨hello, m, payloads ++ [payload], hhello, ?_, ?_⟩
  · exact List.rel_append hpayloads (.cons hr .nil)
  · rw [hpeer, hleft, List.map_append, List.map_cons, List.map_nil, ← List.cons_append,
      bytesOf_concat, List.append_assoc]

/-- Below its bound the counter of a session counts. -/
theorem toNat_served {served bound : UInt64} {count : Nat} (h : served.toNat = count)
    (hlt : count < bound.toNat) : (served + 1).toNat = count + 1 := by
  have hlast := bound.toNat_lt
  rw [UInt64.toNat_add, h]
  exact Nat.mod_eq_of_lt (by simpa using by omega)

/-- Answering a request extends it by the request and its outcome. -/
theorem Session.answer_holds (h : InStep options challenge s requests outcomes)
    {J : Type} [Journal J] (e : CreditEngine J) {payload left : List UInt8} (turns : List Turn)
    {r : CreditRequest} (hleft : s.left = frameBytes .request payload ++ left)
    (hr : decodeRequestMessage payload options.maxNoteBytes = .ok r) :
    (Session.answer options { s with left, turns } e r).session.Holds options challenge
      (requests ++ [r]) (outcomes ++ [(e.apply r).1]) := by
  have heard := h.heard.more hleft hr
  unfold Session.answer
  generalize e.apply r = applied
  have hsends := Session.send_adds { s with left, turns, served := s.served + 1 } .response
    (encodeResponseMessage applied.1)
  have hframes : answerFrames options challenge s.id (outcomes ++ [applied.1]) none = _ :=
    answerFrames_concat s.id applied.1
  have hcount : options.maxRequestsPerConnection ≠ 0 →
      (s.served + 1).toNat = (requests ++ [r]).length ∧
        (requests ++ [r]).length ≤ options.maxRequestsPerConnection.toNat := by
    intro hmax
    obtain ⟨hserved, hlt⟩ := h.bounded hmax
    rw [List.length_append, List.length_singleton]
    exact ⟨toNat_served hserved hlt, hlt⟩
  simp only
  generalize { s with left, turns, served := s.served + 1 }.send .response
    (encodeResponseMessage applied.1) = result at hsends ⊢
  cases hsends with
  | cut status hstatus moved hmoved turns' =>
    -- the engine has decided, and the peer is not told all of it
    have hcut : Conversed options challenge
        { s with left, turns := turns', served := s.served + 1, sent := s.sent ++ moved
                 cut := true } (requests ++ [r]) (outcomes ++ [applied.1]) := by
      refine ⟨.inr ⟨left, heard⟩, .cut rfl none refuses_none _ _ hframes moved hmoved ?_,
        fun hmax => (hcount hmax).2⟩
      show s.sent ++ moved = _
      rw [h.said]
    cases status with
    | none => exact .over hcut ⟨nofun, nofun⟩
    | some status =>
      unfold Session.goOn
      simp only [hstatus status rfl, Bool.not_false, if_true]
      exact .over hcut ⟨nofun, nofun⟩
  | whole turns' =>
    have hsaid : s.sent ++ frameBytes .response (encodeResponseMessage applied.1) =
        bytesOf (answerFrames options challenge s.id (outcomes ++ [applied.1]) none) := by
      rw [hframes, h.said, bytesOf_concat]
    have hwhole : Conversed options challenge
        { s with left, turns := turns', served := s.served + 1
                 sent := s.sent ++ frameBytes .response (encodeResponseMessage applied.1) }
        (requests ++ [r]) (outcomes ++ [applied.1]) :=
      ⟨.inr ⟨left, heard⟩, .whole h.uncut none refuses_none hsaid, fun hmax => (hcount hmax).2⟩
    unfold Session.goOn
    simp only [Status.ok_success, Bool.not_true, Bool.false_eq_true, if_false]
    split_ifs with hfull
    · exact .over hwhole ⟨nofun, nofun⟩
    · -- below its bound the worker goes on
      refine ⟨nofun, fun _ => ⟨h.welcome, heard, h.uncut, hsaid, fun hmax => ?_⟩,
        hwhole.congr rfl rfl rfl rfl⟩
      have hbelow := fun hle => hfull ⟨hmax, hle⟩
      refine ⟨(hcount hmax).1, ?_⟩
      rw [← (hcount hmax).1]
      exact UInt64.lt_iff_toNat_lt.mp (UInt64.not_le.mp hbelow)

/-- **The loop body.**  It serves no request, and the engine is left alone, or it serves the
    next one, and its answer is the next one said. -/
theorem Session.serve_holds (hphase : s.phase = .serving)
    (h : s.Holds options challenge requests outcomes) {J : Type} [Journal J]
    (e : CreditEngine J) :
    ((s.serve options e).request = none ∧ (s.serve options e).engine = e ∧
      (s.serve options e).session.Holds options challenge requests outcomes) ∨
    ∃ r, (s.serve options e).request = some r ∧ (s.serve options e).engine = (e.apply r).2 ∧
      (s.serve options e).session.Holds options challenge (requests ++ [r])
        (outcomes ++ [(e.apply r).1]) := by
  replace h := h.serving hphase
  have harrives := recvFrame_arrives options.maxFramePayloadBytes s.left s.turns
  have hover : ∀ (left : List UInt8) (turns : List Turn) {phase : Phase},
      phase ≠ .greeting ∧ phase ≠ .serving →
      ({ s with left, turns, phase } : Session).Holds options challenge requests outcomes :=
    fun left turns phase => .over (s := { s with left, turns }) (h.conversed.congr rfl rfl rfl rfl)
  unfold Session.serve Session.receive
  simp only
  generalize recvFrame options.maxFramePayloadBytes s.left s.turns = arrival at harrives ⊢
  -- a reception without a frame makes no call and sends nothing
  cases harrives with
  | waiting left turns => exact .inl ⟨rfl, rfl, hover left turns ⟨nofun, nofun⟩⟩
  | closed left turns hend => exact .inl ⟨rfl, rfl, hover left turns ⟨nofun, nofun⟩⟩
  | refused status left turns hrefused _ _ =>
    simp only [hrefused, Bool.not_false, if_true, Bool.false_eq_true, if_false]
    exact .inl ⟨trivial, trivial, hover left turns ⟨nofun, nofun⟩⟩
  | broken status left turns hrefused _ =>
    simp only [hrefused, Bool.not_false, if_true, Bool.false_eq_true, if_false]
    exact .inl ⟨trivial, trivial, hover left turns ⟨nofun, nofun⟩⟩
  | frame type payload left turns hmax hlt hdata =>
  simp only [Status.ok_success, Bool.not_true, Bool.false_eq_true, if_false]
  -- Bye, another message, or a request
  split_ifs with hbye hother
  · exact .inl ⟨rfl, rfl, hover left turns ⟨nofun, nofun⟩⟩
  · exact .inl ⟨turnDown_request _ _ _ _, turnDown_engine _ _ _ _,
      Session.turnDown_holds h e _ _ left turns⟩
  obtain rfl : type = .request := by simpa using hother
  cases hr : decodeRequestMessage payload options.maxNoteBytes with
  | error status =>
    exact .inl ⟨turnDown_request _ _ _ _, turnDown_engine _ _ _ _,
      Session.turnDown_holds h e _ _ left turns⟩
  | ok r =>
    exact .inr ⟨r, answer_request _ _ _ _, answer_engine _ _ _ _,
      Session.answer_holds h e turns hdata hr⟩

end Sessions

/-! ### Interleavings -/

namespace Coordinator

open Lib

variable {J : Type} [Journal J] {options : SessionOptions} {e : CreditEngine J}
  {log : List (Nat × CreditRequest)} {c : Coordinator J}

/-- What holds of a coordinator that has served the requests of `log`, on the engine `e`. -/
structure Linear (options : SessionOptions) (e : CreditEngine J)
    (log : List (Nat × CreditRequest)) (c : Coordinator J) : Prop where
  config : c.options = options
  engine : c.engine = e.run (log.map Prod.snd)
  served : c.served = UInt64.ofNat log.length
  placed : ∀ call ∈ log, call.1 < c.sessions.length
  sessions : ∀ (place : Nat) (s : Session), c.sessions[place]? = some s →
    s.Holds options e.challenge.nonce (callsOf place log)
      (answersOf CreditEngine.apply e place log)

/-- Calls do not change the challenge. -/
private theorem run_challenge (e : CreditEngine J) (rs : List CreditRequest) :
    (e.run rs).challenge = e.challenge :=
  CreditEngine.run_induction (P := fun e' => e'.challenge = e.challenge) rfl
    (fun e' r h => (CreditEngine.apply_accounts e' r).2.challenge.trans h) rs

/-- Nor do the coordinator's sessions. -/
theorem Linear.challenge (h : Linear options e log c) : c.engine.challenge = e.challenge := by
  rw [h.engine, run_challenge]

/-- The session at a place goes on without serving a request. -/
theorem Linear.update (h : Linear options e log c) {place : Nat} {s : Session}
    (hs : s.Holds options e.challenge.nonce (callsOf place log)
      (answersOf CreditEngine.apply e place log)) (malformed : UInt64) :
    Linear options e log { c.update place s with malformed } where
  config := h.config
  engine := h.engine
  served := h.served
  placed := by
    intro call hcall
    show call.1 < (c.sessions.set place s).length
    rw [List.length_set]
    exact h.placed call hcall
  sessions := by
    intro place' s' hs'
    replace hs' : (c.sessions.set place s)[place']? = some s' := hs'
    by_cases hplace : place = place'
    · subst hplace
      by_cases hlt : place < c.sessions.length
      · rw [List.getElem?_set_self hlt, Option.some.injEq] at hs'
        rwa [← hs']
      · rw [List.getElem?_eq_none (by rw [List.length_set]; omega)] at hs'
        exact absurd hs' (by simp)
    · rw [List.getElem?_set_ne hplace] at hs'
      exact h.sessions place' s' hs'

/-- The session at a place serves one more request. -/
theorem Linear.serve (h : Linear options e log c) {place : Nat} (hplace : place < c.sessions.length)
    {r : CreditRequest} {s : Session}
    (hs : s.Holds options e.challenge.nonce (callsOf place log ++ [r])
      (answersOf CreditEngine.apply e place log ++ [(c.engine.apply r).1])) (malformed : UInt64) :
    Linear options e (log ++ [(place, r)])
      { c.update place s with
        engine := (c.engine.apply r).2, served := c.served + 1, malformed } where
  config := h.config
  engine := by
    rw [List.map_append, List.map_cons, List.map_nil, CreditEngine.run_concat, ← h.engine]
  served := by
    show c.served + 1 = _
    rw [h.served, List.length_append, List.length_singleton, UInt64.ofNat_add]
    rfl
  placed := by
    intro call hcall
    show call.1 < (c.sessions.set place s).length
    rw [List.length_set]
    rcases List.mem_append.mp hcall with hcall | hcall
    · exact h.placed call hcall
    · rw [List.mem_singleton.mp hcall]
      exact hplace
  sessions := by
    intro place' s' hs'
    replace hs' : (c.sessions.set place s)[place']? = some s' := hs'
    by_cases heq : place = place'
    · subst heq
      rw [List.getElem?_set_self hplace, Option.some.injEq] at hs'
      rw [callsOf_concat_self, answersOf_concat_self, ← hs']
      rw [h.engine] at hs
      exact hs
    · rw [List.getElem?_set_ne heq] at hs'
      rw [callsOf_concat_other _ heq, answersOf_concat_other _ _ _ heq]
      exact h.sessions place' s' hs'

/-- **One step.** -/
theorem Linear.step (h : Linear options e log c) (event : Event) :
    Linear options e (log ++ (c.step event).1.toList) (c.step event).2 := by
  cases event with
  | arrived peer turns =>
    unfold Coordinator.step
    simp only
    generalize c.server.acceptConnection = result
    obtain ⟨reception, server⟩ := result
    cases reception with
    | turnedAway type payload =>
      simp only [Option.toList_none, List.append_nil]
      exact ⟨h.config, h.engine, h.served, h.placed, h.sessions⟩
    | served id =>
      simp only [Option.toList_none, List.append_nil]
      refine ⟨h.config, h.engine, h.served, fun call hcall => ?_, fun place s hs => ?_⟩
      · rw [List.length_append]
        exact Nat.lt_add_right _ (h.placed call hcall)
      by_cases hold : place < c.sessions.length
      · rw [List.getElem?_append_left hold] at hs
        exact h.sessions place s hs
      -- the new worker: nothing in the log is its own
      obtain ⟨hlt, hget⟩ := List.getElem?_eq_some_iff.mp hs
      rw [List.length_append, List.length_singleton] at hlt
      obtain rfl : place = c.sessions.length := by omega
      rw [List.getElem_concat_length rfl] at hget
      have hnone : callsOf c.sessions.length log = [] := by
        unfold callsOf
        rw [List.filter_eq_nil_iff.mpr fun call hcall => by
          have := h.placed call hcall
          simp only [decide_eq_true_eq]
          omega]
        rfl
      have hanswers : answersOf CreditEngine.apply e c.sessions.length log = [] :=
        List.length_eq_zero_iff.mp (by rw [length_answersOf, hnone]; rfl)
      rw [hnone, hanswers, ← hget]
      refine ⟨fun _ => ⟨rfl, rfl, rfl, rfl, rfl, rfl⟩, fun hserving => ?_, .inl rfl,
        .nothing rfl rfl rfl, fun _ => Nat.zero_le _⟩
      exact absurd (show Phase.greeting = .serving from hserving) (by decide)
  | stopped place =>
    unfold Coordinator.step
    simp only
    cases hs : c.sessions[place]? with
    | none =>
      simp only [Option.toList_none, List.append_nil]
      exact h
    | some s =>
      simp only [Option.toList_none, List.append_nil]
      split_ifs
      · have hover : ({ s with phase := .ended } : Session).Holds options e.challenge.nonce _ _ :=
          .over (h.sessions place s hs).conversed ⟨nofun, nofun⟩
        exact h.update hover c.malformed
      · exact h
  | turn place =>
    unfold Coordinator.step
    simp only
    cases hs : c.sessions[place]? with
    | none =>
      simp only [Option.toList_none, List.append_nil]
      exact h
    | some s =>
    have hholds := h.sessions place s hs
    have hplace : place < c.sessions.length := (List.getElem?_eq_some_iff.mp hs).1
    simp only
    cases hphase : s.phase with
    | ended =>
      simp only [Option.toList_none, List.append_nil]
      exact h
    | waiting =>
      simp only [Option.toList_none, List.append_nil]
      exact h
    | greeting =>
      simp only [Option.toList_none, List.append_nil]
      rw [h.config, h.challenge]
      exact h.update (Session.greet_holds hphase hholds) _
    | serving =>
      simp only
      rw [h.config]
      rcases Session.serve_holds hphase hholds c.engine with
        ⟨hrequest, hengine, hnext⟩ | ⟨r, hrequest, hengine, hnext⟩
      · rw [hrequest, hengine]
        simp only [Option.map_none, Option.toList_none, List.append_nil, Option.isSome_none,
          Bool.false_eq_true, if_false]
        exact h.update hnext _
      · rw [hrequest, hengine]
        simp only [Option.map_some, Option.toList_some, Option.isSome_some, if_true]
        exact h.serve hplace hnext _

/-- The log after one more event. -/
theorem log_concat (c : Coordinator J) (events : List Event) (event : Event) :
    c.log (events ++ [event]) =
      c.log events ++ ((final step c events).step event).1.toList := by
  unfold Coordinator.log
  rw [answers_concat, List.filterMap_append]
  cases ((final step c events).step event).1 with
  | none => rfl
  | some call => rfl

/-- **Run lemma.** -/
theorem linear_final (options : SessionOptions) (connections : CoordinatorOptions)
    (e : CreditEngine J) (events : List Event) :
    Linear options.make e ((start options connections e).log events)
      (final step (start options connections e) events) := by
  induction events using List.reverseRecOn with
  | nil =>
    refine ⟨rfl, rfl, rfl, fun call hcall => ?_, fun place s hs => ?_⟩
    · exact absurd hcall List.not_mem_nil
    · exact absurd (show (none : Option Session) = some s from hs) (by simp)
  | append_singleton events event ih =>
    rw [log_concat, final_concat]
    exact ih.step event

/-- **Sessions are linearized.**  Over every interleaving of arriving connections, of workers
    going round and of workers stopped, whatever bytes the peers send and whatever the kernel
    makes of them: the engine has applied one list of requests, and every session was served
    the first requests of its own peer, in their order, with the answers that this list gives
    them. -/
theorem sessions_linearized (options : SessionOptions) (connections : CoordinatorOptions)
    (e : CreditEngine J) (events : List Event) :
    Linear options.make e ((start options connections e).log events)
      (final step (start options connections e) events) :=
  linear_final options connections e events

end Coordinator

/-! ### Complete conversations -/

/-- No request that the worker accepts lies in front of what is left, or it has served as many
    as it may. -/
def Done (options : SessionOptions) (left : List UInt8) (requests : List CreditRequest) : Prop :=
  (∀ payload rest r, payload.length ≤ options.maxFramePayloadBytes →
    payload.length ≤ 0xFFFFFFFF → left = frameBytes .request payload ++ rest →
    decodeRequestMessage payload options.maxNoteBytes ≠ .ok r) ∨
  (options.maxRequestsPerConnection ≠ 0 ∧
    requests.length = options.maxRequestsPerConnection.toNat)

/-- What holds of a session that has ended: it has served all that its peer may ask for, and the
    peer has been sent all the answers, or the peer is unwelcome and was sent nothing. -/
inductive Finished (options : SessionOptions) (challenge : Digest128) (s : Session)
    (requests : List CreditRequest) (outcomes : List CreditOutcome) : Prop
  | welcome (hwelcome : Welcome options s.peer) (left : List UInt8)
      (heard : Heard options s.peer left requests) (hdone : Done options left requests)
      (refusal : Option CreditOutcome) (hrefusal : Refuses refusal)
      (hsaid : s.sent = bytesOf (answerFrames options challenge s.id outcomes refusal))
  | unwelcome (hunwelcome : ¬ Welcome options s.peer) (hnone : requests = [])
      (hsaid : s.sent = [])

/-- A worker whose sockets do not fail. -/
structure Session.Unhurried (options : SessionOptions) (challenge : Digest128) (s : Session)
    (requests : List CreditRequest) (outcomes : List CreditOutcome) : Prop where
  calm : Calm s.turns
  finished : s.phase = .ended → Finished options challenge s requests outcomes

section Complete

variable {options : SessionOptions} {challenge : Digest128} {s : Session}
  {requests : List CreditRequest} {outcomes : List CreditOutcome}

/-- No frame lies in front of bytes that are not received as one. -/
theorem frameless_of_closed {maxPayload : Nat} {data : List UInt8}
    (h : data = [] ∨ Transport.HeaderOnly maxPayload data) (type : MessageType)
    (payload rest : List UInt8) : data ≠ frameBytes type payload ++ rest := by
  rintro rfl
  have hlength : (frameBytes type payload ++ rest).length = 16 + payload.length + rest.length := by
    rw [List.length_append, length_frameBytes]
  rcases h with hnil | hheader
  · rw [hnil, List.length_nil] at hlength
    omega
  · rw [hheader.1] at hlength
    omega

/-- Bytes the decoder refuses begin with no frame it accepts. -/
theorem frameless_of_refused {maxPayload : Nat} {data : List UInt8}
    (h : ∀ view, Wire.decodeFrame data maxPayload ≠ .ok view) (type : MessageType)
    {payload : List UInt8} (rest : List UInt8) (hmax : payload.length ≤ maxPayload)
    (hlt : payload.length ≤ 0xFFFFFFFF) : data ≠ frameBytes type payload ++ rest := by
  rintro rfl
  exact h _ (decodeFrame_frameBytes hmax hlt rest)

/-- The handshake is answered with a short frame. -/
theorem length_ack_le {m : HelloAckMessage} {ack : List UInt8} (h : encodeHelloAck m = .ok ack) :
    ack.length ≤ 0xFFFFFFFF := by
  have hlabel : m.serverLabel.length ≤ 64 := label_le_of_encodeHelloAck h
  unfold encodeHelloAck at h
  simp only at h
  split_ifs at h with hlong
  rw [Except.ok.injEq] at h
  rw [← h, ByteWriter.text, if_neg hlong]
  simp only [List.length_append, ByteWriter.length_u32, ByteWriter.length_digest]
  omega

/-- A response fits the frame's length field. -/
theorem length_response_le (o : CreditOutcome) :
    (encodeResponseMessage o).length ≤ 0xFFFFFFFF := by
  unfold encodeResponseMessage
  rw [length_encodeOutcomeBody]
  omega

/-- A calm transmission still waits, or it has sent the whole frame. -/
theorem Session.send_calm (type : MessageType) {payload : List UInt8}
    (hlt : payload.length ≤ 0xFFFFFFFF) (hcalm : Calm s.turns) :
    Calm (s.send type payload).2.turns ∧
      ((s.send type payload).1 = none ∨ ∃ turns, s.send type payload =
        (some .success, { s with sent := s.sent ++ frameBytes type payload, turns })) := by
  refine ⟨hcalm.of_suffix (sendFrame_turns type payload s.turns), ?_⟩
  have hsends := s.send_adds type payload
  have hstatus : (s.send type payload).1 = none ∨ (s.send type payload).1 = some .success :=
    sendFrame_calm hlt hcalm
  generalize s.send type payload = result at hsends hstatus ⊢
  cases hsends with
  | whole turns => exact .inr ⟨turns, rfl⟩
  | cut status hrefused =>
    refine hstatus.imp_right fun hsuccess => ?_
    exact absurd (hrefused .success hsuccess) (by decide)

/-- The greeting of a session whose socket does not fail. -/
theorem Session.greet_unhurried (hphase : s.phase = .greeting)
    (h : s.Holds options challenge requests outcomes) (hcalm : Calm s.turns) :
    (s.greet options challenge).2.Unhurried options challenge requests outcomes := by
  obtain ⟨rfl, -, hleft, hsent, -, -⟩ := h.greeting hphase
  have harrives := recvFrame_arrives options.maxFramePayloadBytes s.left s.turns
  have hturns := hcalm.of_suffix (recvFrame_turns options.maxFramePayloadBytes s.left s.turns)
  have hover : ∀ (left : List UInt8) {turns : List Turn} (phase : Phase), Calm turns →
      (phase = .ended → ¬ Welcome options s.left) →
      ({ s with left, turns, phase } : Session).Unhurried options challenge [] outcomes := by
    intro left turns phase hrest hunwelcome
    refine ⟨hrest, fun hended => .unwelcome ?_ rfl hsent⟩
    show ¬ Welcome options s.peer
    rw [← hleft]
    exact hunwelcome hended
  unfold Session.greet Session.receive
  simp only
  generalize recvFrame options.maxFramePayloadBytes s.left s.turns = arrival at harrives hturns ⊢
  cases harrives with
  | waiting left turns => exact hover left .waiting hturns (by simp)
  | closed left turns hend =>
    simp only [Bool.or_true, Bool.true_or, if_true]
    refine hover left .ended hturns fun _ hwelcome => ?_
    obtain ⟨-, payload, rest, m, -, -, hpeer, -⟩ := hwelcome
    exact frameless_of_closed hend _ _ _ hpeer
  | refused status left turns hrefused _ hnone =>
    simp only [hrefused, Bool.not_false, Bool.true_or, if_true]
    refine hover left .ended hturns fun _ hwelcome => ?_
    obtain ⟨-, payload, rest, m, hmax, hlt, hpeer, -⟩ := hwelcome
    exact frameless_of_refused hnone _ _ hmax hlt hpeer
  | broken status left turns _ hbreaks =>
    obtain ⟨turn, hturn, hbreak⟩ := hbreaks
    rw [hcalm turn hturn] at hbreak
    exact absurd hbreak (by decide)
  | frame type payload left turns hmax hlt hdata =>
  -- a Hello in front is the frame that was received
  have hfront : Welcome options s.left → type = .hello ∧ ∃ m, decodeHello payload = .ok m := by
    rintro ⟨-, payload', rest, m, -, hlt', hpeer, hm⟩
    obtain ⟨hsame, -⟩ := frameBytes_inj hlt hlt' (hdata.symm.trans hpeer)
    obtain ⟨rfl, rfl⟩ := Prod.mk.inj hsame
    exact ⟨rfl, m, hm⟩
  simp only [Status.ok_success, Bool.not_true, Bool.or_self, Bool.false_or, decide_eq_true_eq]
  split_ifs with htype
  · refine hover left .ended hturns fun _ hwelcome => htype ?_
    rw [(hfront hwelcome).1]
  obtain rfl : type = .hello := by simpa using htype
  cases hhello : decodeHello payload with
  | error status =>
    refine hover left .ended hturns fun _ hwelcome => ?_
    obtain ⟨-, m, hm⟩ := hfront hwelcome
    rw [hhello] at hm
    exact absurd hm (by simp)
  | ok hello =>
  simp only
  cases hack : encodeHelloAck (Session.ackMessage options challenge s.id) with
  | error status =>
    refine hover left .ended hturns fun _ hwelcome => ?_
    unfold encodeHelloAck at hack
    simp only at hack
    split_ifs at hack with hlong
    exact absurd hwelcome.1 (Nat.not_le.mpr hlong)
  | ok ack =>
  obtain ⟨hrest, hsend⟩ := Session.send_calm (s := { s with left, turns }) .helloAck
    (length_ack_le hack) hturns
  simp only
  -- the worker waits, or goes on to its loop
  rcases hsend with hnone | ⟨turns', hwhole⟩
  · rw [hnone]
    exact ⟨hrest, fun hended => absurd hended (by simp [Session.goOn])⟩
  · rw [hwhole] at hrest ⊢
    exact ⟨hrest, fun hended => absurd hended (by simp [Session.goOn])⟩

/-- Turning the peer down, over a socket that does not fail. -/
theorem Session.turnDown_unhurried (h : InStep options challenge s requests outcomes)
    (hdone : Done options s.left requests) {J : Type} [Journal J] (e : CreditEngine J)
    (reason : Reason) (detail : UInt64) (left : List UInt8) {turns : List Turn}
    (hcalm : Calm turns) :
    (Session.turnDown { s with left, turns } e reason detail).session.Unhurried options
      challenge requests outcomes := by
  have hframes : answerFrames options challenge s.id outcomes _ = _ :=
    answerFrames_refusal s.id (Connection.refusalOutcome reason detail)
  have hrefusal : Refuses (some (Connection.refusalOutcome reason detail)) := by
    intro o ho
    rw [← Option.some.inj ho]
    exact ⟨rfl, rfl⟩
  unfold Session.turnDown
  generalize Connection.refusalOutcome reason detail = refusal at hframes hrefusal ⊢
  obtain ⟨hrest, hsend⟩ := Session.send_calm (s := { s with left, turns }) .response
    (length_response_le refusal) hcalm
  simp only
  generalize { s with left, turns }.send .response (encodeResponseMessage refusal) = result
    at hrest hsend ⊢
  obtain ⟨status, s'⟩ := result
  rcases hsend with rfl | ⟨turns', hwhole⟩
  · exact ⟨hrest, fun hended => absurd (show Phase.waiting = .ended from hended) (by decide)⟩
  · rw [hwhole] at hrest ⊢
    refine ⟨hrest, fun _ => .welcome h.welcome s.left h.heard hdone (some refusal) hrefusal ?_⟩
    show s.sent ++ _ = bytesOf (answerFrames options challenge s.id _ _)
    rw [hframes, h.said, bytesOf_concat]

/-- Answering a request, over a socket that does not fail. -/
theorem Session.answer_unhurried (h : InStep options challenge s requests outcomes)
    {J : Type} [Journal J] (e : CreditEngine J) {payload left : List UInt8} {turns : List Turn}
    (hcalm : Calm turns) {r : CreditRequest}
    (hleft : s.left = frameBytes .request payload ++ left)
    (hr : decodeRequestMessage payload options.maxNoteBytes = .ok r) :
    (Session.answer options { s with left, turns } e r).session.Unhurried options challenge
      (requests ++ [r]) (outcomes ++ [(e.apply r).1]) := by
  have heard := h.heard.more hleft hr
  unfold Session.answer
  generalize e.apply r = applied
  have hframes : answerFrames options challenge s.id (outcomes ++ [applied.1]) none = _ :=
    answerFrames_concat s.id applied.1
  obtain ⟨hrest, hsend⟩ := Session.send_calm
    (s := { s with left, turns, served := s.served + 1 }) .response
    (length_response_le applied.1) hcalm
  simp only
  generalize { s with left, turns, served := s.served + 1 }.send .response
    (encodeResponseMessage applied.1) = result at hrest hsend ⊢
  obtain ⟨status, s'⟩ := result
  rcases hsend with rfl | ⟨turns', hwhole⟩
  · exact ⟨hrest, fun hended => absurd (show Phase.waiting = .ended from hended) (by decide)⟩
  · rw [hwhole] at hrest ⊢
    refine ⟨hrest, fun hended => .welcome h.welcome left heard (.inr ?_) none refuses_none ?_⟩
    · -- it ends at its bound only
      simp only [Session.goOn, Status.ok_success, Bool.not_true, Bool.false_eq_true,
        if_false] at hended
      split_ifs at hended with hfull
      obtain ⟨hserved, hbelow⟩ := h.bounded hfull.1
      have hreached := UInt64.le_iff_toNat_le.mp hfull.2
      rw [toNat_served hserved hbelow] at hreached
      refine ⟨hfull.1, ?_⟩
      rw [List.length_append, List.length_singleton]
      omega
    · show s.sent ++ _ = bytesOf (answerFrames options challenge s.id _ _)
      rw [hframes, h.said, bytesOf_concat]

/-- What one turn of the loop body adds to the answers. -/
def outcomesOf {J : Type} [Journal J] (e : CreditEngine J) (request : Option CreditRequest) :
    List CreditOutcome :=
  (request.map fun r => (e.apply r).1).toList

/-- One turn of serving, over a socket that does not fail. -/
theorem Session.serve_unhurried (hphase : s.phase = .serving)
    (h : s.Holds options challenge requests outcomes) (hcalm : Calm s.turns) {J : Type} [Journal J]
    (e : CreditEngine J) :
    (s.serve options e).session.Unhurried options challenge
      (requests ++ (s.serve options e).request.toList)
      (outcomes ++ outcomesOf e (s.serve options e).request) := by
  replace h := h.serving hphase
  have harrives := recvFrame_arrives options.maxFramePayloadBytes s.left s.turns
  have hturns := hcalm.of_suffix (recvFrame_turns options.maxFramePayloadBytes s.left s.turns)
  -- the ends with no answer: what is left starts with no request
  have hover : ∀ (left : List UInt8) {turns : List Turn} (phase : Phase), Calm turns →
      (phase = .ended → Done options s.left requests) →
      ({ s with left, turns, phase } : Session).Unhurried options challenge (requests ++ [])
        (outcomes ++ []) := by
    intro left turns phase hrest hdone
    rw [List.append_nil, List.append_nil]
    exact ⟨hrest, fun hended =>
      .welcome h.welcome s.left h.heard (hdone hended) none refuses_none h.said⟩
  have hdown : ∀ (reason : Reason) (detail : UInt64) (left : List UInt8) {turns : List Turn},
      Calm turns → Done options s.left requests →
      (Session.turnDown { s with left, turns } e reason detail).session.Unhurried options
        challenge (requests ++ []) (outcomes ++ []) := by
    intro reason detail left turns hrest hdone
    rw [List.append_nil, List.append_nil]
    exact Session.turnDown_unhurried h hdone e reason detail left hrest
  unfold Session.serve Session.receive
  simp only
  generalize recvFrame options.maxFramePayloadBytes s.left s.turns = arrival at harrives hturns ⊢
  cases harrives with
  | waiting left turns => exact hover left .waiting hturns (by simp)
  | closed left turns hend =>
    simp only [if_true]
    exact hover left .ended hturns fun _ => .inl fun payload rest r _ _ hleft =>
      absurd hleft (frameless_of_closed hend _ _ _)
  | refused status left turns hrefused _ hnone =>
    simp only [hrefused, Bool.not_false, if_true, Bool.false_eq_true, if_false]
    exact hover left .ended hturns fun _ => .inl fun payload rest r hmax hlt hleft =>
      absurd hleft (frameless_of_refused hnone _ _ hmax hlt)
  | broken status left turns _ hbreaks =>
    obtain ⟨turn, hturn, hbreak⟩ := hbreaks
    rw [hcalm turn hturn] at hbreak
    exact absurd hbreak (by decide)
  | frame type payload left turns hmax hlt hdata =>
  have hfront : ∀ {type' : MessageType} {payload' rest : List UInt8},
      payload'.length ≤ 0xFFFFFFFF → s.left = frameBytes type' payload' ++ rest →
      type = type' ∧ payload = payload' := by
    intro type' payload' rest hlt' hleft
    obtain ⟨hsame, -⟩ := frameBytes_inj hlt hlt' (hdata.symm.trans hleft)
    exact Prod.mk.inj hsame
  simp only [Status.ok_success, Bool.not_true, Bool.false_eq_true, if_false]
  split_ifs with hbye hother
  · refine hover left .ended hturns fun _ => .inl fun payload' rest r _ hlt' hleft _ => ?_
    rw [(hfront hlt' hleft).1] at hbye
    exact absurd hbye (by decide)
  · refine hdown _ _ left hturns (.inl fun payload' rest r _ hlt' hleft _ => hother ?_)
    rw [(hfront hlt' hleft).1]
  obtain rfl : type = .request := by simpa using hother
  cases hr : decodeRequestMessage payload options.maxNoteBytes with
  | error status =>
    refine hdown _ _ left hturns (.inl fun payload' rest r _ hlt' hleft hr' => ?_)
    rw [← (hfront hlt' hleft).2, hr] at hr'
    exact absurd hr' (by simp)
  | ok r => exact Session.answer_unhurried h e hturns hdata hr

end Complete

namespace Coordinator

open Lib

variable {J : Type} [Journal J] {options : SessionOptions} {e : CreditEngine J}
  {log : List (Nat × CreditRequest)} {c : Coordinator J}

/-- Nobody stops a worker, and no socket fails. -/
def Event.Unhurried : Event → Prop
  | .arrived _ turns => Calm turns
  | .turn _ => True
  | .stopped _ => False

/-- No worker has ended without having served what it should. -/
def Complete (options : SessionOptions) (e : CreditEngine J) (log : List (Nat × CreditRequest))
    (c : Coordinator J) : Prop :=
  ∀ (place : Nat) (s : Session), c.sessions[place]? = some s →
    s.Unhurried options e.challenge.nonce (callsOf place log)
      (answersOf CreditEngine.apply e place log)

/-- One session moves and the others stand. -/
theorem Complete.update (h : Complete options e log c) {place : Nat} {s : Session}
    {log' : List (Nat × CreditRequest)}
    (hs : s.Unhurried options e.challenge.nonce (callsOf place log')
      (answersOf CreditEngine.apply e place log'))
    (hlog : ∀ place', place' ≠ place → callsOf place' log' = callsOf place' log ∧
      answersOf CreditEngine.apply e place' log' = answersOf CreditEngine.apply e place' log)
    (engine : CreditEngine J) (served malformed : UInt64) :
    Complete options e log' { c.update place s with engine, served, malformed } := by
  intro place' s' hs'
  replace hs' : (c.sessions.set place s)[place']? = some s' := hs'
  by_cases hplace : place = place'
  · subst hplace
    by_cases hlt : place < c.sessions.length
    · rw [List.getElem?_set_self hlt, Option.some.injEq] at hs'
      rwa [← hs']
    · rw [List.getElem?_eq_none (by rw [List.length_set]; omega)] at hs'
      exact absurd hs' (by simp)
  · rw [List.getElem?_set_ne hplace] at hs'
    rw [(hlog place' (Ne.symm hplace)).1, (hlog place' (Ne.symm hplace)).2]
    exact h place' s' hs'

/-- **One step.** -/
theorem Complete.step (h : Complete options e log c) (hlinear : Linear options e log c)
    {event : Event} (hevent : event.Unhurried) :
    Complete options e (log ++ (c.step event).1.toList) (c.step event).2 := by
  cases event with
  | stopped place => exact hevent.elim
  | arrived peer turns =>
    unfold Coordinator.step
    simp only
    generalize c.server.acceptConnection = result
    obtain ⟨reception, server⟩ := result
    cases reception with
    | turnedAway type payload =>
      simp only [Option.toList_none, List.append_nil]
      exact h
    | served id =>
      simp only [Option.toList_none, List.append_nil]
      intro place s hs
      by_cases hold : place < c.sessions.length
      · rw [List.getElem?_append_left hold] at hs
        exact h place s hs
      obtain ⟨hlt, hget⟩ := List.getElem?_eq_some_iff.mp hs
      rw [List.length_append, List.length_singleton] at hlt
      obtain rfl : place = c.sessions.length := by omega
      rw [List.getElem_concat_length rfl] at hget
      -- the new worker has not ended
      rw [← hget]
      exact ⟨hevent, fun hended =>
        absurd (show Phase.greeting = .ended from hended) (by decide)⟩
  | turn place =>
    unfold Coordinator.step
    simp only
    cases hs : c.sessions[place]? with
    | none =>
      simp only [Option.toList_none, List.append_nil]
      exact h
    | some s =>
    have hholds := hlinear.sessions place s hs
    have hcalm := (h place s hs).calm
    simp only
    cases hphase : s.phase with
    | ended =>
      simp only [Option.toList_none, List.append_nil]
      exact h
    | waiting =>
      simp only [Option.toList_none, List.append_nil]
      exact h
    | greeting =>
      simp only [Option.toList_none, List.append_nil]
      rw [hlinear.config, hlinear.challenge]
      exact h.update (Session.greet_unhurried hphase hholds hcalm) (fun _ _ => ⟨rfl, rfl⟩) _ _ _
    | serving =>
      simp only
      rw [hlinear.config]
      refine h.update ?_ (fun place' hplace => ?_) _ _ _
      · have hnext := Session.serve_unhurried hphase hholds hcalm c.engine
        cases hrequest : (s.serve options c.engine).request with
        | none =>
          rw [hrequest] at hnext
          simpa [outcomesOf] using hnext
        | some r =>
          rw [hrequest, outcomesOf, Option.map_some, Option.toList_some, Option.toList_some,
            hlinear.engine] at hnext
          rw [Option.map_some, Option.toList_some, callsOf_concat_self, answersOf_concat_self]
          rw [hlinear.engine] at hrequest ⊢
          exact hnext
      · cases (s.serve options c.engine).request with
        | none =>
          rw [Option.map_none, Option.toList_none, List.append_nil]
          exact ⟨rfl, rfl⟩
        | some r =>
          rw [Option.map_some, Option.toList_some, callsOf_concat_other _ (Ne.symm hplace),
            answersOf_concat_other _ _ _ (Ne.symm hplace)]
          exact ⟨rfl, rfl⟩

/-- **No request is skipped.**  While no socket fails and nobody stops a worker, a session that
    has ended has served every request up to the first bytes that are none, or as many as it
    may, and its peer has been sent all the answers.  A peer that does not start with a valid
    Hello was served and sent nothing. -/
theorem sessions_complete (options : SessionOptions) (connections : CoordinatorOptions)
    (e : CreditEngine J) {events : List Event} (h : ∀ event ∈ events, event.Unhurried)
    {place : Nat} {s : Session}
    (hs : (final step (start options connections e) events).sessions[place]? = some s)
    (hended : s.phase = .ended) :
    Finished options.make e.challenge.nonce s
      (callsOf place ((start options connections e).log events))
      (answersOf CreditEngine.apply e place ((start options connections e).log events)) := by
  have hcomplete : Complete options.make e ((start options connections e).log events)
      (final step (start options connections e) events) := by
    clear hs
    induction events using List.reverseRecOn with
    | nil =>
      intro place s hs
      exact absurd (show (none : Option Session) = some s from hs) (by simp)
    | append_singleton events event ih =>
      rw [log_concat, final_concat]
      exact (ih fun event hevent => h event (List.mem_append_left _ hevent)).step
        (linear_final options connections e events)
        (h event (List.mem_append_right _ (List.mem_singleton_self event)))
  exact (hcomplete place s hs).finished hended

/-! ### A kernel that moves frames whole -/

/-- A handshake whose frames the kernel moves whole. -/
theorem greet_piece {options : SessionOptions} {challenge : Digest128} {s : Session}
    {hello left ack : List UInt8} {m : HelloMessage} {more : Nat} {turns : List Turn}
    (hleft : s.left = frameBytes .hello hello ++ left)
    (hturns : s.turns = .moves more :: .moves more :: .moves more :: turns)
    (hmax : hello.length ≤ options.maxFramePayloadBytes) (hlt : hello.length ≤ 0xFFFFFFFF)
    (hhello : decodeHello hello = .ok m)
    (hack : encodeHelloAck (Session.ackMessage options challenge s.id) = .ok ack)
    (hmore : 16 + hello.length ≤ more + 1) (hmore' : 16 + ack.length ≤ more + 1) :
    s.greet options challenge =
      (false, { s with left, turns, sent := s.sent ++ frameBytes .helloAck ack
                       phase := .serving }) := by
  unfold Session.greet Session.receive
  rw [hleft, hturns, recvFrame_piece hmax hlt hmore]
  simp only [Status.ok_success, Bool.not_true, Bool.or_self, ne_eq, not_true_eq_false,
    decide_false, Bool.false_eq_true, if_false]
  rw [hhello]
  simp only
  rw [hack]
  simp only [Session.send]
  rw [sendFrame_piece (length_ack_le hack) hmore']
  rfl

/-- The same of a request and its response. -/
theorem serve_piece {options : SessionOptions} {s : Session} {r : CreditRequest}
    {left : List UInt8} {more : Nat} {turns : List Turn}
    (hleft : s.left = frameBytes .request (encodeRequestMessage r) ++ left)
    (hturns : s.turns = .moves more :: .moves more :: .moves more :: turns)
    (hmax : (encodeRequestMessage r).length ≤ options.maxFramePayloadBytes)
    (hlt : (encodeRequestMessage r).length ≤ 0xFFFFFFFF)
    (hr : decodeRequestMessage (encodeRequestMessage r) options.maxNoteBytes = .ok r)
    (hmany : options.maxRequestsPerConnection = 0)
    (hmore : 16 + (encodeRequestMessage r).length ≤ more + 1) (hmore' : 183 ≤ more + 1)
    (e : CreditEngine J) :
    s.serve options e =
      { session :=
          { s with left, turns, served := s.served + 1
                   sent := s.sent ++
                     frameBytes .response (encodeResponseMessage (e.apply r).1)
                   phase := .serving }
        engine := (e.apply r).2, request := some r } := by
  have hresponse : 16 + (encodeResponseMessage (e.apply r).1).length ≤ more + 1 := by
    unfold encodeResponseMessage
    rw [length_encodeOutcomeBody]
    exact hmore'
  unfold Session.serve Session.receive
  rw [hleft, hturns, recvFrame_piece hmax hlt hmore]
  simp only [Status.ok_success, Bool.not_true, Bool.false_eq_true, if_false]
  rw [if_neg (by decide), if_neg (by decide)]
  rw [hr]
  simp only [Session.answer, Session.send]
  rw [sendFrame_piece (length_response_le _) hresponse, hmany]
  rfl

/-- A request whose frame the worker accepts, and the kernel moves at one turn. -/
def Passes (options : SessionOptions) (more : Nat) (r : CreditRequest) : Prop :=
  (encodeRequestMessage r).length ≤ options.maxFramePayloadBytes ∧
  (encodeRequestMessage r).length ≤ 0xFFFFFFFF ∧
  decodeRequestMessage (encodeRequestMessage r) options.maxNoteBytes = .ok r ∧
  16 + (encodeRequestMessage r).length ≤ more + 1

/-- What a peer sends behind its Hello: some requests and a Bye. -/
def requestsAndBye (rs : List CreditRequest) : List UInt8 :=
  bytesOf (rs.map (fun r => (.request, encodeRequestMessage r)) ++ [(.bye, [])])

/-- The worker serves one request a turn and ends behind the Bye. -/
theorem turns_serve {more : Nat} (hmore : 183 ≤ more + 1) (place : Nat) (rs : List CreditRequest)
    (c : Coordinator J) {s : Session} (hs : c.sessions[place]? = some s)
    (hphase : s.phase = .serving) (hleft : s.left = requestsAndBye rs)
    (hturns : s.turns = List.replicate (3 * rs.length + 2) (.moves more))
    (hmany : c.options.maxRequestsPerConnection = 0) (hpass : ∀ r ∈ rs, Passes c.options more r) :
    (final step c (List.replicate (rs.length + 1) (.turn place))).sessions[place]?.map
        Session.phase = some .ended ∧
      (answers step c (List.replicate (rs.length + 1) (.turn place))).filterMap id =
        rs.map fun r => (place, r) := by
  have hplace := (List.getElem?_eq_some_iff.mp hs).1
  induction rs generalizing c s with
  | nil =>
    -- the Bye
    have hserve : s.serve c.options c.engine =
        { session := { s with left := [], turns := [], phase := .ended }, engine := c.engine } := by
      have hbye : s.left = frameBytes .bye [] ++ [] := hleft
      unfold Session.serve Session.receive
      rw [hbye, show s.turns = [.moves more, .moves more] from hturns,
        recvFrame_piece (Nat.zero_le _) (Nat.zero_le _) (by show 16 + 0 ≤ _; omega)]
      rfl
    rw [show List.replicate (([] : List CreditRequest).length + 1) (Event.turn place) =
      [.turn place] from rfl]
    unfold Lib.answers Lib.answers
    rw [final_cons, final_nil, step, hs]
    simp only [hphase, hserve]
    refine ⟨?_, rfl⟩
    show (c.sessions.set place _)[place]?.map Session.phase = _
    rw [List.getElem?_set_self hplace]
    rfl
  | cons r rs ih =>
    obtain ⟨hmax, hlt, hr, hfits⟩ := hpass r List.mem_cons_self
    have hserve : s.serve c.options c.engine =
        { session :=
            { s with left := requestsAndBye rs, served := s.served + 1
                     turns := List.replicate (3 * rs.length + 2) (.moves more)
                     sent := s.sent ++
                       frameBytes .response (encodeResponseMessage (c.engine.apply r).1)
                     phase := .serving }
          engine := (c.engine.apply r).2, request := some r } :=
      serve_piece hleft hturns hmax hlt hr hmany hfits hmore c.engine
    generalize hnext : ({ s with
      left := requestsAndBye rs, turns := List.replicate (3 * rs.length + 2) (.moves more)
      served := s.served + 1
      sent := s.sent ++ frameBytes .response (encodeResponseMessage (c.engine.apply r).1)
      phase := .serving } : Session) = s' at hserve
    have hstep : c.step (.turn place) = (some (place, r),
        { c.update place s' with
          engine := (c.engine.apply r).2, served := c.served + 1, malformed := c.malformed }) := by
      unfold step
      simp only
      rw [hs]
      simp only [hphase, hserve]
      rfl
    generalize hafter : { c.update place s' with
      engine := (c.engine.apply r).2, served := c.served + 1, malformed := c.malformed } = c'
      at hstep
    have hset : c'.sessions = c.sessions.set place s' := by
      rw [← hafter]
      rfl
    have hoptions : c'.options = c.options := by
      rw [← hafter]
      rfl
    have hrest := ih c' (s := s') (by rw [hset, List.getElem?_set_self hplace])
      (by rw [← hnext]) (by rw [← hnext]) (by rw [← hnext]) (by rw [hoptions]; exact hmany)
      (fun r' hr' => hoptions ▸ hpass r' (List.mem_cons_of_mem r hr'))
      (by rw [hset, List.length_set]; exact hplace)
    rw [List.length_cons, List.replicate_succ, final_cons, hstep]
    unfold Lib.answers
    rw [hstep]
    refine ⟨hrest.1, ?_⟩
    show (place, r) :: (answers step c' _).filterMap id = _
    rw [hrest.2]
    rfl

/-- **A session comes to its end.**  Where the kernel moves each frame whole, the worker of a peer
    that says Hello, asks and says Bye serves all of its requests and ends. -/
theorem turns_finish (connections : CoordinatorOptions) {options : SessionOptions}
    (hmany : options.maxRequestsPerConnection = 0) (e : CreditEngine J)
    {hello ack : List UInt8} {m : HelloMessage} {more : Nat}
    (hmax : hello.length ≤ options.make.maxFramePayloadBytes) (hlt : hello.length ≤ 0xFFFFFFFF)
    (hhello : decodeHello hello = .ok m)
    (hack : encodeHelloAck (Session.ackMessage options.make e.challenge.nonce 1) = .ok ack)
    (hmore : 183 ≤ more + 1) (hfits : 16 + hello.length ≤ more + 1)
    (hfits' : 16 + ack.length ≤ more + 1) {rs : List CreditRequest}
    (hpass : ∀ r ∈ rs, Passes options.make more r) :
    (final step (start options connections e)
        (.arrived (frameBytes .hello hello ++ requestsAndBye rs)
          (List.replicate (3 * rs.length + 5) (.moves more)) ::
        List.replicate (rs.length + 2) (.turn 0))).sessions[0]?.map Session.phase = some .ended ∧
      (start options connections e).log
        (.arrived (frameBytes .hello hello ++ requestsAndBye rs)
          (List.replicate (3 * rs.length + 5) (.moves more)) ::
        List.replicate (rs.length + 2) (.turn 0)) = rs.map fun r => (0, r) := by
  generalize hpeer : frameBytes .hello hello ++ requestsAndBye rs = peer
  generalize hturns : List.replicate (3 * rs.length + 5) (Turn.moves more) = turns
  -- the connection arrives
  obtain ⟨server, harrived⟩ : ∃ server, (start options connections e).step (.arrived peer turns) =
      (none, { start options connections e with
        server, sessions := [{ id := 1, peer, left := peer, turns }] }) := by
    unfold step CoordinatorServer.acceptConnection
    simp only
    rw [if_neg]
    · exact ⟨_, rfl⟩
    · show ¬ 0 ≥ (if connections.maxConnections = 0 then 1 else connections.maxConnections)
      split_ifs <;> omega
  -- the handshake
  have hgreet : Session.greet options.make e.challenge.nonce { id := 1, peer, left := peer, turns }
      = (false, { id := 1, peer, left := requestsAndBye rs, sent := [] ++ frameBytes .helloAck ack
                  turns := List.replicate (3 * rs.length + 2) (.moves more), phase := .serving }) :=
    greet_piece hpeer.symm hturns.symm hmax hlt hhello hack hfits hfits'
  generalize hnext : ({ id := 1, peer, left := requestsAndBye rs
                        sent := [] ++ frameBytes .helloAck ack
                        turns := List.replicate (3 * rs.length + 2) (.moves more)
                        phase := .serving } : Session) = s at hgreet
  generalize hc : ({ start options connections e with
    server, sessions := [{ id := 1, peer, left := peer, turns }] } : Coordinator J) = c at harrived
  have hgreeted : c.step (.turn 0) = (none, { c.update 0 s with malformed := c.malformed }) := by
    rw [← hc]
    unfold step
    simp only [List.getElem?_cons_zero]
    rw [show (start options connections e).options = options.make from rfl,
      show (start options connections e).engine = e from rfl, hgreet]
    rfl
  generalize hc' : { c.update 0 s with malformed := c.malformed } = c' at hgreeted
  have hsessions : c'.sessions = [s] := by
    rw [← hc', ← hc]
    rfl
  have hoptions : c'.options = options.make := by
    rw [← hc', ← hc]
    rfl
  have hrest := turns_serve hmore 0 rs c' (s := s) (by rw [hsessions]; rfl) (by rw [← hnext])
    (by rw [← hnext]) (by rw [← hnext]) (by rw [hoptions]; exact hmany)
    (fun r hr => hoptions ▸ hpass r hr)
  rw [List.replicate_succ, final_cons, harrived, final_cons, hgreeted]
  refine ⟨hrest.1, ?_⟩
  unfold log Lib.answers Lib.answers
  rw [harrived]
  simp only
  rw [hgreeted]
  exact hrest.2


namespace Farewell

/-- The challenge's nonce. -/
def nonce : Digest128 := ⟨5, 5⟩

/-- An engine over an empty journal. -/
def engine : CreditEngine InMemoryJournal := Fixture.boot {} {} nonce

/-- The peer's first request. -/
def opening : CreditRequest := Fixture.request nonce Fixture.me .open_ 1

/-- Its second. -/
def issuing : CreditRequest := Fixture.request nonce Fixture.me .issue 2

/-- The bytes of its Hello. -/
def hello : List UInt8 := (encodeHello { publisher := 1, boot := 1 }).toOption.getD []

/-- A Hello, two requests and a Bye. -/
def peer : List UInt8 := frameBytes .hello hello ++ requestsAndBye [opening, issuing]

/-- The peer arrives, and its worker goes round four times. -/
def events : List Event :=
  .arrived peer (List.replicate 11 (.moves 400)) :: List.replicate 4 (.turn 0)

/-- No event of the history fails a socket. -/
theorem events_unhurried : ∀ event ∈ events, event.Unhurried := by
  intro event hevent
  rcases List.mem_cons.mp hevent with rfl | hevent
  · intro turn hturn
    rw [List.eq_of_mem_replicate hturn]
    rfl
  · rw [List.eq_of_mem_replicate hevent]
    exact trivial

/-- Both requests pass through the session's buffers. -/
theorem passes {r : CreditRequest} (hr : r ∈ [opening, issuing]) :
    Passes (SessionOptions.make {}) 400 r := by
  have hnote : ∀ r ∈ [opening, issuing], r.note = [] := by decide
  have hlength : ∀ r ∈ [opening, issuing], (encodeRequestMessage r).length ≤ 384 := by
    decide +kernel
  have hle := hlength r hr
  refine ⟨Nat.le_trans hle (by decide), Nat.le_trans hle (by decide), ?_, by omega⟩
  exact decodeRequestMessage_encode (by rw [hnote r hr]; decide) (by rw [hnote r hr]; decide)

/-- The Hello reads back. -/
theorem hello_decoded : ∃ m, decodeHello hello = .ok m := by
  refine ⟨{ publisher := 1, boot := 1 }, ?_⟩
  decide +kernel

/-- The bytes of the acknowledgement. -/
def ack : List UInt8 :=
  (encodeHelloAck (Session.ackMessage (SessionOptions.make {}) engine.challenge.nonce
    1)).toOption.getD []

/-- The acknowledgement is written and fits. -/
theorem hello_acknowledged :
    encodeHelloAck (Session.ackMessage (SessionOptions.make {}) engine.challenge.nonce 1) =
      .ok ack ∧ ack.length ≤ 384 := by
  decide +kernel

/-- The worker has ended behind the Bye, with two requests served and answered. -/
theorem bye_finished : ∃ s, (final step (start {} {} engine) events).sessions[0]? = some s ∧
    Finished (SessionOptions.make {}) engine.challenge.nonce s [opening, issuing]
      (answersOf CreditEngine.apply engine 0 [(0, opening), (0, issuing)]) := by
  obtain ⟨m, hhello⟩ := hello_decoded
  obtain ⟨hack, hshort⟩ := hello_acknowledged
  have hlength : hello.length ≤ 384 := by
    decide +kernel
  obtain ⟨hphase, hlog⟩ := turns_finish {} rfl engine (Nat.le_trans hlength (by decide))
    (Nat.le_trans hlength (by decide)) hhello hack (by decide)
    (show 16 + hello.length ≤ 400 + 1 by omega) (by omega)
    fun r (hr : r ∈ [opening, issuing]) => passes hr
  obtain ⟨s, hs, hended⟩ := Option.map_eq_some_iff.mp hphase
  have hfinished := sessions_complete {} {} engine events_unhurried hs hended
  rw [show (start {} {} engine).log events = [(0, opening), (0, issuing)] from hlog] at hfinished
  exact ⟨s, hs, hfinished⟩

end Farewell

end Coordinator

end CreditFabric
