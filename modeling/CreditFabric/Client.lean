import CreditFabric.Messages
import CreditFabric.Run

namespace CreditFabric

/-!
# The callers of an engine

Two callers drive an engine for an application: `CoordinatorClient` over a connection to a
coordinator, and `LocalSession` in the process of the engine.  Both place their attempts
themselves, ask for a reconciliation when the engine demands one, and try again.

Neither is alone.  Other callers have requests decided between any two calls made here, and a
connection can fail at every frame; both are part of the state a caller works on, so a
statement for every such state is a statement for every interleaving and every failure.
-/

/-! ### Attempt identities -/

/-- `AttemptIdGenerator`: a seed, and a counter that every id advances. -/
structure AttemptIdGenerator where
  streamSeed : UInt64
  counter : UInt64 := 0
deriving DecidableEq, Repr

/-- The identity with a given number in the stream of a seed.  Zero means "unset" and is never
    issued. -/
def AttemptIdGenerator.issued (streamSeed counter : UInt64) : AttemptId :=
  let a := mix64 (streamSeed ^^^ (counter * 0x9E3779B97F4A7C15))
  let b := avalanch64 (a + counter + streamSeed)
  let id : AttemptId := ⟨a, b⟩
  if id.isZero then ⟨1, id.hi⟩ else id

/-- `AttemptIdGenerator::next`. -/
def AttemptIdGenerator.next (g : AttemptIdGenerator) : AttemptId × AttemptIdGenerator :=
  let counter := g.counter + 1
  (issued g.streamSeed counter, { g with counter })

/-! ### An engine with other callers -/

/-- An engine that others use too.  `waiting` has their requests, in the batches that get in
    front of each call made here, and `calls` the calls made here, each with the engine it
    met. -/
structure SharedEngine (J : Type) where
  engine : CreditEngine J
  waiting : List (List CreditRequest) := []
  calls : List (CreditEngine J × CreditRequest) := []

namespace SharedEngine

variable {J : Type} [Journal J]

/-- The next batch of the others gets in. -/
def letIn (s : SharedEngine J) : SharedEngine J :=
  { s with engine := s.engine.run (s.waiting.headD []), waiting := s.waiting.tail }

/-- One call, behind the others that got in. -/
def apply (s : SharedEngine J) (r : CreditRequest) : CreditOutcome × SharedEngine J :=
  let s := s.letIn
  let (outcome, engine) := s.engine.apply r
  (outcome, { s with engine, calls := s.calls ++ [(s.engine, r)] })

end SharedEngine

/-! ### A connection -/

/-- What becomes of one exchange.  A failed one is seen by the client as `failure`, or, when
    its socket reports none, as the closed connection it then is. -/
inductive Delivery where
  /-- Request and response arrive. -/
  | whole
  /-- The request does not reach the coordinator. -/
  | requestLost (failure : Status)
  /-- The coordinator serves the request and the response does not arrive. -/
  | responseLost (failure : Status)
deriving DecidableEq, Repr

/-- A connection to a coordinator: the engine behind it, the note bound of its options, whether
    the worker of the connection still serves, and what becomes of the exchanges to come. -/
structure Connection (J : Type) where
  server : SharedEngine J
  maxNoteBytes : Nat
  serving : Bool := true
  deliveries : List Delivery := []

namespace Connection

/-- The answer to a request that is not decoded. -/
def refusalOutcome (reason : Reason) (detail : UInt64) : CreditOutcome :=
  { status := .refused reason detail }

variable {J : Type} [Journal J]

/-- The loop body of `serve_connection`.  A request that does not decode is answered and the
    connection closed. -/
def serve (c : Connection J) (payload : List UInt8) : List UInt8 × Connection J :=
  match decodeRequestMessage payload c.maxNoteBytes with
  | .error status =>
    (encodeResponseMessage (refusalOutcome status.reason status.detail),
      { c with serving := false })
  | .ok request =>
    let (outcome, server) := c.server.apply request
    (encodeResponseMessage outcome, { c with server })

/-- Send a request frame and receive the response frame. -/
def transfer (c : Connection J) (payload : List UInt8) :
    Except Status (List UInt8) × Connection J :=
  let delivery := c.deliveries.headD .whole
  let c := { c with deliveries := c.deliveries.tail }
  if !c.serving then (.error (.refused .transportError 22), c) else
  match delivery with
  | .whole =>
    let (response, c) := c.serve payload
    (.ok response, c)
  | .requestLost failure =>
    (.error (if failure.ok then .refused .transportError 22 else failure),
      { c with serving := false })
  | .responseLost failure =>
    let (_, c) := c.serve payload
    (.error (if failure.ok then .refused .transportError 22 else failure),
      { c with serving := false })

end Connection

/-! ### The client of a coordinator -/

/-- A connected client.  `domain` is the one of its options, `challenge` the one of the
    handshake. -/
structure CoordinatorClient where
  domain : DomainId
  incarnation : Incarnation
  challenge : Digest128
  attempts : AttemptIdGenerator
  nextSequence : UInt64 := 1
  authority : AuthorityVector := {}
  connected : Bool := true
  placed : Bool := false
deriving DecidableEq, Repr

namespace CoordinatorClient

/-- The next attempt identity. -/
def draw (client : CoordinatorClient) : AttemptId × CoordinatorClient :=
  let (attempt, attempts) := client.attempts.next
  (attempt, { client with attempts })

/-- What the client takes over from a decoded response. -/
def adopt (client : CoordinatorClient) (request : CreditRequest) (outcome : CreditOutcome) :
    CoordinatorClient :=
  let client := if outcome.decided then
    { client with nextSequence := request.sequence + 1 } else client
  if isSet outcome.authority.account then
    { client with authority :=
      { domain := outcome.authority.domain
        account := outcome.authority.account
        epoch := if isSet outcome.authority.epoch then outcome.authority.epoch
          else client.authority.epoch
        generation := if isSet outcome.authority.generation then outcome.authority.generation
          else client.authority.generation
        incarnation := client.incarnation.id } }
  else client

variable {J : Type} [Journal J]

/-- The result of a call: its outcome, the client and the connection behind it. -/
abbrev Exchanged (J : Type) := CreditOutcome × CoordinatorClient × Connection J

/-- One request and its response over a connection. -/
def exchange (client : CoordinatorClient) (c : Connection J) (request : CreditRequest) :
    Exchanged J :=
  let outcome := CreditOutcome.ofRequest request
  if !client.connected then
    ({ outcome with status := .refused .transportError 21 }, client, c)
  else
  let (received, c) := c.transfer (encodeRequestMessage request)
  match received with
  | .error status => ({ outcome with status }, { client with connected := false }, c)
  | .ok payload =>
  match decodeResponseMessage payload with
  | .error status => ({ outcome with status }, { client with connected := false }, c)
  | .ok outcome => (outcome, client.adopt request outcome, c)

/-- The request of `describe`. -/
def describeRequest (client : CoordinatorClient) (attempt : AttemptId) (account : AccountId) :
    CreditRequest :=
  { op := .describe, sequence := client.nextSequence, attempt, presenter := client.incarnation
    authority := { domain := client.domain, account, incarnation := client.incarnation.id } }

/-- `CoordinatorClient::describe`. -/
def describe (client : CoordinatorClient) (c : Connection J) (account : AccountId) :
    Exchanged J :=
  let (attempt, client) := client.draw
  client.exchange c (client.describeRequest attempt account)

/-- The request of `reconcile`. -/
def reconcileRequest (client : CoordinatorClient) (attempt : AttemptId)
    (authority : AuthorityVector) : CreditRequest :=
  { op := .reconcile, sequence := client.nextSequence, attempt, presenter := client.incarnation
    authority
    proof := ReconciliationChallenge.compute client.challenge client.incarnation authority }

/-- The second half of `reconcile`, under the described authority. -/
def reconcileUnder (client : CoordinatorClient) (c : Connection J)
    (authority : AuthorityVector) : Exchanged J :=
  let (attempt, client) := client.draw
  let (outcome, client, c) := client.exchange c (client.reconcileRequest attempt authority)
  if outcome.status.ok then (outcome, { client with authority, placed := true }, c)
  else (outcome, client, c)

/-- `CoordinatorClient::reconcile`. -/
def reconcile (client : CoordinatorClient) (c : Connection J) (account : AccountId) :
    Exchanged J :=
  let (description, client, c) := client.describe c account
  if !description.status.ok then (description, client, c) else
  { client with nextSequence := description.sequence + 1 }.reconcileUnder c
    { domain := client.domain, account, epoch := description.authority.epoch
      generation := description.authority.generation, incarnation := client.incarnation.id }

/-- The refusals that make a caller reconcile and try again. -/
def demandsReconcile (reason : Reason) : Bool :=
  reason = .reconciliationRequired || reason = .staleAuthority || reason = .unknownIncarnation

/-- The Open of `submit`: the first era of the account of its configuration, at place one. -/
def openRequest (client : CoordinatorClient) (request : CreditRequest) : CreditRequest :=
  let authority : AuthorityVector :=
    { domain := request.config.domain, account := request.config.account, epoch := 1
      generation := 1, incarnation := client.incarnation.id }
  { request with
    authority, sequence := 1
    proof := ReconciliationChallenge.compute client.challenge client.incarnation authority }

/-- The Describe of `submit`, passed through with the caller's account. -/
def passedRequest (client : CoordinatorClient) (request : CreditRequest) : CreditRequest :=
  { request with
    sequence := client.nextSequence
    authority := { request.authority with
      domain := client.domain, incarnation := client.incarnation.id } }

/-- An attempt from where the client stands. -/
def placedRequest (client : CoordinatorClient) (request : CreditRequest) : CreditRequest :=
  { request with sequence := client.nextSequence, authority := client.authority }

@[simp] theorem openRequest_op (client : CoordinatorClient) (request : CreditRequest) :
    (client.openRequest request).op = request.op := rfl

@[simp] theorem passedRequest_op (client : CoordinatorClient) (request : CreditRequest) :
    (client.passedRequest request).op = request.op := rfl

@[simp] theorem placedRequest_op (client : CoordinatorClient) (request : CreditRequest) :
    (client.placedRequest request).op = request.op := rfl

/-- The client stands at an account: it has placed itself and speaks for that account. -/
def standsAt (client : CoordinatorClient) (account : AccountId) : Bool :=
  client.placed && isSet client.authority.account && client.authority.account == account

/-- What a description of another account does to the client. -/
def place (client : CoordinatorClient) (description : CreditOutcome) : CoordinatorClient :=
  { client with
    authority := { description.authority with
      domain := client.domain, incarnation := client.incarnation.id }
    nextSequence := if description.sequence + 1 > client.nextSequence then
      description.sequence + 1 else client.nextSequence
    placed := true }

/-- The tail of `submit`: an attempt, and one more behind a reconciliation when the coordinator
    demands one. -/
def submitPlaced (client : CoordinatorClient) (c : Connection J) (request : CreditRequest) :
    Exchanged J :=
  let account := client.authority.account
  let (outcome, client, c) := client.exchange c (client.placedRequest request)
  if !demandsReconcile outcome.status.reason then (outcome, client, c) else
  let (revalidated, client, c) := client.reconcile c account
  if !revalidated.status.ok then (revalidated, client, c) else
  let (attempt, client) := client.draw
  client.exchange c (client.placedRequest { request with attempt })

/-- The attempt of a client that first places itself at the account of the request. -/
def submitElsewhere (client : CoordinatorClient) (c : Connection J) (request : CreditRequest) :
    Exchanged J :=
  let (description, client, c) := client.describe c request.authority.account
  if !description.status.ok then (description, client, c)
  else (client.place description).submitPlaced c request

/-- `CoordinatorClient::submit`. -/
def submit (client : CoordinatorClient) (c : Connection J) (request : CreditRequest) :
    Exchanged J :=
  let (attempt, client) := client.draw
  let request := { request with presenter := client.incarnation, attempt }
  if request.op = .open_ then client.exchange c (client.openRequest request)
  else if request.op = .describe then client.exchange c (client.passedRequest request)
  else if client.standsAt request.authority.account then client.submitPlaced c request
  else client.submitElsewhere c request

end CoordinatorClient

/-! ### The session in the process of the engine -/

/-- `LocalSession`: an engine in the same process, with what its caller keeps. -/
structure LocalSession where
  me : Incarnation
  domain : DomainId
  account : AccountId
  attempts : AttemptIdGenerator
  authority : AuthorityVector := {}
  sequence : UInt64 := 1
  reconciled : Bool := false
deriving DecidableEq, Repr

namespace LocalSession

variable {J : Type} [Journal J]

/-- The next attempt id. -/
def draw (session : LocalSession) : AttemptId × LocalSession :=
  let (attempt, attempts) := session.attempts.next
  (attempt, { session with attempts })

/-- The loop of `reconcile`, with the rounds it has left. -/
def reconcileRounds (session : LocalSession) (s : SharedEngine J) :
    Nat → Status × LocalSession × SharedEngine J
  | 0 => (.refused .budgetExceeded 1, session, s)
  | rounds + 1 =>
    let (attempt, session) := session.draw
    let request : CreditRequest :=
      { op := .reconcile, presenter := session.me, attempt, sequence := session.sequence
        authority := session.authority
        proof := s.engine.challenge.prove session.me session.authority }
    let (outcome, s) := s.apply request
    if outcome.status.ok then
      (.success, { session with sequence := request.sequence + 1, reconciled := true }, s)
    else if outcome.status.reason = .sequenceGap then
      { session with sequence := outcome.status.detail }.reconcileRounds s rounds
    else if outcome.status.reason = .staleReplay then
      { session with sequence := outcome.status.detail + 1 }.reconcileRounds s rounds
    else (outcome.status, session, s)

/-- The account is explained, the watermark of the incarnation asked for, and the incarnation
    reconciled there. -/
def reconcile (session : LocalSession) (s : SharedEngine J) :
    Status × LocalSession × SharedEngine J :=
  let s := s.letIn
  match s.engine.accounts[session.account]? with
  | none => (.refused .accountUnknown 1, session, s)
  | some a =>
    let session := { session with authority :=
      { domain := session.domain, account := session.account, epoch := a.epoch
        generation := a.generation, incarnation := session.me.id } }
    let (described, s) := s.apply
      { op := .describe, sequence := 1, presenter := session.me
        authority := session.authority }
    if !described.status.ok then (described.status, session, s) else
    { session with sequence := described.sequence + 1 }.reconcileRounds s 8

/-- The loop of `call`, with the rounds it has left. -/
def callRounds (session : LocalSession) (s : SharedEngine J) (request : CreditRequest) :
    Nat → CreditOutcome × LocalSession × SharedEngine J
  | 0 => ({ status := .refused .budgetExceeded 2 }, session, s)
  | rounds + 1 =>
    let (attempt, session) := session.draw
    let request := { request with
      attempt, sequence := session.sequence, authority := session.authority }
    let (outcome, s) := s.apply request
    if outcome.decided then
      (outcome, { session with sequence := request.sequence + 1 }, s)
    else if outcome.status.reason = .sequenceGap then
      { session with sequence := outcome.status.detail }.callRounds s request rounds
    else if outcome.status.reason = .staleReplay then
      { session with sequence := outcome.status.detail + 1 }.callRounds s request rounds
    else if CoordinatorClient.demandsReconcile outcome.status.reason then
      let (status, session, s) := session.reconcile s
      if !status.ok then ({ outcome with status }, session, s)
      else session.callRounds s request rounds
    else (outcome, session, s)

/-- `LocalSession::call`: the request again after a reconciliation, up to a number of rounds. -/
def call (session : LocalSession) (s : SharedEngine J) (request : CreditRequest) :
    CreditOutcome × LocalSession × SharedEngine J :=
  if !session.reconciled then
    let (status, session, s) := session.reconcile s
    if !status.ok then ({ status }, session, s)
    else session.callRounds s { request with presenter := session.me } 8
  else session.callRounds s { request with presenter := session.me } 8

end LocalSession

end CreditFabric
