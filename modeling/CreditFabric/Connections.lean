import CreditFabric.Frame
import Mathlib.Data.List.Basic
import Mathlib.Algebra.Order.Group.Nat

namespace CreditFabric

/-!
# The connections of a coordinator

The accept loop turns a connection away when the registry of workers is full.  A worker is put
into the registry when its connection is accepted, and only `stop` takes it out again: a worker
whose connection has completed still counts.  So over every run of arrivals and completions
the registry holds as many workers as connections were ever accepted (`Run.registered`), and
the limit agrees with the number of open connections exactly until a connection has completed
and the registry is full (`Run.verdict_iff`).
-/

/-- The options the accept loop reads. -/
structure CoordinatorOptions where
  maxConnections : Nat := 64
deriving DecidableEq, Repr

/-- A thread of the registry: its session, and whether its `serve_connection` has returned. -/
structure Worker where
  session : UInt32
  completed : Bool := false
deriving DecidableEq, Repr

/-- The server, as far as the accept loop and its workers read and write it. -/
structure CoordinatorServer where
  options : CoordinatorOptions
  workers : List Worker := []
  accepted : UInt64 := 0
  nextSession : UInt32 := 1
deriving DecidableEq, Repr

/-- What the peer of a new connection gets: a message and the end of the connection, or a
    worker that serves it. -/
inductive Reception where
  | turnedAway (type : MessageType) (payload : List UInt8)
  | served (session : UInt32)
deriving DecidableEq, Repr

namespace CoordinatorServer

/-- The constructor; a zero limit becomes one. -/
def make (options : CoordinatorOptions) : CoordinatorServer :=
  { options := { options with
      maxConnections := if options.maxConnections = 0 then 1 else options.maxConnections } }

/-- The size of the registry. -/
def activeConnections (s : CoordinatorServer) : Nat := s.workers.length

/-- `register_connection`: one more worker. -/
def registerConnection (s : CoordinatorServer) (worker : Worker) : CoordinatorServer :=
  { s with workers := s.workers ++ [worker] }

/-- One turn of `accept_loop`: a connection has arrived. -/
def acceptConnection (s : CoordinatorServer) : Reception × CoordinatorServer :=
  if s.activeConnections ≥ s.options.maxConnections then (.turnedAway .bye [], s)
  else
    let session := s.nextSession
    let s := { s with nextSession := s.nextSession + 1, accepted := s.accepted + 1 }
    (.served session, s.registerConnection { session })

/-- The `serve_connection` of the worker at `place` returns.  Its last steps close the socket;
    the registry is not told. -/
def completeConnection (s : CoordinatorServer) (place : Nat) : CoordinatorServer :=
  { s with workers := s.workers.modify place fun worker => { worker with completed := true } }

/-- The connections that are being served. -/
def openConnections (s : CoordinatorServer) : Nat :=
  s.workers.countP fun worker => !worker.completed

/-- The peer is turned away with Bye. -/
def Refuses (s : CoordinatorServer) : Prop := s.acceptConnection.1 = .turnedAway .bye []

instance (s : CoordinatorServer) : Decidable s.Refuses := by
  unfold Refuses
  infer_instance

/-! ### Runs -/

/-- What happens to the server from outside. -/
inductive Event where
  | arrived
  | completed (place : Nat)
deriving DecidableEq, Repr

/-- The runs of a server that is not being stopped: connections arrive, and connections that
    are being served complete. -/
inductive Run (options : CoordinatorOptions) : List Event → CoordinatorServer → Prop
  | started : Run options [] (make options)
  | arrived {events : List Event} {s : CoordinatorServer} (h : Run options events s) :
      Run options (events ++ [.arrived]) s.acceptConnection.2
  | completed {events : List Event} {s : CoordinatorServer} (h : Run options events s)
      {place : Nat} {worker : Worker} (registered : s.workers[place]? = some worker)
      (serving : worker.completed = false) :
      Run options (events ++ [.completed place]) (s.completeConnection place)

/-- The connections that have arrived. -/
def arrivals (events : List Event) : Nat := events.count .arrived

/-- The connections that have completed. -/
def completions (events : List Event) : Nat := events.countP fun event => event ≠ .arrived

/-- A connection that completes is open no longer, and its worker stays. -/
private theorem openConnections_complete {s : CoordinatorServer} {place : Nat} {worker : Worker}
    (registered : s.workers[place]? = some worker) (serving : worker.completed = false) :
    (s.completeConnection place).openConnections + 1 = s.openConnections := by
  obtain ⟨hplace, hworker⟩ := List.getElem?_eq_some_iff.mp registered
  have hsplit : s.workers = s.workers.take place ++ worker :: s.workers.drop (place + 1) := by
    rw [← hworker, ← List.drop_eq_getElem_cons hplace, List.take_append_drop]
  have hmodified : (s.completeConnection place).workers = s.workers.take place ++
      { worker with completed := true } :: s.workers.drop (place + 1) := by
    rw [← hworker]
    exact List.modify_eq_take_cons_drop hplace
  unfold openConnections
  rw [hmodified]
  conv_rhs => rw [hsplit]
  rw [List.countP_append, List.countP_append, List.countP_cons_of_neg (by simp),
    List.countP_cons_of_pos (by simp [serving])]
  omega

/-- **The registry along a run.**  It holds every connection that was ever accepted, and these
    are the open ones and the completed ones. -/
theorem Run.registered {options : CoordinatorOptions} {events : List Event}
    {s : CoordinatorServer} (h : Run options events s) :
    s.options = (make options).options ∧
    s.workers.length = min (arrivals events) s.options.maxConnections ∧
    s.openConnections + completions events = s.workers.length := by
  -- induction on the history; only an arrival changes the registered list
  induction h with
  | started => exact ⟨rfl, by simp [make, arrivals], rfl⟩
  | @arrived events s _ ih =>
    obtain ⟨hoptions, hworkers, hopen⟩ := ih
    have harrivals : arrivals (events ++ [.arrived]) = arrivals events + 1 := by
      unfold arrivals
      rw [List.count_append, List.count_singleton_self]
    have hcompletions : completions (events ++ [.arrived]) = completions events := by
      unfold completions
      rw [List.countP_append, List.countP_singleton, if_neg (by simp), Nat.add_zero]
    rw [harrivals, hcompletions]
    unfold acceptConnection
    -- a full list turns the arrival away
    by_cases hfull : s.activeConnections ≥ s.options.maxConnections
    · rw [if_pos hfull]
      change s.workers.length ≥ s.options.maxConnections at hfull
      refine ⟨hoptions, ?_, hopen⟩
      show s.workers.length = min (arrivals events + 1) s.options.maxConnections
      omega
    · rw [if_neg hfull]
      change ¬ s.workers.length ≥ s.options.maxConnections at hfull
      refine ⟨hoptions, ?_, ?_⟩
      · show (s.workers ++ [_]).length = min (arrivals events + 1) s.options.maxConnections
        rw [List.length_append, List.length_singleton]
        omega
      · show (s.workers ++ [_]).countP _ + completions events = (s.workers ++ [_]).length
        rw [List.countP_append, List.countP_singleton, List.length_append, List.length_singleton]
        have hopen' : s.workers.countP (fun worker => !worker.completed) + completions events =
            s.workers.length := hopen
        simp only [Bool.not_false, if_true]
        omega
  | @completed events s _ place worker registered serving ih =>
    obtain ⟨hoptions, hworkers, hopen⟩ := ih
    have harrivals : arrivals (events ++ [.completed place]) = arrivals events := by
      unfold arrivals
      rw [List.count_append, List.count_singleton]
      simp
    have hcompletions :
        completions (events ++ [.completed place]) = completions events + 1 := by
      unfold completions
      rw [List.countP_append, List.countP_singleton, if_pos (by simp)]
    have hlength : (s.completeConnection place).workers.length = s.workers.length :=
      List.length_modify _ _ _
    -- a completed worker stays registered: the limit counts it still
    have hone := openConnections_complete registered serving
    rw [harrivals, hcompletions, hlength]
    exact ⟨hoptions, hworkers, by omega⟩

/-- **The limit counts every connection.**  In every run the next connection is turned away
    exactly when as many connections are open as the limit says if and only if the registry has
    never been full or no connection has completed. -/
theorem Run.verdict_iff {options : CoordinatorOptions} {events : List Event}
    {s : CoordinatorServer} (h : Run options events s) :
    (s.Refuses ↔ s.openConnections = (make options).options.maxConnections) ↔
      arrivals events < (make options).options.maxConnections ∨ completions events = 0 := by
  obtain ⟨hoptions, hworkers, hopen⟩ := h.registered
  rw [← hoptions]
  have hrefuses : s.Refuses ↔ s.workers.length ≥ s.options.maxConnections := by
    unfold Refuses acceptConnection activeConnections
    by_cases hfull : s.workers.length ≥ s.options.maxConnections
    · rw [if_pos hfull]
      exact ⟨fun _ => hfull, fun _ => rfl⟩
    · rw [if_neg hfull]
      exact ⟨fun hturned => absurd hturned (by simp), fun hlength => absurd hlength hfull⟩
  rw [hrefuses]
  omega

/-! ### A server that is closed for good -/

namespace OneConnection

/-- The server after its one connection has come and gone. -/
def deserted : CoordinatorServer :=
  { options := { maxConnections := 1 }, workers := [{ session := 1, completed := true }],
    accepted := 1, nextSession := 2 }

/-- A connection that arrives and completes. -/
theorem deserted_run : Run { maxConnections := 1 } [.arrived, .completed 0] deserted :=
  .completed (.arrived .started) rfl rfl

/-- The registry is full of a connection that has completed. -/
theorem deserted_verdict :
    (deserted.Refuses ↔ deserted.openConnections = 1) ↔
      arrivals [.arrived, .completed 0] < 1 ∨ completions [.arrived, .completed 0] = 0 :=
  Run.verdict_iff deserted_run

/-- **Turned away without an open connection.**  A server for one connection has served one,
    which has completed; it refuses every further one. -/
theorem deserted_refuses :
    deserted.openConnections = 0 ∧ deserted.Refuses ∧
    ¬ ∀ (options : CoordinatorOptions) (events : List Event) (s : CoordinatorServer),
      1 ≤ options.maxConnections → Run options events s →
      (s.Refuses ↔ s.openConnections = options.maxConnections) := by
  refine ⟨rfl, by decide, fun hclaim => ?_⟩
  have hverdict := hclaim _ _ _ (Nat.le_refl 1) deserted_run
  exact absurd (hverdict.mp (by decide)) (by decide)

end OneConnection

end CoordinatorServer

end CreditFabric
