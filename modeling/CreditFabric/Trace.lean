import CreditFabric.Run

namespace CreditFabric

/-!
# The journal calls of one decision

For an engine over an `Observed` journal, the calls that one decision makes: the Intent
append, the Attempt append and, when a rotation threshold is reached, the calls of the
automatic snapshot.
-/

namespace CreditEngine

variable {J : Type} [Journal J]

/-- The calls of `snapshotLocked`, by the point where it ends. -/
inductive SnapshotTrace (e : CreditEngine (Observed J)) : Status → List JournalEvent → Prop
  | appendFailed (s : Status) (h : s.ok = false) :
      SnapshotTrace e s [.appended e.snapshotRecord s]
  | writeFailed (s₁ s : Status) (h₁ : s₁.ok = true) (h : s.ok = false) :
      SnapshotTrace e s [.appended e.snapshotRecord s₁, .wroteSnapshot e.snapshotImage s]
  | rotateFailed (s₁ s₂ s : Status) (h₁ : s₁.ok = true) (h₂ : s₂.ok = true)
      (h : s.ok = false) :
      SnapshotTrace e s [.appended e.snapshotRecord s₁, .wroteSnapshot e.snapshotImage s₂,
        .rotated e.nextJournalSequence s]
  | durable (s₁ s₂ s₃ : Status) (h₁ : s₁.ok = true) (h₂ : s₂.ok = true) (h₃ : s₃.ok = true) :
      SnapshotTrace e .success [.appended e.snapshotRecord s₁,
        .wroteSnapshot e.snapshotImage s₂, .rotated e.nextJournalSequence s₃]

/-- The events of a snapshot. -/
theorem Snapshotted.trace {e e' : CreditEngine (Observed J)} {s : Status}
    (h : Snapshotted e s e') :
    ∃ events, e'.journal.log = e.journal.log ++ events ∧ SnapshotTrace e s events := by
  cases h with
  | appendFailed h => exact ⟨_, rfl, .appendFailed _ h⟩
  | writeFailed ha h => exact ⟨_, List.append_assoc _ _ _, .writeFailed _ _ ha h⟩
  | rotateFailed ha hw h =>
    refine ⟨_, ?_, .rotateFailed _ _ _ ha hw h⟩
    exact (List.append_assoc _ _ _).trans (List.append_assoc _ _ _)
  | durable ha hw h =>
    refine ⟨_, ?_, .durable _ _ _ ha hw h⟩
    exact (List.append_assoc _ _ _).trans (List.append_assoc _ _ _)

/-- The calls of `persistLocked`, by the point where it ends. -/
inductive PersistTrace (e : CreditEngine (Observed J)) (r : CreditRequest) (o : CreditOutcome)
    (a : AccountState) (c : Bool) : Status → List JournalEvent → Prop
  | intentFailed (s : Status) (h : s.ok = false) :
      PersistTrace e r o a c s [.appended (e.intentRecord r) s]
  | attemptFailed (s₁ s : Status) (h₁ : s₁.ok = true) (h : s.ok = false) :
      PersistTrace e r o a c s
        [.appended (e.intentRecord r) s₁, .appended (e.attemptRecord r o a c) s]
  | kept (s₁ s₂ : Status) (h₁ : s₁.ok = true) (h₂ : s₂.ok = true) :
      PersistTrace e r o a c .success
        [.appended (e.intentRecord r) s₁, .appended (e.attemptRecord r o a c) s₂]
  | rotated (s₁ s₂ s : Status) (more : List JournalEvent) (h₁ : s₁.ok = true)
      (h₂ : s₂.ok = true) (hsnap : SnapshotTrace (e.afterDecision r o a c) s more) :
      PersistTrace e r o a c s
        (.appended (e.intentRecord r) s₁ :: .appended (e.attemptRecord r o a c) s₂ :: more)

/-- The events of persisting a decision. -/
theorem Persisted.trace {e e' : CreditEngine (Observed J)} {r : CreditRequest}
    {o : CreditOutcome} {a : AccountState} {c : Bool} {s : Status}
    (h : Persisted e r o a c s e') :
    ∃ events, e'.journal.log = e.journal.log ++ events ∧ PersistTrace e r o a c s events := by
  cases h with
  | appendFailed h hs =>
    cases h with
    | intentFailed h => exact ⟨_, rfl, .intentFailed _ h⟩
    | attemptFailed hi h => exact ⟨_, List.append_assoc _ _ _, .attemptFailed _ _ hi h⟩
    | durable hi h => exact absurd hs (by decide)
  | kept hi h hrot => exact ⟨_, List.append_assoc _ _ _, .kept _ _ hi h⟩
  | rotated hi h hrot hsnap =>
    obtain ⟨more, hlog, htrace⟩ := hsnap.trace
    refine ⟨_, ?_, .rotated _ _ _ more hi h htrace⟩
    rw [hlog]
    exact (List.append_assoc _ _ _).trans (List.append_assoc _ _ _)

/-- The same of the function itself. -/
theorem persistLocked_trace (e : CreditEngine (Observed J)) (r : CreditRequest)
    (o : CreditOutcome) (a : AccountState) (c : Bool) :
    ∃ events, (e.persistLocked r o a c).2.journal.log = e.journal.log ++ events ∧
      PersistTrace e r o a c (e.persistLocked r o a c).1 events :=
  (persistLocked_persisted e r o a c).trace

omit [Journal J] in
/-- A snapshot appends its own record only. -/
theorem SnapshotTrace.records {e : CreditEngine (Observed J)} {s : Status}
    {events : List JournalEvent} (h : SnapshotTrace e s events) :
    ∀ t s', .appended t s' ∈ events → t.kind = .snapshot := by
  intro t s' hmem
  cases h with
  | appendFailed =>
    simp only [List.mem_singleton, JournalEvent.appended.injEq] at hmem
    rw [hmem.1]
    rfl
  | writeFailed =>
    simp only [List.mem_cons, JournalEvent.appended.injEq, reduceCtorEq, List.not_mem_nil,
      or_false] at hmem
    rw [hmem.1]
    rfl
  | rotateFailed =>
    simp only [List.mem_cons, JournalEvent.appended.injEq, reduceCtorEq, List.not_mem_nil,
      or_false] at hmem
    rw [hmem.1]
    rfl
  | durable =>
    simp only [List.mem_cons, JournalEvent.appended.injEq, reduceCtorEq, List.not_mem_nil,
      or_false] at hmem
    rw [hmem.1]
    rfl

/-- The events of a persisted decision. -/
theorem PersistTrace.of_ok {e : CreditEngine (Observed J)} {r : CreditRequest}
    {o : CreditOutcome} {a : AccountState} {c : Bool} {s : Status} {events : List JournalEvent}
    (h : PersistTrace e r o a c s events) (hok : s.ok = true) :
    ∃ s₁ s₂ more, events = .appended (e.intentRecord r) s₁ ::
        .appended (e.attemptRecord r o a c) s₂ :: more ∧ s₁.ok = true ∧ s₂.ok = true ∧
      ∀ t s', .appended t s' ∈ more → t.kind = .snapshot := by
  cases h with
  | intentFailed _ hs =>
    rw [hs] at hok
    exact absurd hok (by decide)
  | attemptFailed _ _ _ hs =>
    rw [hs] at hok
    exact absurd hok (by decide)
  | kept s₁ s₂ h₁ h₂ => exact ⟨s₁, s₂, [], rfl, h₁, h₂, nofun⟩
  | rotated s₁ s₂ _ more h₁ h₂ hsnap => exact ⟨s₁, s₂, more, rfl, h₁, h₂, hsnap.records⟩

end CreditEngine

end CreditFabric
