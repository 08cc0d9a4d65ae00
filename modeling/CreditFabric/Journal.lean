import CreditFabric.Record

namespace CreditFabric

/-!
# The journal interface and the in-memory journal

`Journal` is the virtual interface of `journal.hpp`: every operation returns its status and
the journal after the call.  The engine is generic over it.

* `InMemoryJournal` is the bounded in-memory implementation.
* `Observed J` is any journal together with the list of the calls made so far and their
  results; it lets a statement speak about what was appended and what was read.
* `Yields` says what a whole replay of a journal returns, and `LawfulJournal` is the contract
  a durable journal keeps: what was appended is what a later replay returns.
-/

/-- Kinds of journal records, in the order of their codes. -/
inductive JournalRecordKind where
  | unknown
  | attempt
  | snapshot
  | intent
deriving DecidableEq, Repr, Inhabited

/-- The byte of a kind in an envelope. -/
def JournalRecordKind.code (k : JournalRecordKind) : Nat := k.ctorIdx

/-- One journal record.  The `valid` flag of the source is the `some` of `nextRecord`; the
    byte offset is read by nobody and left out. -/
structure JournalRecord where
  sequence : UInt64 := 0
  kind : JournalRecordKind := .unknown
  chain : Digest128 := {}
  payload : List UInt8 := []
deriving DecidableEq, Repr, Inhabited

/-- A durable snapshot: the three values that `write_snapshot` makes durable together. -/
structure SnapshotImage where
  sequence : UInt64 := 0
  chain : Digest128 := {}
  payload : List UInt8 := []
deriving DecidableEq, Repr, Inhabited

/-- The virtual interface `Journal`.  `remaining` bounds the number of records a replay can
    still return; it is not part of the source and serves as the measure of the replay loop. -/
class Journal (J : Type) where
  open_ : J → Status × J
  append : J → JournalRecord → Status × J
  beginReplay : J → Status × J
  nextRecord : J → Status × Option JournalRecord × J
  endReplay : J → Status × J
  rotate : J → UInt64 → Status × J
  writeSnapshot : J → SnapshotImage → Status × J
  readSnapshot : J → Status × Option SnapshotImage × J
  bytes : J → Nat
  remaining : J → Nat
  remaining_nextRecord : ∀ (j : J) (r : JournalRecord),
    (nextRecord j).2.1 = some r → remaining (nextRecord j).2.2 < remaining j

/-! ### The in-memory journal -/

/-- An entry of the in-memory log; `corrupted` is set by the test hooks only. -/
structure InMemoryEntry where
  record : JournalRecord
  corrupted : Bool := false
deriving DecidableEq, Repr

/-- `InMemoryJournal`. -/
structure InMemoryJournal where
  entries : List InMemoryEntry := []
  cursor : Nat := 0
  maxBytes : UInt64 := 67108864
  bytes : Nat := 0
  replaying : Bool := false
  torn : Bool := false
  snapshot : Option SnapshotImage := none
deriving DecidableEq, Repr

namespace InMemoryJournal

/-- `InMemoryJournal::open`. -/
def open_ (j : InMemoryJournal) : Status × InMemoryJournal :=
  (.success, { j with cursor := 0, replaying := false, torn := false })

/-- `InMemoryJournal::append`. -/
def append (j : InMemoryJournal) (r : JournalRecord) : Status × InMemoryJournal :=
  if j.replaying then (.refused .invalidState 1, j) else
  let growth := r.payload.length + 8
  if j.bytes + growth > j.maxBytes.toNat then
    (.refused .budgetExceeded (UInt64.ofNat j.bytes), j)
  else
  (.success, { j with entries := j.entries ++ [{ record := r }], bytes := j.bytes + growth })

/-- `InMemoryJournal::begin_replay`. -/
def beginReplay (j : InMemoryJournal) : Status × InMemoryJournal :=
  (.success, { j with cursor := 0, replaying := true, torn := false })

/-- `InMemoryJournal::next_record`. -/
def nextRecord (j : InMemoryJournal) : Status × Option JournalRecord × InMemoryJournal :=
  match j.entries[j.cursor]? with
  | none => (.success, none, j)
  | some entry =>
    if entry.corrupted then (.success, none, { j with torn := true })
    else (.success, some entry.record, { j with cursor := j.cursor + 1 })

/-- `InMemoryJournal::end_replay`. -/
def endReplay (j : InMemoryJournal) : Status × InMemoryJournal :=
  (.success, { j with replaying := false })

/-- `InMemoryJournal::rotate`. -/
def rotate (j : InMemoryJournal) (snapshotSequence : UInt64) : Status × InMemoryJournal :=
  let kept := j.entries.filter fun entry => !(entry.record.sequence ≤ snapshotSequence)
  let bytes := (kept.map fun entry => entry.record.payload.length + 8).sum
  (.success, { j with entries := kept, bytes, cursor := 0 })

/-- `InMemoryJournal::write_snapshot`. -/
def writeSnapshot (j : InMemoryJournal) (s : SnapshotImage) : Status × InMemoryJournal :=
  if s.payload.length > j.maxBytes.toNat then
    (.refused .budgetExceeded (UInt64.ofNat s.payload.length), j)
  else
  (.success, { j with snapshot := some s })

/-- `InMemoryJournal::read_snapshot`. -/
def readSnapshot (j : InMemoryJournal) : Status × Option SnapshotImage × InMemoryJournal :=
  (.success, j.snapshot, j)

instance : Journal InMemoryJournal where
  open_ := open_
  append := append
  beginReplay := beginReplay
  nextRecord := nextRecord
  endReplay := endReplay
  rotate := rotate
  writeSnapshot := writeSnapshot
  readSnapshot := readSnapshot
  bytes := bytes
  remaining j := j.entries.length - j.cursor
  remaining_nextRecord j r h := by
    unfold nextRecord at h ⊢
    cases hget : j.entries[j.cursor]? with
    | none => simp [hget] at h
    | some entry =>
      have hlt : j.cursor < j.entries.length := (List.getElem?_eq_some_iff.mp hget).1
      by_cases hc : entry.corrupted
      · simp [hget, hc] at h
      · simp only [hc]
        show j.entries.length - (j.cursor + 1) < j.entries.length - j.cursor
        omega

end InMemoryJournal

/-! ### Observed journals -/

/-- One journal call with its result. -/
inductive JournalEvent where
  | opened (status : Status)
  | appended (record : JournalRecord) (status : Status)
  | replayBegun (status : Status)
  | read (record : Option JournalRecord) (status : Status)
  | replayEnded (status : Status)
  | rotated (sequence : UInt64) (status : Status)
  | wroteSnapshot (image : SnapshotImage) (status : Status)
  | loadedSnapshot (image : Option SnapshotImage) (status : Status)
deriving DecidableEq, Repr

/-- A journal with the calls made to it so far, oldest first. -/
structure Observed (J : Type) where
  journal : J
  log : List JournalEvent := []
deriving DecidableEq, Repr

namespace Observed

variable {J : Type} [Journal J]

/-- Run one operation of the journal and note its event. -/
def note (o : Observed J) (event : Status → JournalEvent) (result : Status × J) :
    Status × Observed J :=
  (result.1, { journal := result.2, log := o.log ++ [event result.1] })

/-- The same for an operation that also returns a value. -/
def noteValue {α : Type} (o : Observed J) (event : Option α → Status → JournalEvent)
    (result : Status × Option α × J) : Status × Option α × Observed J :=
  (result.1, result.2.1,
    { journal := result.2.2, log := o.log ++ [event result.2.1 result.1] })

instance : Journal (Observed J) where
  open_ o := o.note .opened (Journal.open_ o.journal)
  append o r := o.note (.appended r) (Journal.append o.journal r)
  beginReplay o := o.note .replayBegun (Journal.beginReplay o.journal)
  nextRecord o := o.noteValue .read (Journal.nextRecord o.journal)
  endReplay o := o.note .replayEnded (Journal.endReplay o.journal)
  rotate o sequence := o.note (.rotated sequence) (Journal.rotate o.journal sequence)
  writeSnapshot o s := o.note (.wroteSnapshot s) (Journal.writeSnapshot o.journal s)
  readSnapshot o := o.noteValue .loadedSnapshot (Journal.readSnapshot o.journal)
  bytes o := Journal.bytes o.journal
  remaining o := Journal.remaining o.journal
  remaining_nextRecord o r h := Journal.remaining_nextRecord o.journal r h

end Observed

/-! ### What a replay returns -/

section Replay

variable {J : Type} [Journal J]

/-- Reading on from `j` returns the records `recs`, then the end of the stream, and leaves the
    journal as `j'`. -/
inductive Reads : J → List JournalRecord → J → Prop
  | done {j j' : J} (h : Journal.nextRecord j = (.success, none, j')) : Reads j [] j'
  | next {j j₁ j' : J} {r : JournalRecord} {recs : List JournalRecord}
      (h : Journal.nextRecord j = (.success, some r, j₁)) (rest : Reads j₁ recs j') :
      Reads j (r :: recs) j'

/-- A journal is read in one way only. -/
theorem Reads.deterministic {j j₁ j₂ : J} {recs₁ recs₂ : List JournalRecord}
    (h₁ : Reads j recs₁ j₁) (h₂ : Reads j recs₂ j₂) : recs₁ = recs₂ ∧ j₁ = j₂ := by
  induction h₁ generalizing recs₂ with
  | done hend =>
    cases h₂ with
    | done hend' =>
      rw [hend] at hend'
      exact ⟨rfl, by cases hend'; rfl⟩
    | next hread _ =>
      rw [hend] at hread
      cases hread
  | next hread _ ih =>
    cases h₂ with
    | done hend =>
      rw [hread] at hend
      cases hend
    | next hread' hrest =>
      rw [hread] at hread'
      cases hread'
      obtain ⟨hrecs, hj⟩ := ih hrest
      exact ⟨by rw [hrecs], hj⟩

/-- Opening and replaying `j` succeeds: it loads the snapshot `snap`, returns the records
    `recs` and leaves the journal as `j'`. -/
def Yields (j : J) (snap : Option SnapshotImage) (recs : List JournalRecord) (j' : J) : Prop :=
  ∃ j₁ j₂ j₃ j₄, Journal.open_ j = (.success, j₁) ∧
    Journal.readSnapshot j₁ = (.success, snap, j₂) ∧
    Journal.beginReplay j₂ = (.success, j₃) ∧ Reads j₃ recs j₄ ∧
    Journal.endReplay j₄ = (.success, j')

end Replay

/-- The contract of a durable journal.  `Holds j snap recs` says what the storage of `j`
    holds; an accepted record is held behind the others, and a journal over the same storage
    (`restart`) replays exactly what is held. -/
class LawfulJournal (J : Type) extends Journal J where
  restart : J → J
  overhead : Nat
  Holds : J → Option SnapshotImage → List JournalRecord → Prop
  holds_append : ∀ {j snap recs} (r : JournalRecord), Holds j snap recs → r.kind ≠ .unknown →
    r.payload.length + 25 < 2 ^ 32 → (append j r).1.ok = true →
    Holds (append j r).2 snap (recs ++ [r]) ∧
      bytes (append j r).2 = bytes j + (r.payload.length + overhead)
  holds_restart : ∀ {j snap recs}, Holds j snap recs →
    ∃ j', Yields (restart j) snap recs j' ∧ Holds j' snap recs

/-! ### The in-memory journal is lawful -/

namespace InMemoryJournal

/-- Closing a journal and handing it to the next engine. -/
def restart (j : InMemoryJournal) : InMemoryJournal := { j with replaying := false }

/-- The log consists of intact entries with the given records. -/
def Holds (j : InMemoryJournal) (snap : Option SnapshotImage) (recs : List JournalRecord) :
    Prop :=
  j.snapshot = snap ∧ j.entries = recs.map fun r => { record := r }

/-- Reading on from position `cursor` returns the records from there. -/
theorem reads_drop (j : InMemoryJournal) (recs : List JournalRecord)
    (h : j.entries = recs.map fun r => { record := r }) (n : Nat) :
    ∀ cursor, cursor + n = recs.length →
      Reads { j with cursor } (recs.drop cursor) { j with cursor := recs.length } := by
  induction n with
  | zero =>
    intro cursor hc
    have hlen : cursor = recs.length := by omega
    subst hlen
    rw [List.drop_length]
    refine .done ?_
    show nextRecord _ = _
    simp [nextRecord, h]
  | succ n ih =>
    intro cursor hc
    have hlt : cursor < recs.length := by omega
    rw [List.drop_eq_getElem_cons hlt]
    refine .next ?_ (ih (cursor + 1) (by omega))
    show nextRecord _ = _
    simp [nextRecord, h, hlt]

instance : LawfulJournal InMemoryJournal where
  restart := restart
  overhead := 8
  Holds := Holds
  holds_append {j snap recs} r hj _ _ hok := by
    obtain ⟨hsnap, hentries⟩ := hj
    change (append j r).1.ok = true at hok
    show Holds (append j r).2 snap (recs ++ [r]) ∧ (append j r).2.bytes = _
    unfold append at hok ⊢
    by_cases hrep : j.replaying
    · simp [hrep] at hok
    · by_cases hbig : j.bytes + (r.payload.length + 8) > j.maxBytes.toNat
      · simp [hrep, hbig] at hok
      · simp only [hrep, hbig]
        refine ⟨⟨hsnap, ?_⟩, rfl⟩
        simp [hentries]
  holds_restart {j snap recs} hj := by
    obtain ⟨hsnap, hentries⟩ := hj
    let j₁ : InMemoryJournal := { j with replaying := true, torn := false }
    have hreads := reads_drop j₁ recs hentries recs.length 0 (by omega)
    rw [List.drop_zero] at hreads
    refine ⟨{ j₁ with cursor := recs.length, replaying := false }, ?_, hsnap, hentries⟩
    subst hsnap
    exact ⟨j.restart.open_.2, j.restart.open_.2, { j₁ with cursor := 0 }, _, rfl, rfl, rfl,
      hreads, rfl⟩

end InMemoryJournal

end CreditFabric
