import CreditFabric.Journal
import CreditFabric.Lib.FiniteMap

namespace CreditFabric

open Std (ExtTreeMap)

/-!
# Attempt windows and account state

`AttemptWindow` is the bounded map of the most recent decisions of an account, found by
`(incarnation, sequence)` and by attempt identity.  `AccountState` is the in-memory state of
one account.  The hash maps of the source are extensional ordered maps here: lookups are the
same, and the order of iteration, which the source leaves unspecified, is ascending.
-/

/-! ### The attempt window -/

/-- The place of a decision: the incarnation and its decision index. -/
structure WindowKey where
  incarnation : UInt64 := 0
  sequence : UInt64 := 0
deriving DecidableEq, Repr, Inhabited

namespace WindowKey

instance : Ord WindowKey := ⟨compareLex (compareOn incarnation) (compareOn sequence)⟩

instance : Std.TransOrd WindowKey :=
  inferInstanceAs (Std.TransCmp (compareLex (compareOn incarnation) (compareOn sequence)))

instance : Std.LawfulEqOrd WindowKey where
  eq_of_compare {a b} h := by
    obtain ⟨hinc, hseq⟩ := Ordering.then_eq_eq.mp (show _ = Ordering.eq from h)
    cases a; cases b
    simp_all [compareOn]

end WindowKey

/-- What the window remembers of a decision. -/
structure WindowEntry where
  key : WindowKey := {}
  attempt : AttemptId := {}
  request : Digest128 := {}
  status : Status := {}
  applied : Bool := false
  view : CreditView := {}
deriving DecidableEq, Repr, Inhabited

/-- The bounded dedup window: the keys in insertion order and the two indices. -/
structure AttemptWindow where
  order : List WindowKey := []
  byKey : ExtTreeMap WindowKey WindowEntry := ∅
  byAttempt : ExtTreeMap AttemptId WindowKey := ∅
  limit : Nat := 1
deriving DecidableEq

namespace AttemptWindow

/-- The constructor; a zero limit becomes one. -/
def make (limit : Nat) : AttemptWindow := { limit := if limit = 0 then 1 else limit }

/-- The entry at a place, if the window still knows it. -/
def find (w : AttemptWindow) (key : WindowKey) : Option WindowEntry := w.byKey[key]?

/-- The entry that the index by attempt names, if it is still there. -/
def findByAttempt (w : AttemptWindow) (id : AttemptId) : Option WindowEntry :=
  match w.byAttempt[id]? with
  | none => none
  | some key => w.find key

/-- The eviction loop of `insert`: drop the oldest keys while the queue exceeds the limit. -/
def evict (limit : Nat) : List WindowKey → ExtTreeMap WindowKey WindowEntry →
    ExtTreeMap AttemptId WindowKey → AttemptWindow
  | [], byKey, byAttempt => { order := [], byKey, byAttempt, limit }
  | oldest :: rest, byKey, byAttempt =>
    if rest.length + 1 > limit then
      match byKey[oldest]? with
      | some entry => evict limit rest (byKey.erase oldest) (byAttempt.erase entry.attempt)
      | none => evict limit rest byKey byAttempt
    else { order := oldest :: rest, byKey, byAttempt, limit }

/-- `AttemptWindow::insert`: a new entry, and the oldest one goes when the window is full. -/
def insert (w : AttemptWindow) (entry : WindowEntry) : AttemptWindow :=
  -- a key that is present again drops the attempt identity it was indexed under
  let byAttempt := match w.byKey[entry.key]? with
    | some previous => w.byAttempt.erase previous.attempt
    | none => w.byAttempt
  evict w.limit (w.order ++ [entry.key]) (w.byKey.insert entry.key entry)
    (byAttempt.insert entry.attempt entry.key)

/-- Identity pairs in insertion order, carried across a snapshot. -/
def identities (w : AttemptWindow) : List (UInt64 × UInt64) :=
  w.order.map fun key => (key.incarnation, key.sequence)

end AttemptWindow

/-! ### Accounts -/

/-- In-memory state of one account. -/
structure AccountState where
  config : AccountConfig := {}
  domain : DomainId := 0
  account : AccountId := 0
  epoch : EpochId := 1
  generation : Generation := 1
  capacity : UInt64 := 0
  totals : CreditTotals := {}
  hardExhausted : Bool := false
  exhaustionCause : Reason := .ok
  window : AttemptWindow
  incarnations : ExtTreeMap UInt64 IncarnationRecord := ∅
  fences : List FenceRecord := []
  ambiguous : List AmbiguousNote := []
  refusals : List RefusalNote := []
  refusalCursor : Nat := 0
  committedAttempts : UInt64 := 0
  refusedAttempts : UInt64 := 0
deriving DecidableEq

namespace AccountState

/-- The view of the account, computed from its counters. -/
def view (a : AccountState) : CreditView := computeView a.capacity a.totals

/-- The record of an incarnation. -/
def findIncarnation (a : AccountState) (id : IncarnationId) : Option IncarnationRecord :=
  a.incarnations[id]?

/-- The incarnation is on the fence list. -/
def isFenced (a : AccountState) (id : IncarnationId) : Bool :=
  a.fences.any fun fence => fence.incarnation == id

/-- Write through the pointer that `find_incarnation` returns; no effect when it is null. -/
def updateIncarnation (a : AccountState) (id : IncarnationId)
    (f : IncarnationRecord → IncarnationRecord) : AccountState :=
  match a.incarnations[id]? with
  | some record => { a with incarnations := a.incarnations.insert id (f record) }
  | none => a

/-- Only the records change, whether the pointer is null or not. -/
theorem updateIncarnation_eq (a : AccountState) (id : IncarnationId)
    (f : IncarnationRecord → IncarnationRecord) :
    a.updateIncarnation id f =
      { a with incarnations := (a.updateIncarnation id f).incarnations } := by
  unfold updateIncarnation
  cases a.incarnations[id]? <;> rfl

/-- An update changes the record of its own incarnation only. -/
theorem getElem?_updateIncarnation (a : AccountState) (id i : IncarnationId)
    (f : IncarnationRecord → IncarnationRecord) :
    (a.updateIncarnation id f).incarnations[i]? =
      if i = id then (a.incarnations[id]?).map f else a.incarnations[i]? := by
  unfold updateIncarnation
  by_cases hi : i = id
  · subst hi
    cases h : a.incarnations[i]? <;> simp [h]
  · rw [if_neg hi]
    cases a.incarnations[id]? with
    | none => rfl
    | some record => exact Lib.getElem?_insert_of_ne _ _ hi

/-- The update of a record that is there is an insertion. -/
theorem incarnations_updateIncarnation {a : AccountState} {id : IncarnationId}
    {b : IncarnationRecord} (h : a.incarnations[id]? = some b)
    (f : IncarnationRecord → IncarnationRecord) :
    (a.updateIncarnation id f).incarnations = a.incarnations.insert id (f b) := by
  unfold updateIncarnation
  rw [h]

/-- Every reconciled incarnation becomes unknown. -/
def forgetLiveness (a : AccountState) : AccountState :=
  { a with incarnations := a.incarnations.map fun _ record => record.forgetLiveness }

/-- A restart forgets the liveness of each record by itself. -/
theorem getElem?_forgetLiveness (a : AccountState) (i : IncarnationId) :
    a.forgetLiveness.incarnations[i]? =
      (a.incarnations[i]?).map IncarnationRecord.forgetLiveness :=
  ExtTreeMap.getElem?_map

/-- The words of one fence in the account digest. -/
def digestFence (b : DigestBuilder) (fence : FenceRecord) : DigestBuilder :=
  (((((b.u64 fence.incarnation).u64 fence.epoch).u64 fence.generation).u64
    (UInt64.ofNat fence.cause.code)).u64 fence.sequence).u64 fence.fencedCredit

/-- The words of one incarnation record in the account digest; the reconciliation proof and
    the fencing sequence are not covered. -/
def digestIncarnation (b : DigestBuilder) (record : IncarnationRecord) : DigestBuilder :=
  let b := ((b.u64 record.id).u64 record.publisher).u64 record.boot
  let b := (b.u64 (UInt64.ofNat record.state.code)).u64 record.reconciledEpoch
  let b := (b.u64 record.reconciledGeneration).u64 record.producer
  let b := (b.u64 record.consumer).u64 record.grant
  ((b.u64 record.lastSequence).u64 record.committedOps).u64 record.refusedOps

/-- `account_digest`; the incarnations are absorbed in ascending order of their keys. -/
def digest (a : AccountState) : Digest128 :=
  let b := DigestBuilder.keyed ⟨0x51ED270B5A3D8F11, 0x118F3D5A0B27ED51⟩
  let b := b.digest a.config.digest
  let b := ((b.u64 a.epoch).u64 a.generation).u64 a.capacity
  let b := ((b.u64 a.totals.issued).u64 a.totals.consumed).u64 a.totals.returned
  let b := (b.u64 a.totals.stale).u64 a.totals.protectedCredits
  let b := (b.boolean a.hardExhausted).u64 (UInt64.ofNat a.exhaustionCause.code)
  let b := (b.u64 a.committedAttempts).u64 a.refusedAttempts
  let b := a.fences.foldl digestFence (b.u64 (UInt64.ofNat a.fences.length))
  let records := a.incarnations.toList.map Prod.snd
  (records.foldl digestIncarnation (b.u64 (UInt64.ofNat records.length))).finish

/-- `resolve_ambiguous`: the notes of a decided place are dropped. -/
def resolveAmbiguous (a : AccountState) (incarnation : IncarnationId) (sequence : UInt64) :
    AccountState :=
  { a with ambiguous := a.ambiguous.filter fun note =>
      !(note.incarnation == incarnation && note.sequence == sequence) }

/-- `publish_window_locked`: remember the decision, move the caller's watermark, resolve its
    ambiguous notes. -/
def publishWindow (a : AccountState) (r : CreditRequest) (outcome : CreditOutcome) :
    AccountState :=
  let entry : WindowEntry :=
    { key := { incarnation := r.authority.incarnation, sequence := r.sequence },
      attempt := r.attempt, request := r.digest, status := outcome.status,
      applied := outcome.applied, view := outcome.view }
  let a := { a with window := a.window.insert entry }
  let a := a.updateIncarnation r.authority.incarnation fun record =>
    { record with lastSequence := r.sequence }
  a.resolveAmbiguous r.authority.incarnation r.sequence

/-- Publishing moves the caller's watermark and no other record. -/
theorem getElem?_publishWindow (a : AccountState) (r : CreditRequest) (o : CreditOutcome)
    (i : IncarnationId) : (a.publishWindow r o).incarnations[i]? =
      if i = r.authority.incarnation then
        (a.incarnations[r.authority.incarnation]?).map fun record =>
          { record with lastSequence := r.sequence }
      else a.incarnations[i]? :=
  getElem?_updateIncarnation _ _ _ _

/-- What publishing leaves alone. -/
theorem publishWindow_eq (a : AccountState) (r : CreditRequest) (o : CreditOutcome) :
    a.publishWindow r o =
      { a with window := (a.publishWindow r o).window,
               incarnations := (a.publishWindow r o).incarnations,
               ambiguous := (a.publishWindow r o).ambiguous } := by
  unfold publishWindow resolveAmbiguous
  simp only
  rw [updateIncarnation_eq]

/-- `record_refusal_locked`: append until the log is full, then overwrite cyclically. -/
def recordRefusal (a : AccountState) (maxRefusalLog : Nat) (r : CreditRequest)
    (outcome : CreditOutcome) : AccountState :=
  let note : RefusalNote :=
    { attempt := r.attempt, op := r.op, sequence := r.sequence,
      incarnation := r.authority.incarnation, reason := outcome.status.reason,
      detail := outcome.status.detail, epoch := a.epoch, generation := a.generation }
  if a.refusals.length < maxRefusalLog then { a with refusals := a.refusals ++ [note] }
  else
    { a with
      refusals := a.refusals.set (a.refusalCursor % maxRefusalLog) note
      refusalCursor := (a.refusalCursor + 1) % maxRefusalLog }

/-- What logging a refusal leaves alone. -/
theorem recordRefusal_eq (a : AccountState) (maxRefusalLog : Nat) (r : CreditRequest)
    (o : CreditOutcome) : a.recordRefusal maxRefusalLog r o =
      { a with refusals := (a.recordRefusal maxRefusalLog r o).refusals,
               refusalCursor := (a.recordRefusal maxRefusalLog r o).refusalCursor } := by
  unfold recordRefusal
  by_cases h : a.refusals.length < maxRefusalLog
  · simp only [if_pos h]
  · simp only [if_neg h]

/-- `build_durable_account`; the collections are written for a snapshot only. -/
def buildDurable (a : AccountState) (whole : Bool) : DurableAccount :=
  let durable : DurableAccount :=
    { config := a.config, epoch := a.epoch, generation := a.generation, capacity := a.capacity,
      totals := a.totals, hardExhausted := a.hardExhausted, exhaustionCause := a.exhaustionCause,
      stateDigest := a.digest, committedAttempts := a.committedAttempts,
      refusedAttempts := a.refusedAttempts }
  if !whole then durable else
  { durable with
    incarnations := a.incarnations.toList.map Prod.snd
    fences := a.fences
    ambiguous := a.ambiguous
    attemptWindow := a.window.identities }

end AccountState

/-! ### The constant-space backup -/

/-- What the engine saves of an account before it mutates it. -/
structure AccountBackup where
  totals : CreditTotals := {}
  capacity : UInt64 := 0
  hardExhausted : Bool := false
  exhaustionCause : Reason := .ok
  epoch : EpochId := 0
  generation : Generation := 0
  committedAttempts : UInt64 := 0
  refusedAttempts : UInt64 := 0
  fenceCount : Nat := 0
  caller : Option IncarnationRecord := none
  target : Option IncarnationRecord := none
deriving DecidableEq, Repr

/-- The `*_existed` flag and the saved record of the source are one option here. -/
def captureBackup (a : AccountState) (caller subject : IncarnationId) : AccountBackup where
  totals := a.totals
  capacity := a.capacity
  hardExhausted := a.hardExhausted
  exhaustionCause := a.exhaustionCause
  epoch := a.epoch
  generation := a.generation
  committedAttempts := a.committedAttempts
  refusedAttempts := a.refusedAttempts
  fenceCount := a.fences.length
  caller := a.incarnations[caller]?
  target :=
    if isSet subject && !(subject == caller) then a.incarnations[subject]?
    else a.incarnations[caller]?

/-- Put a saved record back: written when it existed, erased when it did not. -/
def restoreRecord (incarnations : ExtTreeMap UInt64 IncarnationRecord) (id : IncarnationId)
    (saved : Option IncarnationRecord) : ExtTreeMap UInt64 IncarnationRecord :=
  match saved with
  | some record => incarnations.insert id record
  | none => incarnations.erase id

/-- `restore_backup`: the saved fields are put back, with the records of the caller and the subject,
    and the fences added since are dropped. -/
def restoreBackup (a : AccountState) (b : AccountBackup) (caller subject : IncarnationId) :
    AccountState :=
  let incarnations := restoreRecord a.incarnations caller b.caller
  { a with
    totals := b.totals
    capacity := b.capacity
    hardExhausted := b.hardExhausted
    exhaustionCause := b.exhaustionCause
    epoch := b.epoch
    generation := b.generation
    committedAttempts := b.committedAttempts
    refusedAttempts := b.refusedAttempts
    fences := a.fences.take b.fenceCount
    incarnations :=
      if isSet subject && !(subject == caller) then restoreRecord incarnations subject b.target
      else incarnations }

end CreditFabric
