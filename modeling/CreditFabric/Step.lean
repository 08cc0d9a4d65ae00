import CreditFabric.Recovery
import CreditFabric.Decision

namespace CreditFabric

open Std (ExtTreeMap)

/-!
# What one call can do

The results of `appendDecision`, `snapshotLocked` and `persistLocked` are classified by which
journal call failed, if any (`Appended`, `Snapshotted`, `Persisted`); none of them touches an
account (`persistLocked_frame`).  `apply_cases` then says everything `apply` can do: answer
without a trace, absorb a duplicate, open an account, or follow the decision on an admitted
request.  Every result about the live engine is derived from these lemmas.
-/

namespace CreditEngine

variable {J : Type} [Journal J]

section Put

variable (e : CreditEngine J) (key : UInt64) (a : AccountState)

omit [Journal J]

@[simp] theorem put_accounts : (e.put key a).accounts = e.accounts.insert key a := rfl

@[simp] theorem put_journal : (e.put key a).journal = e.journal := rfl

@[simp] theorem put_limits : (e.put key a).limits = e.limits := rfl

@[simp] theorem put_challenge : (e.put key a).challenge = e.challenge := rfl

@[simp] theorem put_operatorIncarnation :
    (e.put key a).operatorIncarnation = e.operatorIncarnation := rfl

@[simp] theorem put_recovered : (e.put key a).recovered = e.recovered := rfl

@[simp] theorem put_journalFailed : (e.put key a).journalFailed = e.journalFailed := rfl

@[simp] theorem put_chain : (e.put key a).chain = e.chain := rfl

@[simp] theorem put_nextJournalSequence :
    (e.put key a).nextJournalSequence = e.nextJournalSequence := rfl

end Put

/-! ### Journaling a decision -/

section Persist

variable (e : CreditEngine J) (r : CreditRequest) (outcome : CreditOutcome) (a : AccountState)
  (created : Bool)

/-- The journal behind the Intent append, whatever its status. -/
def intentJournal : J := (Journal.append e.journal (e.intentRecord r)).2

/-- The status of the Attempt append and the journal behind it. -/
def attemptAppend : Status × J :=
  Journal.append (e.intentJournal r) (e.attemptRecord r outcome a created)

/-- The engine once both records are durable. -/
def afterDecision : CreditEngine J :=
  { e with
    journal := (e.attemptAppend r outcome a created).2
    chain := (e.attemptRecord r outcome a created).chain
    nextJournalSequence := e.nextJournalSequence + 1 + 1
    journalRecords := e.journalRecords + 2
    stats := { e.stats with
      journalRecords := e.journalRecords + 2
      journalBytes := Journal.bytes (e.attemptAppend r outcome a created).2 } }

/-- The three ways `appendDecision` ends. -/
inductive Appended : Status → CreditEngine J → Prop
  | intentFailed (h : (Journal.append e.journal (e.intentRecord r)).1.ok = false) :
      Appended (Journal.append e.journal (e.intentRecord r)).1
        { e with journal := e.intentJournal r }
  | attemptFailed (hi : (Journal.append e.journal (e.intentRecord r)).1.ok = true)
      (h : (e.attemptAppend r outcome a created).1.ok = false) :
      Appended (e.attemptAppend r outcome a created).1
        { e with journal := (e.attemptAppend r outcome a created).2,
                 nextJournalSequence := e.nextJournalSequence + 1 }
  | durable (hi : (Journal.append e.journal (e.intentRecord r)).1.ok = true)
      (h : (e.attemptAppend r outcome a created).1.ok = true) :
      Appended .success (e.afterDecision r outcome a created)

/-- Both appends of a decision that was appended succeeded. -/
theorem Appended.eq_of_ok {e : CreditEngine J} {r : CreditRequest} {outcome : CreditOutcome}
    {a : AccountState} {created : Bool} {s : Status} {e' : CreditEngine J}
    (h : Appended e r outcome a created s e') (hok : s.ok = true) :
    e' = e.afterDecision r outcome a created ∧
      (Journal.append e.journal (e.intentRecord r)).1.ok = true ∧
      (e.attemptAppend r outcome a created).1.ok = true := by
  cases h with
  | intentFailed h => exact absurd hok (by rw [h]; decide)
  | attemptFailed hi h => exact absurd hok (by rw [h]; decide)
  | durable hi h => exact ⟨rfl, hi, h⟩

/-- What appending a decision can leave. -/
theorem appendDecision_appended : Appended e r outcome a created
    (e.appendDecision r outcome a created).1 (e.appendDecision r outcome a created).2 := by
  by_cases hi : (Journal.append e.journal (e.intentRecord r)).1.ok = true
  · by_cases ha : (e.attemptAppend r outcome a created).1.ok = true
    · have heq : e.appendDecision r outcome a created =
          (.success, e.afterDecision r outcome a created) := by
        simp only [attemptAppend, intentJournal] at ha
        simp [appendDecision, afterDecision, attemptAppend, intentJournal, hi, ha]
      rw [heq]
      exact .durable hi ha
    · rw [Bool.not_eq_true] at ha
      have heq : e.appendDecision r outcome a created =
          ((e.attemptAppend r outcome a created).1,
            { e with journal := (e.attemptAppend r outcome a created).2,
                     nextJournalSequence := e.nextJournalSequence + 1 }) := by
        simp only [attemptAppend, intentJournal] at ha
        simp [appendDecision, attemptAppend, intentJournal, hi, ha]
      rw [heq]
      exact .attemptFailed hi ha
  · rw [Bool.not_eq_true] at hi
    have heq : e.appendDecision r outcome a created =
        ((Journal.append e.journal (e.intentRecord r)).1,
          { e with journal := e.intentJournal r }) := by
      simp [appendDecision, intentJournal, hi]
    rw [heq]
    exact .intentFailed hi

/-! ### Snapshots -/

/-- The Snapshot record and the image of the current state. -/
def snapshotRecord : JournalRecord :=
  { sequence := e.nextJournalSequence, kind := .snapshot, chain := e.chain,
    payload := encodeDurableState e.durableState }

/-- The image a snapshot writes. -/
def snapshotImage : SnapshotImage :=
  { sequence := e.nextJournalSequence, chain := e.chain,
    payload := encodeDurableState e.durableState }

/-- Its first operation: the snapshot's own record. -/
def snapshotAppend : Status × J := Journal.append e.journal e.snapshotRecord

/-- The second: the image. -/
def snapshotWrite : Status × J := Journal.writeSnapshot e.snapshotAppend.2 e.snapshotImage

/-- The third: the rotation of the log. -/
def snapshotRotate : Status × J := Journal.rotate e.snapshotWrite.2 e.nextJournalSequence

/-- The engine once the snapshot is durable and the log is rotated. -/
def afterSnapshot : CreditEngine J :=
  { e with
    journal := e.snapshotRotate.2
    nextJournalSequence := e.nextJournalSequence + 1
    journalRecords := 0
    snapshots := e.snapshots + 1
    stats := { e.stats with
      journalRecords := 0
      journalBytes := Journal.bytes e.snapshotRotate.2
      snapshots := e.snapshots + 1 } }

/-- The four ways `snapshotLocked` ends. -/
inductive Snapshotted : Status → CreditEngine J → Prop
  | appendFailed (h : e.snapshotAppend.1.ok = false) :
      Snapshotted e.snapshotAppend.1 { e with journal := e.snapshotAppend.2 }
  | writeFailed (ha : e.snapshotAppend.1.ok = true) (h : e.snapshotWrite.1.ok = false) :
      Snapshotted e.snapshotWrite.1
        { e with journal := e.snapshotWrite.2,
                 nextJournalSequence := e.nextJournalSequence + 1,
                 journalRecords := e.journalRecords + 1 }
  | rotateFailed (ha : e.snapshotAppend.1.ok = true) (hw : e.snapshotWrite.1.ok = true)
      (h : e.snapshotRotate.1.ok = false) :
      Snapshotted e.snapshotRotate.1
        { e with journal := e.snapshotRotate.2,
                 nextJournalSequence := e.nextJournalSequence + 1,
                 journalRecords := e.journalRecords + 1 }
  | durable (ha : e.snapshotAppend.1.ok = true) (hw : e.snapshotWrite.1.ok = true)
      (h : e.snapshotRotate.1.ok = true) : Snapshotted .success e.afterSnapshot

/-- What a snapshot can leave. -/
theorem snapshotLocked_snapshotted :
    Snapshotted e e.snapshotLocked.1 e.snapshotLocked.2 := by
  -- the three journal calls of a snapshot: the first that fails ends it
  by_cases ha : e.snapshotAppend.1.ok = true
  · by_cases hw : e.snapshotWrite.1.ok = true
    · by_cases hr : e.snapshotRotate.1.ok = true
      · have heq : e.snapshotLocked = (.success, e.afterSnapshot) := by
          simp only [snapshotRotate, snapshotWrite, snapshotAppend, snapshotRecord,
            snapshotImage] at ha hw hr
          simp [snapshotLocked, afterSnapshot, snapshotRotate, snapshotWrite, snapshotAppend,
            snapshotRecord, snapshotImage, ha, hw, hr]
        rw [heq]
        exact .durable ha hw hr
      · rw [Bool.not_eq_true] at hr
        have heq : e.snapshotLocked = (e.snapshotRotate.1,
            { e with journal := e.snapshotRotate.2,
                     nextJournalSequence := e.nextJournalSequence + 1,
                     journalRecords := e.journalRecords + 1 }) := by
          simp only [snapshotRotate, snapshotWrite, snapshotAppend, snapshotRecord,
            snapshotImage] at ha hw hr
          simp [snapshotLocked, snapshotRotate, snapshotWrite, snapshotAppend,
            snapshotRecord, snapshotImage, ha, hw, hr]
        rw [heq]
        exact .rotateFailed ha hw hr
    · rw [Bool.not_eq_true] at hw
      have heq : e.snapshotLocked = (e.snapshotWrite.1,
          { e with journal := e.snapshotWrite.2,
                   nextJournalSequence := e.nextJournalSequence + 1,
                   journalRecords := e.journalRecords + 1 }) := by
        simp only [snapshotWrite, snapshotAppend, snapshotRecord, snapshotImage] at ha hw
        simp [snapshotLocked, snapshotWrite, snapshotAppend, snapshotRecord, snapshotImage, ha,
          hw]
      rw [heq]
      exact .writeFailed ha hw
  · rw [Bool.not_eq_true] at ha
    have heq : e.snapshotLocked =
        (e.snapshotAppend.1, { e with journal := e.snapshotAppend.2 }) := by
      simp only [snapshotAppend, snapshotRecord] at ha
      simp [snapshotLocked, snapshotAppend, snapshotRecord, ha]
    rw [heq]
    exact .appendFailed ha

/-! ### Persisting -/

/-- The rotation thresholds, checked behind the appends. -/
def rotationDue : Prop :=
  e.journalRecords ≥ e.limits.journalRecordsPerSnapshot ∨
    Journal.bytes e.journal ≥ e.limits.maxJournalBytes

instance : Decidable e.rotationDue := inferInstanceAs (Decidable (_ ∨ _))

/-- The ways `persistLocked` ends. -/
inductive Persisted : Status → CreditEngine J → Prop
  | appendFailed {s : Status} {e' : CreditEngine J} (h : Appended e r outcome a created s e')
      (hs : s.ok = false) : Persisted s e'
  | kept (hi : (Journal.append e.journal (e.intentRecord r)).1.ok = true)
      (h : (e.attemptAppend r outcome a created).1.ok = true)
      (hrot : ¬ (e.afterDecision r outcome a created).rotationDue) :
      Persisted .success (e.afterDecision r outcome a created)
  | rotated {s : Status} {e' : CreditEngine J}
      (hi : (Journal.append e.journal (e.intentRecord r)).1.ok = true)
      (h : (e.attemptAppend r outcome a created).1.ok = true)
      (hrot : (e.afterDecision r outcome a created).rotationDue)
      (hsnap : Snapshotted (e.afterDecision r outcome a created) s e') : Persisted s e'

/-- What persisting a decision can leave. -/
theorem persistLocked_persisted : Persisted e r outcome a created
    (e.persistLocked r outcome a created).1 (e.persistLocked r outcome a created).2 := by
  have happ := appendDecision_appended e r outcome a created
  have heq : e.persistLocked r outcome a created =
      if !(e.appendDecision r outcome a created).1.ok then e.appendDecision r outcome a created
      else if (e.appendDecision r outcome a created).2.rotationDue then
        (e.appendDecision r outcome a created).2.snapshotLocked
      else (.success, (e.appendDecision r outcome a created).2) := rfl
  cases hok : (e.appendDecision r outcome a created).1.ok with
  | false =>
    rw [heq, hok]
    exact .appendFailed happ hok
  | true =>
    obtain ⟨he', hi, ha⟩ := happ.eq_of_ok hok
    rw [heq, hok, he']
    by_cases hrot : (e.afterDecision r outcome a created).rotationDue
    · simp only [hrot, Bool.not_true, Bool.false_eq_true, if_false, if_true]
      exact .rotated hi ha hrot (snapshotLocked_snapshotted _)
    · simp only [hrot, Bool.not_true, Bool.false_eq_true, if_false]
      exact .kept hi ha hrot

end Persist

/-- What journaling never changes: the accounts, the configuration of the engine, its two
    flags and the counters of decisions. -/
structure SameLedger (e e' : CreditEngine J) : Prop where
  accounts : e'.accounts = e.accounts
  limits : e'.limits = e.limits
  operatorIncarnation : e'.operatorIncarnation = e.operatorIncarnation
  challenge : e'.challenge = e.challenge
  recovered : e'.recovered = e.recovered
  journalFailed : e'.journalFailed = e.journalFailed
  attemptsApplied : e'.stats.attemptsApplied = e.stats.attemptsApplied
  attemptsRefused : e'.stats.attemptsRefused = e.stats.attemptsRefused

/-- Appending touches no account. -/
theorem Appended.sameLedger {e e' : CreditEngine J} {r : CreditRequest} {o : CreditOutcome}
    {a : AccountState} {c : Bool} {s : Status} (h : Appended e r o a c s e') :
    SameLedger e e' := by
  cases h <;> exact ⟨rfl, rfl, rfl, rfl, rfl, rfl, rfl, rfl⟩

/-- Nor does a snapshot. -/
theorem Snapshotted.sameLedger {e e' : CreditEngine J} {s : Status} (h : Snapshotted e s e') :
    SameLedger e e' := by
  cases h <;> exact ⟨rfl, rfl, rfl, rfl, rfl, rfl, rfl, rfl⟩

/-- Nor do both together. -/
theorem Persisted.sameLedger {e e' : CreditEngine J} {r : CreditRequest} {o : CreditOutcome}
    {a : AccountState} {c : Bool} {s : Status} (h : Persisted e r o a c s e') :
    SameLedger e e' := by
  cases h with
  | appendFailed h _ => exact h.sameLedger
  | kept hi h _ => exact (Appended.durable hi h).sameLedger
  | rotated hi h _ hsnap =>
    have h₁ := (Appended.durable hi h).sameLedger
    have h₂ := hsnap.sameLedger
    exact ⟨h₂.1.trans h₁.1, h₂.2.trans h₁.2, h₂.3.trans h₁.3, h₂.4.trans h₁.4, h₂.5.trans h₁.5,
      h₂.6.trans h₁.6, h₂.7.trans h₁.7, h₂.8.trans h₁.8⟩

/-- **Journaling frame.**  `persistLocked` leaves everything but the journal state alone. -/
theorem persistLocked_frame (e : CreditEngine J) (r : CreditRequest) (o : CreditOutcome)
    (a : AccountState) (c : Bool) : SameLedger e (e.persistLocked r o a c).2 :=
  (persistLocked_persisted e r o a c).sameLedger

omit [Journal J] in
/-- What the engine puts into an Attempt record. -/
theorem durableAttempt_written (e : CreditEngine J) (r : CreditRequest) {o : CreditOutcome}
    (a : AccountState) {c : Bool} (hview : o.view.quarantined = o.view.stale)
    (hcreated : c = true → o.applied = true) : (e.durableAttempt r o a c).Written :=
  ⟨rfl, hview, hcreated, rfl, rfl, rfl, rfl⟩

/-! ### Settling -/

section Settle

variable {e : CreditEngine J} {r : CreditRequest} {outcome : CreditOutcome} {a : AccountState}
  {created : Bool} {rollback publish : CreditEngine J → CreditEngine J}

/-- A decision that was not persisted is undone and answered as undecided. -/
theorem settle_of_failed (h : (e.persistLocked r outcome a created).1.ok = false) :
    e.settle r outcome a created rollback publish =
      ({ outcome with applied := false, decided := false,
                      status := (e.persistLocked r outcome a created).1 },
        { rollback (e.persistLocked r outcome a created).2 with journalFailed := true }) := by
  unfold settle
  simp only [h, Bool.not_false, if_true]

/-- One that was persisted is published. -/
theorem settle_of_ok (h : (e.persistLocked r outcome a created).1.ok = true) :
    e.settle r outcome a created rollback publish =
      (outcome, publish (e.persistLocked r outcome a created).2) := by
  unfold settle
  simp only [h, Bool.not_true, Bool.false_eq_true, if_false]

end Settle

/-! ### Admission -/

/-- A request that reaches a decision on the account `a`. -/
structure Admitted (e : CreditEngine J) (r : CreditRequest) (a : AccountState) : Prop where
  recovered : e.recovered = true
  healthy : e.journalFailed = false
  valid : validateRequest e.limits r = none
  notDescribe : r.op ≠ .describe
  notOpen : r.op ≠ .open_
  found : e.accounts[r.authority.account]? = some a
  bound : bindAuthority e.limits e.operatorIncarnation a r = none
  placed : placeInSequence a r = .admitted
  evidence : classify r.op = .control →
    ¬ (r.expectedState.isZero = false ∧ r.expectedState ≠ a.digest)

/-- What the authority binding of an admitted request has checked. -/
structure Bound (limits : EngineLimits) (operator : Incarnation) (a : AccountState)
    (r : CreditRequest) : Prop where
  domain : r.authority.domain = a.domain
  epoch : r.authority.epoch = a.epoch
  generation : r.authority.generation = a.generation
  incarnation : bindIncarnation limits a r = none
  operator : classify r.op = .control → r.authority.incarnation = operator.id

/-- A request that passed the authority checks is bound. -/
theorem bound_of_bindAuthority {limits : EngineLimits} {operator : Incarnation}
    {a : AccountState} {r : CreditRequest} (h : bindAuthority limits operator a r = none) :
    Bound limits operator a r := by
  unfold bindAuthority at h
  by_cases hdomain : r.authority.domain ≠ a.domain
  · rw [if_pos hdomain] at h
    exact absurd h (by simp)
  rw [if_neg hdomain] at h
  by_cases hera : r.authority.epoch ≠ a.epoch ∨ r.authority.generation ≠ a.generation
  · rw [if_pos hera] at h
    exact absurd h (by simp)
  rw [if_neg hera] at h
  rw [not_or, not_not, not_not] at hera
  cases hb : bindIncarnation limits a r with
  | some s =>
    rw [hb] at h
    exact absurd h (by simp)
  | none =>
    rw [hb] at h
    simp only at h
    split_ifs at h with hop
    exact ⟨not_not.mp hdomain, hera.1, hera.2, hb, fun hc => by_contra fun hne => hop ⟨hc, hne⟩⟩

/-- The caller of any operation but Reconcile is live in the account's era. -/
theorem live_of_bindIncarnation {limits : EngineLimits} {a : AccountState} {r : CreditRequest}
    (h : bindIncarnation limits a r = none) (hop : r.op ≠ .reconcile) :
    ∃ b, a.incarnations[r.authority.incarnation]? = some b ∧
      b.isLive a.epoch a.generation = true := by
  unfold bindIncarnation at h
  simp only [hop, if_false, AccountState.findIncarnation] at h
  cases hfind : a.incarnations[r.authority.incarnation]? with
  | none => simp [hfind] at h
  | some b =>
    simp only [hfind] at h
    split_ifs at h with _ _ hlive
    exact ⟨b, rfl, by simpa using hlive⟩

/-- An Open that is accepted. -/
structure Opens (e : CreditEngine J) (r : CreditRequest) : Prop where
  recovered : e.recovered = true
  healthy : e.journalFailed = false
  valid : validateRequest e.limits r = none
  op : r.op = .open_
  accepted : validateOpen e.limits e.challenge e.accounts r = none

omit [Journal J] in
/-- An accepted Open finds no account under its key, which is the one it creates. -/
theorem Opens.fresh {e : CreditEngine J} {r : CreditRequest} (h : Opens e r) :
    e.accounts[r.authority.account]? = none ∧ r.config.account = r.authority.account := by
  have haccepted := h.accepted
  unfold validateOpen at haccepted
  simp only [ExtTreeMap.contains_eq_isSome_getElem?] at haccepted
  split_ifs at haccepted with h₁ h₂
  refine ⟨by simpa using h₁, ?_⟩
  by_contra hne
  exact h₂ (.inr hne)

/-- The decision on an admitted request. -/
def decision (e : CreditEngine J) (a : AccountState) (r : CreditRequest) : Decision :=
  if classify r.op = .control then decideControl e.limits a r
  else if r.op = .reconcile then decideReconcile e.challenge a r
  else decideLedger a r

omit [Journal J] in
/-- The decision is one of the three functions, each with its own cases. -/
theorem decision_cases (e : CreditEngine J) (a : AccountState) (r : CreditRequest) :
    ControlCase e.limits a r (e.decision a r) ∧ classify r.op = .control ∨
      ReconcileCase e.challenge a r (e.decision a r) ∧ r.op = .reconcile ∨
      LedgerCase a r (e.decision a r) ∧ classify r.op ≠ .control ∧ r.op ≠ .reconcile := by
  unfold decision
  by_cases hcontrol : classify r.op = .control
  · rw [if_pos hcontrol]
    exact .inl ⟨decideControl_cases e.limits a r, hcontrol⟩
  · rw [if_neg hcontrol]
    by_cases hrec : r.op = .reconcile
    · rw [if_pos hrec]
      exact .inr (.inl ⟨decideReconcile_cases e.challenge a r, hrec⟩)
    · rw [if_neg hrec]
      exact .inr (.inr ⟨decideLedger_cases a r, hcontrol, hrec⟩)

/-- The incarnation, besides the caller, whose record the backup saves. -/
def subject (r : CreditRequest) : IncarnationId :=
  if classify r.op = .control then r.target else 0

/-- The outcome an admitted request is decided with. -/
def admittedOutcome (r : CreditRequest) (a : AccountState) : CreditOutcome :=
  { CreditOutcome.ofRequest r with
    authority := { r.authority with epoch := a.epoch, generation := a.generation } }

/-- The account an Open creates and the outcome it is journaled with. -/
def openOutcome (e : CreditEngine J) (r : CreditRequest) : CreditOutcome :=
  appliedOutcome (.ofRequest r) (openedAccount e.limits r)

/-- Creating an account: journal it, publish it, or erase it again. -/
def settleOpen (e : CreditEngine J) (r : CreditRequest) : CreditOutcome × CreditEngine J :=
  let a := openedAccount e.limits r
  (e.put a.account a).settle r (e.openOutcome r) a true
    (fun e => { e with accounts := e.accounts.erase a.account })
    (publishApplied a.account a r (e.openOutcome r))

/-- The decision on an admitted request, carried through. -/
def settleDecision (e : CreditEngine J) (a : AccountState) (r : CreditRequest) :
    CreditOutcome × CreditEngine J :=
  e.follow r (admittedOutcome r a) (e.decision a r)
    (captureBackup a r.authority.incarnation (subject r)) (subject r)

/-- Everything one call can do. -/
inductive ApplyCase (e : CreditEngine J) (r : CreditRequest) :
    CreditOutcome × CreditEngine J → Prop
  | answered (o : CreditOutcome) (happlied : o.applied = false) (hdup : o.duplicate = false) :
      ApplyCase e r (o, e)
  | absorbed (a : AccountState) (existing : WindowEntry)
      (found : e.accounts[r.authority.account]? = some a)
      (placed : placeInSequence a r = .duplicate existing) :
      ApplyCase e r (duplicateOutcome (.ofRequest r) a existing,
        { e with stats :=
          { e.stats with duplicatesAbsorbed := e.stats.duplicatesAbsorbed + 1 } })
  | opened (h : Opens e r) : ApplyCase e r (e.settleOpen r)
  | decided (a : AccountState) (h : Admitted e r a) : ApplyCase e r (e.settleDecision a r)

omit [Journal J] in
/-- Describing a request decides nothing. -/
theorem describe_applied (e : CreditEngine J) (r : CreditRequest) :
    (e.describe r (.ofRequest r)).applied = false ∧
      (e.describe r (.ofRequest r)).duplicate = false ∧
      (e.describe r (.ofRequest r)).decided = false := by
  unfold describe
  cases e.accounts[r.authority.account]? with
  | none => exact ⟨rfl, rfl, rfl⟩
  | some a =>
    by_cases hdomain : r.authority.domain ≠ a.domain
    · simp only [if_pos hdomain]
      exact ⟨rfl, rfl, rfl⟩
    · simp only [if_neg hdomain]
      exact ⟨rfl, rfl, rfl⟩

/-- **Case analysis of one call.** -/
theorem apply_cases (e : CreditEngine J) (r : CreditRequest) : ApplyCase e r (e.apply r) := by
  unfold apply
  -- the checks in the order of the source; only an admitted request is decided
  cases hrec : e.recovered with
  | false => exact .answered _ rfl rfl
  | true =>
  cases hfail : e.journalFailed with
  | true => exact .answered _ rfl rfl
  | false =>
  simp only [Bool.not_true, Bool.false_eq_true, if_false]
  unfold applyLocked
  cases hvalid : validateRequest e.limits r with
  | some status => exact .answered _ rfl rfl
  | none =>
  by_cases hdescribe : r.op = .describe
  · simp only [hdescribe, if_true]
    exact .answered _ (describe_applied e r).1 (describe_applied e r).2.1
  by_cases hopen : r.op = .open_
  · simp only [hopen, if_true]
    unfold createAccountLocked
    cases haccept : validateOpen e.limits e.challenge e.accounts r with
    | some status => exact .answered _ rfl rfl
    | none => exact .opened ⟨hrec, hfail, hvalid, hopen, haccept⟩
  simp only [hdescribe, hopen, if_false]
  cases hfound : e.accounts[r.authority.account]? with
  | none => exact .answered _ rfl rfl
  | some a =>
  simp only
  unfold applyToAccount
  cases hbound : bindAuthority e.limits e.operatorIncarnation a r with
  | some status => exact .answered _ rfl rfl
  | none =>
  cases hplaced : placeInSequence a r with
  | duplicate existing => exact .absorbed a existing hfound hplaced
  | conflict => exact .answered _ rfl rfl
  | refused status => exact .answered _ rfl rfl
  | admitted =>
  have hadmitted := Admitted.mk hrec hfail hvalid hdescribe hopen hfound hbound hplaced
  by_cases hcontrol : classify r.op = .control
  · simp only [hcontrol, if_true]
    unfold decideControlLocked
    by_cases hevidence : r.expectedState.isZero = false ∧ r.expectedState ≠ a.digest
    · simp only [hevidence, Bool.not_false, true_and, ne_eq, not_false_eq_true, if_true]
      exact .answered _ rfl rfl
    · have hcase := ApplyCase.decided a (hadmitted fun _ => hevidence)
      simp only [settleDecision, decision, subject, hcontrol, if_true] at hcase
      rw [if_neg (by simpa using hevidence)]
      exact hcase
  · have hcase := ApplyCase.decided a (hadmitted fun h => absurd h hcontrol)
    simp only [settleDecision, decision, subject, hcontrol, if_false] at hcase
    simp only [hcontrol, if_false]
    exact hcase

/-- An Open that is accepted creates the account. -/
theorem apply_of_opens {e : CreditEngine J} {r : CreditRequest} (h : Opens e r) :
    e.apply r = e.settleOpen r := by
  unfold apply applyLocked createAccountLocked
  simp only [h.recovered, h.healthy, h.valid, h.op, h.accepted, Bool.not_true, Bool.false_eq_true,
    if_false, if_true, reduceCtorEq]
  rfl

/-- An admitted request is decided. -/
theorem apply_of_admitted {e : CreditEngine J} {r : CreditRequest} {a : AccountState}
    (h : Admitted e r a) : e.apply r = e.settleDecision a r := by
  unfold apply applyLocked applyToAccount
  simp only [h.recovered, h.healthy, h.valid, h.notDescribe, h.notOpen, h.found, h.bound,
    h.placed, Bool.not_true, Bool.false_eq_true, if_false]
  by_cases hcontrol : classify r.op = .control
  · have hevidence := h.evidence hcontrol
    unfold decideControlLocked
    simp only [settleDecision, decision, subject, hcontrol, if_true]
    rw [if_neg (by simpa using hevidence)]
    rfl
  · simp only [settleDecision, decision, subject, hcontrol, if_false]
    rfl

end CreditEngine

end CreditFabric
