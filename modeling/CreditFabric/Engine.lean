import CreditFabric.Account

namespace CreditFabric

open Std (ExtTreeMap)

/-!
# The live engine

The decision path of `engine.cpp`: validate, bind authority, place in sequence, decide,
journal the intent and the decision, publish to the attempt window.  The engine is generic
over its journal, and every function returns the engine after the call.  Where the source
mutates an account through a reference, the account is written back with `put` at the point
of the mutation, because a snapshot taken later in the same call reads it there.

The mutex, the null journal and the never-read `journal_bytes_` are left out.
-/

/-- Durable engine statistics. -/
structure EngineStats where
  attemptsApplied : UInt64 := 0
  attemptsRefused : UInt64 := 0
  duplicatesAbsorbed : UInt64 := 0
  journalRecords : Nat := 0
  journalBytes : Nat := 0
  snapshots : UInt64 := 0
  replayedRecords : UInt64 := 0
  replayedAmbiguous : UInt64 := 0
deriving DecidableEq, Repr

/-- The engine: its limits (clamped), its journal and the state it rebuilds from it. -/
structure CreditEngine (J : Type) where
  limits : EngineLimits
  journal : J
  operatorIncarnation : Incarnation
  challenge : ReconciliationChallenge
  accounts : ExtTreeMap UInt64 AccountState := ∅
  nextJournalSequence : UInt64 := 0
  chain : Digest128 := {}
  journalRecords : Nat := 0
  snapshots : UInt64 := 0
  stats : EngineStats := {}
  recovered : Bool := false
  journalFailed : Bool := false
deriving DecidableEq

/-! ### Admission

The checks in front of a decision are pure; a refusal there carries no durable identity. -/

/-- Structural validation of a request against the engine's note bound. -/
def validateRequest (limits : EngineLimits) (r : CreditRequest) : Option Status :=
  if !isSet r.presenter.id ∨ r.presenter.id ≠ r.authority.incarnation ∨
      makeIncarnationId r.presenter.publisher r.presenter.boot ≠ r.presenter.id then
    some (.refused .malformedMessage 2)
  else if !isSet r.authority.domain ∨ !isSet r.authority.account then
    some (.refused .malformedMessage 3)
  else if r.sequence = 0 then some (.refused .malformedMessage 4)
  else if r.note.length > limits.maxNoteBytes then
    some (.refused .oversizedFrame (UInt64.ofNat r.note.length))
  else if opRequiresCount r.op ∧ r.count = 0 then some (.refused .countZero 1)
  else none

/-- The checks on the caller's incarnation record. -/
def bindIncarnation (limits : EngineLimits) (a : AccountState) (r : CreditRequest) :
    Option Status :=
  let id := r.authority.incarnation
  if r.op = .reconcile then
    if a.isFenced id then some (.refused .fencedIncarnation id) else
    match a.findIncarnation id with
    | some record =>
      if record.state = .retired then some (.refused .incarnationNotReconciled id) else none
    | none =>
      if a.incarnations.size ≥ limits.maxIncarnationsPerAccount then
        some (.refused .budgetExceeded (UInt64.ofNat a.incarnations.size))
      else none
  else
    match a.findIncarnation id with
    | none => some (.refused .unknownIncarnation 1)
    | some record =>
      if record.state = .fenced then some (.refused .fencedIncarnation id)
      else if record.state = .retired then some (.refused .incarnationNotReconciled id)
      else if !record.isLive a.epoch a.generation then some (.refused .reconciliationRequired 3)
      else none

/-- Authority binding: domain, era, incarnation and operator. -/
def bindAuthority (limits : EngineLimits) (operator : Incarnation) (a : AccountState)
    (r : CreditRequest) : Option Status :=
  if r.authority.domain ≠ a.domain then some (.refused .domainMismatch 2)
  else if r.authority.epoch ≠ a.epoch ∨ r.authority.generation ≠ a.generation then
    some (.refused .staleAuthority a.generation)
  else match bindIncarnation limits a r with
  | some status => some status
  | none =>
    if classify r.op = .control ∧ r.authority.incarnation ≠ operator.id then
      some (.refused .notOperator r.authority.incarnation)
    else none

/-- Where a request stands with respect to the decisions already taken. -/
inductive Placement where
  | duplicate (existing : WindowEntry)
  | conflict
  | refused (status : Status)
  | admitted
deriving DecidableEq, Repr

/-- Attempt identity and sequence placement. -/
def placeInSequence (a : AccountState) (r : CreditRequest) : Placement :=
  match a.window.find { incarnation := r.authority.incarnation, sequence := r.sequence } with
  | some existing => if existing.request = r.digest then .duplicate existing else .conflict
  | none =>
    if (a.window.findByAttempt r.attempt).isSome then .conflict else
    let watermark := match a.findIncarnation r.authority.incarnation with
      | some record => record.lastSequence
      | none => 0
    if r.sequence ≤ watermark then .refused (.refused .staleReplay watermark) else
    let (overflow, expected) := addOverflow watermark 1
    if overflow then .refused (.refused .budgetExceeded watermark) else
    if r.sequence > expected then .refused (.refused .sequenceGap expected) else
    .admitted

/-- The checks of `create_account_locked` in front of the creation. -/
def validateOpen (limits : EngineLimits) (challenge : ReconciliationChallenge)
    (accounts : ExtTreeMap UInt64 AccountState) (r : CreditRequest) : Option Status :=
  let c := r.config
  if accounts.contains r.authority.account then
    some (.refused .accountExists r.authority.account)
  else if c.domain ≠ r.authority.domain ∨ c.account ≠ r.authority.account then
    some (.refused .domainMismatch 3)
  else if !isSet c.resource then some (.refused .resourceMismatch 1)
  else if r.authority.epoch ≠ 1 ∨ r.authority.generation ≠ 1 then
    some (.refused .staleAuthority 1)
  else if c.capacity = 0 ∨ c.maxCapacity < c.capacity then
    some (.refused .capacityOutOfRange c.capacity)
  else if c.profile = .physicalValidated then
    some (.refused .profileNotSupported (UInt64.ofNat c.profile.code))
  else if c.rules.minIssue = 0 ∨ c.rules.maxIssuePerAttempt < c.rules.minIssue then
    some (.refused .policyRefused 1)
  else if accounts.size ≥ limits.maxAccounts then
    some (.refused .budgetExceeded (UInt64.ofNat accounts.size))
  else if r.sequence ≠ 1 then some (.refused .sequenceGap 1)
  else if !challenge.verify r.presenter r.authority r.proof then
    some (.refused .reconciliationRequired 4)
  else none

/-! ### Decisions on one account -/

/-- The record an opener or a new reconciler starts with. -/
def freshRecord (r : CreditRequest) : IncarnationRecord :=
  { id := r.authority.incarnation, publisher := r.presenter.publisher, boot := r.presenter.boot }

/-- A record that has proved its participation in this boot. -/
def markReconciled (record : IncarnationRecord) (epoch : EpochId) (generation : Generation)
    (proof : Digest128) : IncarnationRecord :=
  { record with state := .reconciled, reconciledEpoch := epoch,
                reconciledGeneration := generation, reconciliationProof := proof }

/-- The account an accepted Open creates, with the opener's record and counters. -/
def openedAccount (limits : EngineLimits) (r : CreditRequest) : AccountState :=
  let record := markReconciled (freshRecord r) r.authority.epoch r.authority.generation r.proof
  { config := r.config, domain := r.config.domain, account := r.config.account,
    epoch := r.authority.epoch, generation := r.authority.generation,
    capacity := r.config.capacity, window := .make limits.maxAttemptWindow,
    incarnations := (∅ : ExtTreeMap UInt64 IncarnationRecord).insert record.id
      { record with committedOps := 1 },
    committedAttempts := 1 }

/-- `ledger_apply`: the operation of the request on the plan. -/
def ledgerApply (plan : LedgerPlan) (a : AccountState) (r : CreditRequest) :
    Status × LedgerPlan :=
  let settle : Bool × LedgerPlan → Status × LedgerPlan := fun (ok, plan) =>
    (if ok then .success else plan.status, plan)
  let rules := a.config.rules
  match r.op with
  | .issue => settle (plan.issue r.count rules.minIssue rules.maxIssuePerAttempt)
  | .consume => settle (plan.consume r.count)
  | .return_ =>
    if !rules.allowReturn then (.refused .policyRefused 2, plan)
    else settle (plan.giveBack r.count)
  | .protect => settle (plan.protect r.count rules.allowProtect)
  | .unprotect => settle (plan.unprotect r.count)
  | _ => (.refused .invalidState 10, plan)

/-- One binding check of an Issue: an unset request keeps the held value, a set one is
    written unless another value is held, which is the error. -/
def bindField (requested held : UInt64) : Except UInt64 UInt64 :=
  if !isSet requested then .ok held
  else if isSet held && !(held == requested) then .error held
  else .ok requested

/-- The three binding checks of an Issue, in order.  The record is returned as written so far,
    with the refusal if one of the checks fails. -/
def bindIssue (binding : IncarnationRecord) (r : CreditRequest) :
    IncarnationRecord × Option Status :=
  match bindField r.producer binding.producer with
  | .error held => (binding, some (.refused .producerMismatch held))
  | .ok producer =>
  let binding := { binding with producer }
  match bindField r.consumer binding.consumer with
  | .error held => (binding, some (.refused .consumerMismatch held))
  | .ok consumer =>
  let binding := { binding with consumer }
  match bindField r.grant binding.grant with
  | .error held => (binding, some (.refused .grantMismatch held))
  | .ok grant => ({ binding with grant }, none)

/-- What deciding an admitted request does to its account, before the bookkeeping. -/
inductive Decision where
  /-- Refused without a durable identity, with the account as it is at that point. -/
  | reject (status : Status) (account : AccountState)
  /-- A decided refusal, with the account as it is at that point. -/
  | refuse (status : Status) (account : AccountState)
  /-- The attempt is applied. -/
  | proceed (account : AccountState)
deriving DecidableEq

/-- The decision of a Reconcile. -/
def decideReconcile (challenge : ReconciliationChallenge) (a : AccountState)
    (r : CreditRequest) : Decision :=
  if !challenge.verify r.presenter r.authority r.proof then
    .reject (.refused .reconciliationRequired 5) a
  else
    let record := (a.findIncarnation r.authority.incarnation).getD (freshRecord r)
    let record := markReconciled record a.epoch a.generation r.proof
    .proceed { a with incarnations := a.incarnations.insert r.authority.incarnation record }

/-- The decision of a ledger operation.  An Issue writes its bindings before the ledger
    decides, so a refusal may come after a write. -/
def decideLedger (a : AccountState) (r : CreditRequest) : Decision :=
  if !opIsLedger r.op then
    .reject (.refused .unsupported (UInt64.ofNat r.op.code)) a
  else if a.hardExhausted ∧ r.op = .issue then
    .refuse (.refused .exhaustedHard (UInt64.ofNat a.exhaustionCause.code)) a
  else
    let bound : Option (AccountState × Option Status) :=
      if r.op = .issue then
        (a.findIncarnation r.authority.incarnation).map fun binding =>
          let (binding, refusal) := bindIssue binding r
          ({ a with incarnations := a.incarnations.insert r.authority.incarnation binding },
            refusal)
      else some (a, none)
    match bound with
    | none => .reject (.refused .unknownIncarnation 3) a
    | some (a, some refusal) => .refuse refusal a
    | some (a, none) =>
      let (verdict, plan) := ledgerApply (.start a.capacity a.totals) a r
      if !verdict.ok then .refuse verdict a else .proceed { a with totals := plan.totals }

/-- Run a mutator of a fresh plan; a refusal is decided against the ledger. -/
def planned (a : AccountState) (mutate : LedgerPlan → Bool × LedgerPlan)
    (commit : LedgerPlan → AccountState) : Decision :=
  let (ok, plan) := mutate (.start a.capacity a.totals)
  if !ok then .refuse plan.status a else .proceed (commit plan)

/-- The switch of `decide_control_locked`. -/
def decideControl (limits : EngineLimits) (a : AccountState) (r : CreditRequest) : Decision :=
  match r.op with
  | .exhaust =>
    if a.hardExhausted then .refuse (.refused .exhaustedHard 1) a
    else if r.fenceCause = .ok then .reject (.refused .policyRefused 3) a
    else .proceed { a with hardExhausted := true, exhaustionCause := r.fenceCause }
  | .clearExhaustion =>
    if !a.hardExhausted then .refuse (.refused .notExhausted 1) a
    else .proceed { a with hardExhausted := false, exhaustionCause := .ok }
  | .setCapacity =>
    planned a (·.setCapacity r.newCapacity a.config.maxCapacity a.config.rules.allowCapacityGrowth)
      fun plan => { a with capacity := plan.capacity }
  | .advanceEpoch | .rotate =>
    let (overflow, nextEpoch) :=
      if r.op = .rotate then (false, r.count) else addOverflow a.epoch 1
    if r.op = .rotate ∧ nextEpoch ≤ a.epoch then .reject (.refused .invalidState a.epoch) a else
    if overflow then .reject (.refused .countOverflow a.epoch) a else
    let (overflow, nextGeneration) := addOverflow a.generation 1
    if overflow then .reject (.refused .countOverflow a.generation) a else
    let (ok, plan) := (LedgerPlan.start a.capacity a.totals).quarantineInFlight
    if !ok then .reject plan.status a else
    .proceed { a with totals := plan.totals, epoch := nextEpoch,
                      generation := nextGeneration }.forgetLiveness
  | .retire =>
    planned a (·.retireStale r.count) fun plan => { a with totals := plan.totals }
  | .revalidate =>
    if r.decision = .none then .reject (.refused .policyRefused 4) a else
    planned a (fun plan => if r.decision = .toReturned then plan.revalidateToReturned r.count
      else plan.revalidateToConsumed r.count) fun plan => { a with totals := plan.totals }
  | .fence =>
    if !isSet r.target then .reject (.refused .malformedMessage 5) a else
    if r.fenceCause = .ok then .reject (.refused .policyRefused 5) a else
    if a.isFenced r.target then .refuse (.refused .invalidState 1) a else
    -- an unknown target gets its record here, in front of the fence budget
    if (a.findIncarnation r.target).isNone ∧
        a.incarnations.size ≥ limits.maxIncarnationsPerAccount then
      .reject (.refused .budgetExceeded (UInt64.ofNat a.incarnations.size)) a
    else
    let record := (a.findIncarnation r.target).getD { id := r.target }
    let a := { a with incarnations := a.incarnations.insert r.target record }
    if a.fences.length ≥ limits.maxFencesPerAccount then
      .reject (.refused .budgetExceeded (UInt64.ofNat a.fences.length)) a
    else
    let before := a.view
    let fence : FenceRecord :=
      { incarnation := r.target, epoch := a.epoch, generation := a.generation,
        cause := r.fenceCause, sequence := r.sequence,
        fencedCredit := before.inFlight - before.stale }
    .proceed { a with
      incarnations := a.incarnations.insert r.target
        { record with state := .fenced, fencedAtSequence := r.sequence }
      fences := a.fences ++ [fence] }
  | .retireIncarnation =>
    if !isSet r.target then .reject (.refused .malformedMessage 6) a else
    match a.findIncarnation r.target with
    | none => .reject (.refused .unknownIncarnation 2) a
    | some record =>
      if record.state = .fenced then .refuse (.refused .fencedIncarnation 1) a
      else .proceed { a with
        incarnations := a.incarnations.insert r.target { record with state := .retired } }
  | _ => .reject (.refused .unsupported (UInt64.ofNat r.op.code)) a

/-- The counters of an applied attempt. -/
def countCommitted (a : AccountState) (caller : IncarnationId) : AccountState :=
  { a with committedAttempts := a.committedAttempts + 1 }.updateIncarnation caller
    fun record => { record with committedOps := record.committedOps + 1 }

/-- The counters of a decided refusal. -/
def countRefused (a : AccountState) (caller : IncarnationId) : AccountState :=
  { a with refusedAttempts := a.refusedAttempts + 1 }.updateIncarnation caller
    fun record => { record with refusedOps := record.refusedOps + 1 }

namespace CreditEngine

variable {J : Type} [Journal J]

/-- The constructor: the limits are clamped, the nonce of the challenge is drawn. -/
def make (limits : EngineLimits) (journal : J) (operatorIncarnation : Incarnation)
    (nonce : Digest128) : CreditEngine J :=
  { limits := limits.clamp, journal, operatorIncarnation, challenge := ⟨nonce⟩ }

/-- Write an account back under its key. -/
def put (e : CreditEngine J) (key : UInt64) (a : AccountState) : CreditEngine J :=
  { e with accounts := e.accounts.insert key a }

/-! ### Durability -/

/-- The image `snapshot_locked` makes durable. -/
def durableState (e : CreditEngine J) : DurableState :=
  let accounts := e.accounts.toList.map fun entry => entry.2.buildDurable true
  let accounts := accounts.mergeSort fun lhs rhs => lhs.config.account ≤ rhs.config.account
  let aggregate := accounts.foldl (fun b a => b.digest a.stateDigest)
    (DigestBuilder.keyed ⟨0x2211AA55BB66CC77, 0x77CC66BB55AA1122⟩)
  { journalSequence := e.nextJournalSequence, chain := e.chain, snapshots := e.snapshots + 1,
    accounts, stateDigest := aggregate.finish }

/-- `snapshot_locked`: the state of all accounts, written, recorded and rotated. -/
def snapshotLocked (e : CreditEngine J) : Status × CreditEngine J :=
  let sequence := e.nextJournalSequence
  let payload := encodeDurableState e.durableState
  let (status, journal) := Journal.append e.journal
    { sequence, kind := .snapshot, chain := e.chain, payload }
  let e := { e with journal }
  if !status.ok then (status, e) else
  let e := { e with nextJournalSequence := e.nextJournalSequence + 1,
                    journalRecords := e.journalRecords + 1 }
  let (status, journal) := Journal.writeSnapshot e.journal { sequence, chain := e.chain, payload }
  let e := { e with journal }
  if !status.ok then (status, e) else
  let (status, journal) := Journal.rotate e.journal sequence
  let e := { e with journal }
  if !status.ok then (status, e) else
  let stats := { e.stats with journalRecords := 0, journalBytes := Journal.bytes e.journal,
                              snapshots := e.snapshots + 1 }
  (.success, { e with journalRecords := 0, snapshots := e.snapshots + 1, stats })

/-- `CreditEngine::snapshot`. -/
def snapshot (e : CreditEngine J) : Status × CreditEngine J :=
  if !e.recovered then (.refused .reconciliationRequired 2, e)
  else if e.journalFailed then (.refused .ioError 3, e)
  else e.snapshotLocked

/-- The Intent record of a request. -/
def intentRecord (e : CreditEngine J) (r : CreditRequest) : JournalRecord where
  sequence := e.nextJournalSequence
  kind := .intent
  chain := (((DigestBuilder.keyed e.chain).u64 e.nextJournalSequence).digest r.digest).finish
  payload := encodeRequestMessage r

/-- The decided attempt that goes into the Attempt record. -/
def durableAttempt (e : CreditEngine J) (r : CreditRequest) (outcome : CreditOutcome)
    (a : AccountState) (createdAccount : Bool) : DurableAttempt :=
  { request := r, outcome, hasAccount := true, createdAccount, account := a.buildDurable false,
    engineAppliedAttempts := e.stats.attemptsApplied,
    engineRefusedAttempts := e.stats.attemptsRefused }

/-- The Attempt record of a decision, behind its Intent. -/
def attemptRecord (e : CreditEngine J) (r : CreditRequest) (outcome : CreditOutcome)
    (a : AccountState) (createdAccount : Bool) : JournalRecord where
  sequence := e.nextJournalSequence + 1
  kind := .attempt
  chain := ((((DigestBuilder.keyed e.chain).u64 (e.nextJournalSequence + 1)).digest
    r.digest).digest outcome.digest).finish
  payload := encodeDurableAttempt (e.durableAttempt r outcome a createdAccount)

/-- The first half of `persist_locked`: both appends. -/
def appendDecision (e : CreditEngine J) (r : CreditRequest) (outcome : CreditOutcome)
    (a : AccountState) (createdAccount : Bool) : Status × CreditEngine J :=
  let intent := e.intentRecord r
  let attempt := e.attemptRecord r outcome a createdAccount
  let (status, journal) := Journal.append e.journal intent
  let e := { e with journal }
  if !status.ok then (status, e) else
  let e := { e with nextJournalSequence := e.nextJournalSequence + 1 }
  let (status, journal) := Journal.append e.journal attempt
  let e := { e with journal }
  if !status.ok then (status, e) else
  let stats := { e.stats with journalRecords := e.journalRecords + 2,
                              journalBytes := Journal.bytes e.journal }
  (.success, { e with chain := attempt.chain,
                      nextJournalSequence := e.nextJournalSequence + 1,
                      journalRecords := e.journalRecords + 2, stats })

/-- Both appends, then the automatic snapshot when a rotation threshold is reached. -/
def persistLocked (e : CreditEngine J) (r : CreditRequest) (outcome : CreditOutcome)
    (a : AccountState) (createdAccount : Bool) : Status × CreditEngine J :=
  let (status, e) := e.appendDecision r outcome a createdAccount
  if !status.ok then (status, e) else
  if e.journalRecords ≥ e.limits.journalRecordsPerSnapshot ∨
      Journal.bytes e.journal ≥ e.limits.maxJournalBytes then
    e.snapshotLocked
  else (.success, e)

/-! ### Commit paths -/

/-- The common end of every decision: journal it, then publish it or roll it back.  A journal
    failure latches the engine and is answered with the journal's status. -/
def settle (e : CreditEngine J) (r : CreditRequest) (outcome : CreditOutcome)
    (a : AccountState) (createdAccount : Bool)
    (rollback publish : CreditEngine J → CreditEngine J) : CreditOutcome × CreditEngine J :=
  let (persisted, e) := e.persistLocked r outcome a createdAccount
  if !persisted.ok then
    ({ outcome with applied := false, decided := false, status := persisted },
      { rollback e with journalFailed := true })
  else (outcome, publish e)

/-- One more applied attempt in the statistics. -/
def countApplied (e : CreditEngine J) : CreditEngine J :=
  { e with stats := { e.stats with attemptsApplied := e.stats.attemptsApplied + 1 } }

/-- Publish an applied attempt: the window, then the statistics. -/
def publishApplied (key : UInt64) (a : AccountState) (r : CreditRequest)
    (outcome : CreditOutcome) (e : CreditEngine J) : CreditEngine J :=
  (e.put key (a.publishWindow r outcome)).countApplied

/-- Publish a decided refusal: the window, the refusal log, then the statistics. -/
def publishRefused (key : UInt64) (a : AccountState) (r : CreditRequest)
    (outcome : CreditOutcome) (e : CreditEngine J) : CreditEngine J :=
  let a := (a.publishWindow r outcome).recordRefusal e.limits.maxRefusalLog r outcome
  let e := e.put key a
  { e with stats := { e.stats with attemptsRefused := e.stats.attemptsRefused + 1 } }

/-- The outcome of a decided refusal. -/
def refusedOutcome (outcome : CreditOutcome) (a : AccountState) : CreditOutcome :=
  { outcome with view := a.view, stateDigest := a.digest }

/-- The outcome of an applied attempt. -/
def appliedOutcome (outcome : CreditOutcome) (a : AccountState) : CreditOutcome :=
  { outcome with applied := true, decided := true, status := .success, view := a.view,
                 stateDigest := a.digest }

/-- `create_account_locked`. -/
def createAccountLocked (e : CreditEngine J) (r : CreditRequest) (outcome : CreditOutcome) :
    CreditOutcome × CreditEngine J :=
  match validateOpen e.limits e.challenge e.accounts r with
  | some status => (outcome.refused status.reason status.detail, e)
  | none =>
    let a := openedAccount e.limits r
    let outcome := appliedOutcome outcome a
    (e.put a.account a).settle r outcome a true
      (fun e => { e with accounts := e.accounts.erase a.account })
      (publishApplied a.account a r outcome)

/-- The tail of an applied attempt on an existing account: count it, journal it, publish it,
    or restore the backup taken before the mutation. -/
def commitApplied (e : CreditEngine J) (r : CreditRequest) (outcome : CreditOutcome)
    (a : AccountState) (backup : AccountBackup) (subject : IncarnationId) :
    CreditOutcome × CreditEngine J :=
  let key := r.authority.account
  let a := countCommitted a r.authority.incarnation
  let outcome := appliedOutcome outcome a
  (e.put key a).settle r outcome a false
    (fun e => e.put key (restoreBackup a backup r.authority.incarnation subject))
    (publishApplied key a r outcome)

/-- The tail of a decided refusal; the backup is taken here. -/
def finishDecided (e : CreditEngine J) (r : CreditRequest) (outcome : CreditOutcome)
    (a : AccountState) : CreditOutcome × CreditEngine J :=
  let key := r.authority.account
  let backup := captureBackup a r.authority.incarnation 0
  let a := countRefused a r.authority.incarnation
  let outcome := refusedOutcome outcome a
  (e.put key a).settle r outcome a false
    (fun e => e.put key (restoreBackup a backup r.authority.incarnation 0))
    (publishRefused key a r outcome)

/-- Follow a decision: answer a rejection, finish a refusal, commit an application. -/
def follow (e : CreditEngine J) (r : CreditRequest) (outcome : CreditOutcome)
    (decision : Decision) (backup : AccountBackup) (subject : IncarnationId) :
    CreditOutcome × CreditEngine J :=
  match decision with
  | .reject status a =>
    (outcome.refused status.reason status.detail, e.put r.authority.account a)
  | .refuse status a =>
    e.finishDecided r (outcome.decidedRefusal status.reason status.detail) a
  | .proceed a => e.commitApplied r outcome a backup subject

/-- `decide_data_locked`. -/
def decideDataLocked (e : CreditEngine J) (a : AccountState) (r : CreditRequest)
    (outcome : CreditOutcome) : CreditOutcome × CreditEngine J :=
  let backup := captureBackup a r.authority.incarnation 0
  let decision :=
    if r.op = .reconcile then decideReconcile e.challenge a r else decideLedger a r
  e.follow r outcome decision backup 0

/-- `decide_control_locked`. -/
def decideControlLocked (e : CreditEngine J) (a : AccountState) (r : CreditRequest)
    (outcome : CreditOutcome) : CreditOutcome × CreditEngine J :=
  if !r.expectedState.isZero ∧ r.expectedState ≠ a.digest then
    (outcome.refused .staleEvidence 1, e)
  else
    let backup := captureBackup a r.authority.incarnation r.target
    e.follow r outcome (decideControl e.limits a r) backup r.target

/-! ### The entry points -/

/-- The answer to a Describe: the view and the caller's committed watermark. -/
def describe (e : CreditEngine J) (r : CreditRequest) (outcome : CreditOutcome) :
    CreditOutcome :=
  match e.accounts[r.authority.account]? with
  | none => outcome.refused .accountUnknown 1
  | some a =>
    if r.authority.domain ≠ a.domain then outcome.refused .domainMismatch 1 else
    { outcome with
      authority := { outcome.authority with epoch := a.epoch, generation := a.generation }
      view := a.view
      stateDigest := a.digest
      ambiguousPending := UInt64.ofNat a.ambiguous.length
      sequence := match a.findIncarnation r.authority.incarnation with
        | some record => record.lastSequence
        | none => 0
      status := .success }

/-- The answer to an absorbed duplicate. -/
def duplicateOutcome (outcome : CreditOutcome) (a : AccountState) (existing : WindowEntry) :
    CreditOutcome :=
  { outcome with
    status := existing.status, applied := false, duplicate := true, decided := true,
    view := a.view, stateDigest := a.digest,
    authority := { outcome.authority with epoch := a.epoch, generation := a.generation } }

/-- A request on an existing account, behind the structural validation. -/
def applyToAccount (e : CreditEngine J) (a : AccountState) (r : CreditRequest)
    (outcome : CreditOutcome) : CreditOutcome × CreditEngine J :=
  match bindAuthority e.limits e.operatorIncarnation a r with
  | some status => (outcome.refused status.reason status.detail, e)
  | none =>
  match placeInSequence a r with
  | .duplicate existing =>
    (duplicateOutcome outcome a existing,
      { e with stats :=
        { e.stats with duplicatesAbsorbed := e.stats.duplicatesAbsorbed + 1 } })
  | .conflict => (outcome.decidedRefusal .attemptConflict r.sequence, e)
  | .refused status => (outcome.refused status.reason status.detail, e)
  | .admitted =>
    let outcome := { outcome with
      authority := { outcome.authority with epoch := a.epoch, generation := a.generation } }
    if classify r.op = .control then e.decideControlLocked a r outcome
    else e.decideDataLocked a r outcome

/-- `apply_locked`: the checks in front, and then the decision. -/
def applyLocked (e : CreditEngine J) (r : CreditRequest) : CreditOutcome × CreditEngine J :=
  let outcome := CreditOutcome.ofRequest r
  match validateRequest e.limits r with
  | some status => (outcome.refused status.reason status.detail, e)
  | none =>
    if r.op = .describe then (e.describe r outcome, e)
    else if r.op = .open_ then e.createAccountLocked r outcome
    else match e.accounts[r.authority.account]? with
    | none => (outcome.refused .accountUnknown 2, e)
    | some a => e.applyToAccount a r outcome

/-- `CreditEngine::apply`. -/
def apply (e : CreditEngine J) (r : CreditRequest) : CreditOutcome × CreditEngine J :=
  let outcome := CreditOutcome.ofRequest r
  if !e.recovered then (outcome.refused .reconciliationRequired 1, e)
  else if e.journalFailed then (outcome.refused .ioError 2, e)
  else e.applyLocked r

end CreditEngine

end CreditFabric
