import CreditFabric.Engine

namespace CreditFabric

open Std (ExtTreeMap)

/-!
# Recovery

`recover` rebuilds the engine from its journal: it loads the snapshot, replays the records
behind it and resets every reconciled incarnation to unknown.  A decided attempt is replayed
by `replayAttempt`, a second implementation of every operation whose result is compared with
the digest the live engine journaled.

A recovery that fails returns the engine as it is at that point, as the source leaves it.
-/

/-! ### Restoring a snapshot -/

/-- The window of a restored account: the places are known, their decisions are not. -/
def restoreWindow (limit : Nat) (identities : List (UInt64 × UInt64)) : AttemptWindow :=
  identities.foldl (fun w place => w.insert
    { key := { incarnation := place.1, sequence := place.2 },
      status := .refused .attemptUnknown }) (.make limit)

/-- The account a snapshot describes. -/
def restoreAccount (limits : EngineLimits) (d : DurableAccount) : AccountState where
  config := d.config
  domain := d.config.domain
  account := d.config.account
  epoch := d.epoch
  generation := d.generation
  capacity := d.capacity
  totals := d.totals
  hardExhausted := d.hardExhausted
  exhaustionCause := d.exhaustionCause
  window := restoreWindow limits.maxAttemptWindow d.attemptWindow
  incarnations := d.incarnations.foldl (fun m record => m.insert record.id record) ∅
  fences := d.fences
  ambiguous := d.ambiguous
  committedAttempts := d.committedAttempts
  refusedAttempts := d.refusedAttempts

/-! ### Replaying one decision -/

/-- `apply_replay_transition`: the effect of an applied attempt on the ledger and the era. -/
def applyReplayTransition (a : AccountState) (r : CreditRequest) : Status × AccountState :=
  let start := LedgerPlan.start a.capacity a.totals
  let mismatch (detail : UInt64) : Status := .refused .journalDigestMismatch detail
  match r.op with
  | .open_ | .reconcile | .fence | .retireIncarnation | .describe => (.success, a)
  | .issue | .consume | .return_ | .protect | .unprotect =>
    let (status, plan) := ledgerApply start a r
    if !status.ok then (mismatch 140, a) else (.success, { a with totals := plan.totals })
  | .exhaust => (.success, { a with hardExhausted := true, exhaustionCause := r.fenceCause })
  | .clearExhaustion => (.success, { a with hardExhausted := false, exhaustionCause := .ok })
  | .setCapacity =>
    let (ok, plan) := start.setCapacity r.newCapacity a.config.maxCapacity
      a.config.rules.allowCapacityGrowth
    if !ok then (mismatch 141, a) else (.success, { a with capacity := plan.capacity })
  | .advanceEpoch | .rotate =>
    let nextEpoch := if r.op = .rotate then r.count else a.epoch + 1
    let (ok, plan) := start.quarantineInFlight
    if !ok then (mismatch 142, a) else
    (.success, { a with totals := plan.totals, epoch := nextEpoch,
                        generation := a.generation + 1 }.forgetLiveness)
  | .retire =>
    let (ok, plan) := start.retireStale r.count
    if !ok then (mismatch 143, a) else (.success, { a with totals := plan.totals })
  | .revalidate =>
    let (ok, plan) := if r.decision = .toReturned then start.revalidateToReturned r.count
      else start.revalidateToConsumed r.count
    if !ok then (mismatch 144, a) else (.success, { a with totals := plan.totals })

/-- The effect of an applied attempt on the incarnation records and the fences. -/
def replayRecords (a : AccountState) (r : CreditRequest) : Status × AccountState :=
  match r.op with
  | .reconcile =>
    let record := (a.findIncarnation r.authority.incarnation).getD (freshRecord r)
    let record := markReconciled record a.epoch a.generation r.proof
    (.success,
      { a with incarnations := a.incarnations.insert r.authority.incarnation record })
  | .fence =>
    let record := (a.findIncarnation r.target).getD { id := r.target }
    let before := a.view
    let fence : FenceRecord :=
      { incarnation := r.target, epoch := a.epoch, generation := a.generation,
        cause := r.fenceCause, sequence := r.sequence,
        fencedCredit := before.inFlight - before.stale }
    (.success, { a with
      incarnations := a.incarnations.insert r.target
        { record with state := .fenced, fencedAtSequence := r.sequence }
      fences := a.fences ++ [fence] })
  | .retireIncarnation =>
    match a.findIncarnation r.target with
    | none => (.refused .journalCorrupt 134, a)
    | some record => (.success, { a with
        incarnations := a.incarnations.insert r.target { record with state := .retired } })
  | .issue =>
    match a.findIncarnation r.authority.incarnation with
    | none => (.refused .journalCorrupt 141, a)
    | some record => (.success, { a with
        incarnations := a.incarnations.insert r.authority.incarnation
          { record with
            producer := if isSet r.producer then r.producer else record.producer
            consumer := if isSet r.consumer then r.consumer else record.consumer
            grant := if isSet r.grant then r.grant else record.grant } })
  | _ => (.success, a)

/-- A decided attempt on an existing account: the transition, then the bookkeeping. -/
def replayDecision (a : AccountState) (d : DurableAttempt) : Status × AccountState :=
  let r := d.request
  if d.outcome.applied then
    let (status, a) := applyReplayTransition a r
    if !status.ok then (status, a) else
    let (status, a) := replayRecords a r
    if !status.ok then (status, a) else
    (.success, countCommitted a r.authority.incarnation)
  else if d.outcome.decided then (.success, countRefused a r.authority.incarnation)
  else (.success, a)

/-- The account a replayed Open creates; it already carries the opener's counters. -/
def replayedOpen (limits : EngineLimits) (d : DurableAttempt) : AccountState :=
  let r := d.request
  let record := markReconciled (freshRecord r) d.account.epoch d.account.generation r.proof
  { config := d.account.config, domain := d.account.config.domain,
    account := d.account.config.account, epoch := d.account.epoch,
    generation := d.account.generation, capacity := d.account.capacity,
    totals := d.account.totals, hardExhausted := d.account.hardExhausted,
    exhaustionCause := d.account.exhaustionCause, window := .make limits.maxAttemptWindow,
    incarnations := (∅ : ExtTreeMap UInt64 IncarnationRecord).insert record.id
      { record with committedOps := 1 },
    committedAttempts := 1 }

/-- The comparison of a replayed account with the journaled one. -/
def verifyReplay (a : AccountState) (d : DurableAccount) : Status :=
  if a.digest ≠ d.stateDigest then .refused .journalDigestMismatch 135
  else if a.capacity ≠ d.capacity then .refused .journalDigestMismatch 136
  else if a.totals ≠ d.totals then .refused .journalDigestMismatch 137
  else if a.hardExhausted ≠ d.hardExhausted then .refused .journalDigestMismatch 138
  else if a.exhaustionCause ≠ d.exhaustionCause then .refused .journalDigestMismatch 139
  else .success

/-- The outcome that is published again: era and view are those of the replayed account. -/
def recordedOutcome (a : AccountState) (d : DurableAttempt) : CreditOutcome :=
  { d.outcome with
    authority := { domain := a.domain, account := a.account, epoch := a.epoch,
                   generation := a.generation,
                   incarnation := d.request.authority.incarnation }
    view := a.view }

/-- `mark_ambiguous` on the account of a pending intent: no second note for the same place,
    and the oldest note makes room for a new one. -/
def AccountState.markAmbiguous (a : AccountState) (limit : Nat) (r : CreditRequest)
    (journalSequence : UInt64) : Option AccountState :=
  if a.ambiguous.any fun note =>
      note.incarnation == r.authority.incarnation && note.sequence == r.sequence then none
  else
    let kept := if a.ambiguous.length ≥ limit then a.ambiguous.tail else a.ambiguous
    some { a with ambiguous := kept ++
      [{ attempt := r.attempt, op := r.op, sequence := r.sequence,
         incarnation := r.authority.incarnation, journalSequence }] }

namespace CreditEngine

variable {J : Type} [Journal J]

/-- The accounts of an image one after the other, up to the first that fails. -/
def restoreAccounts (e : CreditEngine J) : List DurableAccount → Status × CreditEngine J
  | [] => (.success, e)
  | d :: rest =>
    let a := restoreAccount e.limits d
    if !(checkInvariants a.capacity a.totals).ok then (.refused .journalCorrupt 120, e)
    else if a.digest ≠ d.stateDigest then (.refused .journalDigestMismatch 121, e)
    else (e.put a.account a).restoreAccounts rest

/-- `restore_durable_state`. -/
def restoreDurableState (e : CreditEngine J) (s : DurableState) : Status × CreditEngine J :=
  { e with accounts := ∅ }.restoreAccounts s.accounts

/-- The end of `replay_attempt`: install, verify, publish. -/
def finishReplay (e : CreditEngine J) (a : AccountState) (d : DurableAttempt) :
    Status × CreditEngine J :=
  let key := d.request.authority.account
  let e := e.put key a
  let status := verifyReplay a d.account
  if !status.ok then (status, e) else
  let e := if d.outcome.decided then
      e.put key (a.publishWindow d.request (recordedOutcome a d)) else e
  (.success, { e with stats := { e.stats with
    attemptsApplied := d.engineAppliedAttempts
    attemptsRefused := d.engineRefusedAttempts } })

/-- `replay_attempt`. -/
def replayAttempt (e : CreditEngine J) (d : DurableAttempt) : Status × CreditEngine J :=
  let key := d.request.authority.account
  if d.createdAccount then
    if e.accounts.contains key then (.refused .journalCorrupt 130, e)
    else e.finishReplay (replayedOpen e.limits d) d
  else match e.accounts[key]? with
  | none => (.refused .journalCorrupt 131, e)
  | some a =>
    let (status, a) := replayDecision a d
    if !status.ok then (status, e.put key a) else e.finishReplay a d

/-- `mark_ambiguous`: the place of an Intent whose Attempt has not been read. -/
def markAmbiguous (e : CreditEngine J) (r : CreditRequest) (journalSequence : UInt64) :
    CreditEngine J :=
  match e.accounts[r.authority.account]? with
  | none => e
  | some a =>
    match a.markAmbiguous e.limits.maxAmbiguousAttempts r journalSequence with
    | none => e
    | some a =>
      { e.put r.authority.account a with stats :=
        { e.stats with replayedAmbiguous := e.stats.replayedAmbiguous + 1 } }

/-! ### The replay loop -/

/-- The branch of an Intent. -/
def replayIntent (e : CreditEngine J) (record : JournalRecord) : Status × CreditEngine J :=
  match decodeRequestMessage record.payload e.limits.maxNoteBytes with
  | .error _ => (.refused .journalCorrupt 102, e)
  | .ok pending => (.success, e.markAmbiguous pending record.sequence)

/-- The branch of a Snapshot record. -/
def replaySnapshot (e : CreditEngine J) (record : JournalRecord) : Status × CreditEngine J :=
  match decodeDurableState record.payload with
  | .error _ => (.refused .journalCorrupt 103, e)
  | .ok restored =>
    if restored.journalSequence ≠ record.sequence then (.refused .journalDigestMismatch 104, e)
    else
      let (status, e) := e.restoreDurableState restored
      if !status.ok then (status, e) else
      (.success, { e with
        snapshots := restored.snapshots, chain := record.chain,
        nextJournalSequence := record.sequence + 1,
        stats := { e.stats with replayedRecords := e.stats.replayedRecords + 1 } })

/-- The chain value the Attempt record of a decision must carry. -/
def expectedChain (chain : Digest128) (sequence : UInt64) (d : DurableAttempt) : Digest128 :=
  ((((DigestBuilder.keyed chain).u64 sequence).digest d.request.digest).digest
    d.outcome.digest).finish

/-- The branch of an Attempt. -/
def replayAttemptRecord (e : CreditEngine J) (record : JournalRecord) :
    Status × CreditEngine J :=
  match decodeDurableAttempt record.payload with
  | .error _ => (.refused .journalCorrupt 106, e)
  | .ok attempt =>
    if expectedChain e.chain record.sequence attempt ≠ record.chain then
      (.refused .journalDigestMismatch record.sequence, e)
    else
      let (status, e) := e.replayAttempt attempt
      if !status.ok then (status, e) else
      (.success, { e with
        chain := record.chain, nextJournalSequence := record.sequence + 1,
        journalRecords := e.journalRecords + 1,
        stats := { e.stats with replayedRecords := e.stats.replayedRecords + 1 } })

/-- The body of the replay loop.  Records at or below the sequence of the loaded snapshot are
    skipped. -/
def replayRecord (e : CreditEngine J) (snapshotSequence : Option UInt64)
    (record : JournalRecord) : Status × CreditEngine J :=
  if snapshotSequence.any (record.sequence ≤ ·) then (.success, e) else
  match record.kind with
  | .intent => e.replayIntent record
  | .snapshot => e.replaySnapshot record
  | .attempt => e.replayAttemptRecord record
  | .unknown => (.refused .journalCorrupt 105, e)

/-- The loop over `next_record`.  The fuel is the journal's own bound on what is left to read,
    which is lower behind each record, so the first case is never reached. -/
def replayLoop (snapshotSequence : Option UInt64) : Nat → CreditEngine J →
    Status × CreditEngine J
  | 0, e => (.refused .internalError 0, e)
  | fuel + 1, e =>
    let (status, record, journal) := Journal.nextRecord e.journal
    let e := { e with journal }
    if !status.ok then (status, e) else
    match record with
    | none => (.success, e)
    | some record =>
      let (status, e) := e.replayRecord snapshotSequence record
      if !status.ok then (status, e) else replayLoop snapshotSequence fuel e

/-! ### Recovery -/

/-- The state recovery starts from. -/
def reset (e : CreditEngine J) : CreditEngine J :=
  { e with accounts := ∅, nextJournalSequence := 1, chain := {}, journalRecords := 0,
           snapshots := 0 }

/-- The snapshot of the journal, if it has one. -/
def loadSnapshot (e : CreditEngine J) (image : Option SnapshotImage) :
    Status × CreditEngine J :=
  match image with
  | none => (.success, e)
  | some image =>
    match decodeDurableState image.payload with
    | .error _ => (.refused .journalCorrupt 100, e)
    | .ok restored =>
      if restored.journalSequence ≠ image.sequence then (.refused .journalDigestMismatch 101, e)
      else
        let (status, e) := e.restoreDurableState restored
        if !status.ok then (status, e) else
        (.success, { e with chain := image.chain, nextJournalSequence := image.sequence + 1,
                            snapshots := restored.snapshots })

/-- Durable bytes never restore liveness: the last step of a successful recovery. -/
def finishRecovery (e : CreditEngine J) : CreditEngine J :=
  { e with
    accounts := e.accounts.map fun _ a => a.forgetLiveness
    stats := { e.stats with journalRecords := e.journalRecords,
                            journalBytes := Journal.bytes e.journal, snapshots := e.snapshots }
    recovered := true }

/-- `CreditEngine::recover`. -/
def recover (e : CreditEngine J) : Status × CreditEngine J :=
  let (status, journal) := Journal.open_ e.journal
  let e := { e with journal }
  if !status.ok then (status, e) else
  let (status, image, journal) := Journal.readSnapshot e.journal
  let e := { e with journal }
  if !status.ok then (status, e) else
  let (status, e) := e.reset.loadSnapshot image
  if !status.ok then (status, e) else
  let (status, journal) := Journal.beginReplay e.journal
  let e := { e with journal }
  if !status.ok then (status, e) else
  let (status, e) :=
    replayLoop (image.map SnapshotImage.sequence) (Journal.remaining e.journal + 1) e
  if !status.ok then (status, e) else
  let (status, journal) := Journal.endReplay e.journal
  let e := { e with journal }
  if !status.ok then (status, e) else
  (.success, e.finishRecovery)

end CreditEngine

end CreditFabric
