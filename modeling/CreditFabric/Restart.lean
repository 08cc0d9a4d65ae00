import CreditFabric.Sequencing
import CreditFabric.Simulation

namespace CreditFabric

open Std (ExtTreeMap)

/-!
# Restarts

A process that stops is followed by an engine that recovers from the same journal.  The journal
is any `LawfulJournal`.  The invariant is `Journaled`: replaying the records of the journal
rebuilds the accounts as their last attempts left them.

`run_recoverable` is about one boot, stopped behind any of its calls.  A rotation in the middle
of a call writes an image of the account without the call's own publication, so the result
needs a run that stays below the rotation thresholds.
-/

/-! ### What a restart has to preserve -/

/-- The durable facts of an account: the ledger, the era, the fences and the counters of its
    incarnations. -/
structure Books where
  totals : CreditTotals
  capacity : UInt64
  epoch : EpochId
  generation : Generation
  fences : List FenceRecord
  counters : ExtTreeMap UInt64 Counters
deriving DecidableEq

/-- The books of an account. -/
def AccountState.books (a : AccountState) : Books where
  totals := a.totals
  capacity := a.capacity
  epoch := a.epoch
  generation := a.generation
  fences := a.fences
  counters := a.incarnations.map fun _ b => b.counters

/-- A restart keeps the books. -/
theorem books_forgetLiveness (a : AccountState) : a.forgetLiveness.books = a.books := by
  unfold AccountState.books AccountState.forgetLiveness
  congr 1
  refine ExtTreeMap.ext_getElem? fun i => ?_
  simp only [ExtTreeMap.getElem?_map, Option.map_map]
  cases a.incarnations[i]? with
  | none => rfl
  | some b => exact congrArg some (counters_forgetLiveness b)

/-- What is forgotten is forgotten. -/
theorem forgetLiveness_idem (a : AccountState) :
    a.forgetLiveness.forgetLiveness = a.forgetLiveness := by
  have hrecord : ∀ b : IncarnationRecord,
      b.forgetLiveness.forgetLiveness = b.forgetLiveness := by
    intro b
    unfold IncarnationRecord.forgetLiveness
    by_cases h : b.state = .reconciled
    · simp only [if_pos h]
      rfl
    · simp only [if_neg h]
  unfold AccountState.forgetLiveness
  congr 1
  refine ExtTreeMap.ext_getElem? fun i => ?_
  simp only [ExtTreeMap.getElem?_map, Option.map_map]
  cases a.incarnations[i]? with
  | none => rfl
  | some b => exact congrArg some (hrecord b)

namespace CreditEngine

variable {J : Type} [LawfulJournal J]

/-- The next engine: recovery from what the stopped engine left behind. -/
def restarted (limits : EngineLimits) (e : CreditEngine J) (operator : Incarnation)
    (nonce : Digest128) : Status × CreditEngine J :=
  (make limits (LawfulJournal.restart e.journal) operator nonce).recover

/-- The next engine recovers, with the books of the stopped one. -/
def Recoverable (limits : EngineLimits) (e : CreditEngine J) (operator : Incarnation)
    (nonce : Digest128) : Prop :=
  (e.restarted limits operator nonce).1 = .success ∧
    ((e.restarted limits operator nonce).2.accounts.map fun _ a => a.books) =
      e.accounts.map fun _ a => a.books

instance (limits : EngineLimits) (e : CreditEngine J) (operator : Incarnation)
    (nonce : Digest128) : Decidable (Recoverable limits e operator nonce) :=
  inferInstanceAs (Decidable (_ ∧ _))

/-! ### The invariant -/

/-- The journal of `e` holds the records `recs`, and replaying them rebuilds the accounts
    `left` and the chain value of `e`. -/
structure Journaled (limits : EngineLimits) (left : ExtTreeMap UInt64 AccountState)
    (e : CreditEngine J) (recs : List JournalRecord) : Prop where
  holds : LawfulJournal.Holds e.journal none recs
  clamped : e.limits = limits.clamp
  noNotes : NoNotes left
  replays : Replays (J := J) none (Mirrors limits.clamp ∅ {}) recs
    (Mirrors limits.clamp left e.chain)

/-- An engine over an empty journal, in front of its recovery. -/
theorem make_journaled (limits : EngineLimits) {j : J} (hj : LawfulJournal.Holds j none [])
    (operator : Incarnation) (nonce : Digest128) :
    Journaled limits ∅ (make limits j operator nonce) [] :=
  ⟨hj, rfl, noNotes_empty, .done fun _ h => h⟩

/-- **Restart.**  The next engine recovers the accounts with their liveness forgotten. -/
theorem Journaled.restarted {limits : EngineLimits} {left : ExtTreeMap UInt64 AccountState}
    {e : CreditEngine J} {recs : List JournalRecord} (h : Journaled limits left e recs)
    (operator : Incarnation) (nonce : Digest128) :
    ∃ e', e.restarted limits operator nonce = (.success, e') ∧
      e'.accounts = left.map (fun _ a => a.forgetLiveness) ∧ Journaled limits left e' recs := by
  obtain ⟨j', hyields, hholds⟩ := LawfulJournal.holds_restart h.holds
  obtain ⟨ρ, hrecover, hmirrors⟩ :=
    recover_rule (e := make limits (LawfulJournal.restart e.journal) operator nonce) hyields
      h.replays (mirrors_blind _ _ _) fun _ => ⟨_, rfl, rfl, rfl, rfl⟩
  refine ⟨_, hrecover, ?_, hholds, hmirrors.limits, h.noNotes, ?_⟩
  · show ρ.accounts.map _ = _
    rw [hmirrors.accounts]
  · show Replays (J := J) none (Mirrors limits.clamp ∅ {}) recs
      (Mirrors limits.clamp left ρ.chain)
    rw [hmirrors.chain]
    exact h.replays

omit [LawfulJournal J] in
/-- The Attempt record of an applied outcome has a fixed size besides the note. -/
theorem length_attempt (e : CreditEngine J) {r : CreditRequest} (hwire : r.note.length ≤ 4096)
    (o : CreditOutcome) (a : AccountState) (c : Bool) :
    (e.attemptRecord r (appliedOutcome o a) a c).payload.length = 644 + r.note.length :=
  length_encodeDurableAttempt
    (durableAttempt_written e r a (quarantined_computeView _ _) fun _ => rfl) hwire

omit [LawfulJournal J] in
/-- The two records of an applied call fit the length field of a journal. -/
theorem Decides.payload_length {e : CreditEngine J} {r : CreditRequest} {t : JournalRecord}
    {a : AccountState} (h : Decides e r t a) (hwire : r.note.length ≤ 4096) :
    (e.intentRecord r).payload.length = 252 + r.note.length ∧
      t.payload.length = 644 + r.note.length ∧ t.kind = .attempt := by
  refine ⟨length_encodeRequestBody hwire, ?_⟩
  cases h with
  | opened h => exact ⟨length_attempt _ hwire _ _ _, rfl⟩
  | applied a h a' hd => exact ⟨length_attempt _ hwire _ _ _, rfl⟩

/-- **Append.**  An applied call keeps the invariant, with its account left as published. -/
theorem Journaled.commits {limits : EngineLimits} {left : ExtTreeMap UInt64 AccountState}
    {e e' : CreditEngine J} {recs : List JournalRecord} (h : Journaled limits left e recs)
    {r : CreditRequest} {t : JournalRecord} {a : AccountState} (hcommits : Commits e r t a e')
    (hwire : r.note.length ≤ 4096) (hlive : NoNotes e.accounts) (htrails : Trails e left r) :
    Journaled limits (left.insert r.authority.account a) e' (recs ++ [e.intentRecord r] ++ [t]) := by
  obtain ⟨hintentLen, hattemptLen, hkind⟩ := hcommits.decides.payload_length hwire
  obtain ⟨hintent, hattempt⟩ := hcommits.decides.replays J hwire hlive h.noNotes htrails
  rw [h.clamped] at hintent hattempt
  refine ⟨?_, ?_, ?_, ?_⟩
  · have hfirst := (LawfulJournal.holds_append (e.intentRecord r) h.holds
      (by show JournalRecordKind.intent ≠ .unknown; decide) (by omega) hcommits.intent).1
    rw [hcommits.journal]
    exact (LawfulJournal.holds_append t hfirst (by rw [hkind]; decide) (by omega)
      hcommits.attempt).1
  · rw [hcommits.limits, h.clamped]
  · exact h.noNotes.insert _ (hcommits.decides.noNotes hlive)
  · rw [hcommits.chain]
    exact (h.replays.append hintent).append hattempt

/-! ### One boot -/

/-- The records of the call leave both rotation thresholds unreached, and its note is one the
    encoder writes. -/
def BelowRotation (e : CreditEngine J) (r : CreditRequest) : Prop :=
  r.note.length ≤ 4096 ∧ e.journalRecords + 2 < e.limits.journalRecordsPerSnapshot ∧
    Journal.bytes e.journal + (252 + r.note.length + LawfulJournal.overhead J) +
      (644 + r.note.length + LawfulJournal.overhead J) < e.limits.maxJournalBytes

instance (e : CreditEngine J) (r : CreditRequest) : Decidable (BelowRotation e r) :=
  inferInstanceAs (Decidable (_ ∧ _))

/-- Below the thresholds the automatic snapshot is not taken. -/
theorem persistLocked_below {e : CreditEngine J} {recs : List JournalRecord}
    (hholds : LawfulJournal.Holds e.journal none recs) {r : CreditRequest}
    (hbelow : BelowRotation e r) {o : CreditOutcome} {a : AccountState} {c : Bool}
    (hok : (e.persistLocked r (appliedOutcome o a) a c).1.ok = true) :
    (e.persistLocked r (appliedOutcome o a) a c).2.snapshots = e.snapshots := by
  obtain ⟨hwire, hrecords, hbytes⟩ := hbelow
  have hpersisted := persistLocked_persisted e r (appliedOutcome o a) a c
  generalize e.persistLocked r (appliedOutcome o a) a c = result at hpersisted hok ⊢
  obtain ⟨s, e'⟩ := result
  cases hpersisted with
  | appendFailed h hs => exact absurd (hs.symm.trans hok) (by decide)
  | kept hi h hrot => rfl
  | rotated hi h hrot hsnap =>
    have hintentLen : (e.intentRecord r).payload.length = 252 + r.note.length :=
      length_encodeRequestBody hwire
    have hattemptLen := length_attempt e hwire o a c
    have hfirst := LawfulJournal.holds_append (e.intentRecord r) hholds
      (by show JournalRecordKind.intent ≠ .unknown; decide) (by omega) hi
    have hsecond := LawfulJournal.holds_append (e.attemptRecord r (appliedOutcome o a) a c)
      hfirst.1 (by show JournalRecordKind.attempt ≠ .unknown; decide) (by omega) h
    rcases hrot with hrot | hrot
    · have hcount : e.journalRecords + 2 ≥ e.limits.journalRecordsPerSnapshot := hrot
      omega
    · have hsize : Journal.bytes (e.attemptAppend r (appliedOutcome o a) a c).2 ≥
          e.limits.maxJournalBytes := hrot
      have hafter : Journal.bytes (e.attemptAppend r (appliedOutcome o a) a c).2 =
          Journal.bytes (e.intentJournal r) +
            ((e.attemptRecord r (appliedOutcome o a) a c).payload.length +
              LawfulJournal.overhead J) := hsecond.2
      have hbetween : Journal.bytes (e.intentJournal r) = Journal.bytes e.journal +
          ((e.intentRecord r).payload.length + LawfulJournal.overhead J) := hfirst.2
      omega

/-- Below the rotation no snapshot is written. -/
theorem apply_below {e : CreditEngine J} {recs : List JournalRecord}
    (hholds : LawfulJournal.Holds e.journal none recs) {r : CreditRequest}
    (hbelow : BelowRotation e r) (happlied : (e.apply r).1.applied = true) :
    (e.apply r).2.snapshots = e.snapshots := by
  have heffect := apply_effect e r
  generalize e.apply r = result at heffect happlied ⊢
  obtain ⟨o, e'⟩ := result
  cases heffect with
  | answered o h _ => rfl
  | absorbed a existing _ _ => rfl
  | rejected a h s a' hd => rfl
  | refused a h s a' hd hok => exact absurd (show false = true from happlied) (by decide)
  | failed o e' _ _ h _ => exact absurd (h.symm.trans happlied) (by decide)
  | opened h hok =>
    exact persistLocked_below (e := e.opening r) hholds hbelow hok
  | applied a h a' hd hok =>
    exact persistLocked_below (e := e.applying r a') hholds hbelow hok

/-- Two maps with the same accounts up to liveness have the same books. -/
theorem map_books_eq {m m' : ExtTreeMap UInt64 AccountState}
    (h : (m.map fun _ a => a.forgetLiveness) = m'.map fun _ a => a.forgetLiveness) :
    (m.map fun _ a => a.books) = m'.map fun _ a => a.books := by
  have hforget : ∀ m : ExtTreeMap UInt64 AccountState, (m.map fun _ a => a.books) =
      (m.map fun _ a => a.forgetLiveness).map fun _ a => a.books := by
    intro m
    refine ExtTreeMap.ext_getElem? fun key => ?_
    simp only [ExtTreeMap.getElem?_map, Option.map_map]
    cases m[key]? with
    | none => rfl
    | some a => exact congrArg some (books_forgetLiveness a).symm
  rw [hforget m, hforget m', h]

/-- The same of all accounts. -/
private theorem map_forgetLiveness_idem (m : ExtTreeMap UInt64 AccountState) :
    ((m.map fun _ a => a.forgetLiveness).map fun _ a => a.forgetLiveness) =
      m.map fun _ a => a.forgetLiveness := by
  refine ExtTreeMap.ext_getElem? fun key => ?_
  simp only [ExtTreeMap.getElem?_map, Option.map_map]
  cases m[key]? with
  | none => rfl
  | some a => exact congrArg some (forgetLiveness_idem a)

/-- The accounts of the stopped engine are those of the journal up to liveness. -/
theorem Journaled.recoverable {limits : EngineLimits} {left : ExtTreeMap UInt64 AccountState}
    {e : CreditEngine J} {recs : List JournalRecord} (h : Journaled limits left e recs)
    (hlive : (e.accounts.map fun _ a => a.forgetLiveness) = left.map fun _ a => a.forgetLiveness)
    (operator : Incarnation) (nonce : Digest128) : Recoverable limits e operator nonce := by
  obtain ⟨e', heq, haccounts, -⟩ := h.restarted operator nonce
  unfold Recoverable
  rw [heq]
  refine ⟨rfl, map_books_eq ?_⟩
  rw [haccounts, map_forgetLiveness_idem, hlive]

/-- **Run lemma.**  Within one boot the accounts are journaled as they are. -/
theorem run_journaled {limits : EngineLimits} {e : CreditEngine J} {recs : List JournalRecord}
    (h : Journaled limits e.accounts e recs) {rs : List CreditRequest}
    (hrun : EachCall (fun e r => (e.apply r).1.applied = true ∧ BelowRotation e r) e rs) :
    ∃ recs', Journaled limits (e.run rs).accounts (e.run rs) recs' := by
  induction rs generalizing e recs with
  | nil => exact ⟨recs, h⟩
  | cons r rs ih =>
    obtain ⟨⟨happlied, hbelow⟩, hrest⟩ := hrun
    obtain ⟨t, a, hcommits⟩ := apply_commits happlied (apply_below h.holds hbelow happlied)
    have hnext := h.commits hcommits hbelow.1 h.noNotes (trails_self e r)
    rw [← hcommits.accounts] at hnext
    exact ih hnext hrest

/-- **Recoverability of one boot.**  A run from an empty journal in which every attempt is
    applied and stays below the rotation thresholds can be stopped behind any of its calls: the
    next engine recovers, with the books of the stopped one. -/
theorem run_recoverable (limits : EngineLimits) {j : J} (hj : LawfulJournal.Holds j none [])
    (operator : Incarnation) (nonce : Digest128) (rs : List CreditRequest)
    (happlied : EachCall (fun e r => (e.apply r).1.applied = true)
      (boot limits (LawfulJournal.restart j) operator nonce) rs)
    (hbelow : EachCall BelowRotation (boot limits (LawfulJournal.restart j) operator nonce) rs)
    {stopped : List CreditRequest} (hstopped : stopped <+: rs) (operator' : Incarnation)
    (nonce' : Digest128) :
    Recoverable limits ((boot limits (LawfulJournal.restart j) operator nonce).run stopped)
      operator' nonce' := by
  obtain ⟨rest, rfl⟩ := hstopped
  obtain ⟨e', hboot, haccounts, hjournaled⟩ :=
    (make_journaled limits hj operator nonce).restarted operator nonce
  have hstart : boot limits (LawfulJournal.restart j) operator nonce = e' :=
    congrArg Prod.snd hboot
  rw [hstart] at happlied hbelow ⊢
  have hempty : e'.accounts = ∅ := by
    rw [haccounts]
    refine ExtTreeMap.ext_getElem? fun key => ?_
    simp
  rw [← hempty] at hjournaled
  have hboth := eachCall_and (eachCall_append.mp happlied).1 (eachCall_append.mp hbelow).1
  obtain ⟨recs, hrun⟩ := run_journaled hjournaled hboth
  exact hrun.recoverable rfl operator' nonce'

/-! ### A rotation in the middle of a call

With a threshold of three records the second attempt triggers the automatic snapshot, which is
taken before the attempt is published.  Stopped there, the operator's watermark is one behind;
stopped one attempt later, the journal is not recoverable at all. -/

namespace EarlyImage

/-- A snapshot behind every third record. -/
def limits : EngineLimits := { journalRecordsPerSnapshot := 3 }

/-- Two calls, the second of which rotates. -/
def calls : List CreditRequest :=
  [Fixture.request ⟨5, 5⟩ Fixture.me .open_ 1, Fixture.request ⟨5, 5⟩ Fixture.me .issue 2,
    Fixture.request ⟨5, 5⟩ Fixture.me .issue 3]

/-- The engine of the fixture. -/
def start (limits : EngineLimits) : CreditEngine InMemoryJournal :=
  boot limits (LawfulJournal.restart {}) Fixture.me ⟨5, 5⟩

/-- The watermark of the operator on the fixture's account. -/
def operatorWatermark (e : CreditEngine InMemoryJournal) : UInt64 :=
  e.watermark Fixture.account Fixture.me.id

/-- Behind a rotation the restarted engine need not be the one before: the snapshot was taken in
    front of the publication. -/
theorem rotation_not_recoverable :
    EachCall (fun e r => (e.apply r).1.applied = true) (start limits) calls ∧
      ¬ Recoverable limits ((start limits).run (calls.take 2)) Fixture.me ⟨6, 6⟩ ∧
      operatorWatermark ((start limits).run (calls.take 2)) = 2 ∧
      operatorWatermark
        (((start limits).run (calls.take 2)).restarted limits Fixture.me ⟨6, 6⟩).2 = 1 ∧
      (((start limits).run calls).restarted limits Fixture.me ⟨6, 6⟩).1 =
        .refused .journalDigestMismatch 135 := by
  decide +kernel

/-- The same calls far below the default thresholds. -/
theorem default_recoverable :
    Recoverable {} ((start {}).run (calls.take 2)) Fixture.me ⟨6, 6⟩ := by
  have hempty : LawfulJournal.Holds ({} : InMemoryJournal) none [] := ⟨rfl, rfl⟩
  unfold start
  exact run_recoverable {} hempty Fixture.me ⟨5, 5⟩ calls (by decide +kernel)
    (by decide +kernel) (List.take_prefix 2 calls) Fixture.me ⟨6, 6⟩

end EarlyImage

end CreditEngine

end CreditFabric
