import Mathlib.Data.List.Induction
import CreditFabric.Closure
import CreditFabric.Simulation

namespace CreditFabric

open Std (ExtTreeMap)

/-!
# Recovering a prefix of the journal

A run of one boot in which every attempt is applied or absorbed as a duplicate appends two
records per applied attempt.  `recover_simulates`: whatever prefix of these records a crash
leaves, its recovery succeeds and rebuilds the accounts the live engine had after the attempts
whose Attempt record lies in the prefix, with the liveness of every incarnation forgotten.

The induction is on the run: the records so far replay to the accounts of the live engine
(`Simulated.replays`), and every prefix replays to the accounts of an earlier state of the run
(`Simulated.prefixes`).
-/

/-- The account without its ambiguous notes. -/
def AccountState.withoutNotes (a : AccountState) : AccountState := a.withAmbiguous []

/-! ### The records of a log -/

/-- The record an event made durable. -/
def JournalEvent.durableRecord : JournalEvent → Option JournalRecord
  | .appended t s => if s.ok then some t else none
  | _ => none

/-- The records a log of journal calls made durable, oldest first. -/
def appendedRecords (log : List JournalEvent) : List JournalRecord :=
  log.filterMap (·.durableRecord)

/-- The Attempt records among them. -/
def attemptRecords (recs : List JournalRecord) : List JournalRecord :=
  recs.filter fun t => t.kind = .attempt

/-- The records of two logs. -/
theorem appendedRecords_append (log events : List JournalEvent) :
    appendedRecords (log ++ events) = appendedRecords log ++ appendedRecords events :=
  List.filterMap_append

/-- Reads append nothing. -/
theorem appendedRecords_of_isRead {events : List JournalEvent}
    (h : ∀ ev ∈ events, ev.IsRead) : appendedRecords events = [] := by
  refine List.filterMap_eq_nil_iff.mpr fun ev hev => ?_
  have hread := h ev hev
  cases ev with
  | appended t s => exact hread.elim
  | _ => rfl

namespace CreditEngine

variable {J : Type} [Journal J]

/-! ### Calls that append nothing -/

/-- What a call that decides nothing leaves as it was. -/
structure Silent (e e' : CreditEngine J) : Prop where
  journal : e'.journal = e.journal
  accounts : e'.accounts = e.accounts
  chain : e'.chain = e.chain
  limits : e'.limits = e.limits

/-- A commit does not change what is a duplicate. -/
theorem settle_duplicate (e : CreditEngine J) (r : CreditRequest) (o : CreditOutcome)
    (a : AccountState) (c : Bool) (rollback publish : CreditEngine J → CreditEngine J) :
    (e.settle r o a c rollback publish).1.duplicate = o.duplicate := by
  cases hok : (e.persistLocked r o a c).1.ok with
  | false => rw [settle_of_failed hok]
  | true => rw [settle_of_ok hok]

/-- A duplicate is absorbed by an entry of the window, and changes only the statistics. -/
theorem duplicate_inv {e : CreditEngine J} {r : CreditRequest}
    (h : (e.apply r).1.duplicate = true) :
    Silent e (e.apply r).2 ∧ ∃ (a : AccountState) (existing : WindowEntry),
      e.accounts[r.authority.account]? = some a ∧ placeInSequence a r = .duplicate existing := by
  have hcase := apply_cases e r
  generalize e.apply r = result at hcase h ⊢
  cases hcase with
  | answered o happlied hdup => exact absurd (hdup.symm.trans h) (by decide)
  | absorbed a existing found placed =>
    exact ⟨⟨rfl, rfl, rfl, rfl⟩, a, existing, found, placed⟩
  | opened hopens =>
    unfold settleOpen at h
    rw [settle_duplicate] at h
    exact absurd (show false = true from h) (by decide)
  | decided a hadmitted =>
    unfold settleDecision follow at h
    cases hd : e.decision a r with
    | reject s a' =>
      rw [hd] at h
      exact absurd (show false = true from h) (by decide)
    | refuse s a' =>
      rw [hd] at h
      simp only [finishDecided, settle_duplicate] at h
      exact absurd (show false = true from h) (by decide)
    | proceed a' =>
      rw [hd] at h
      simp only [commitApplied, settle_duplicate] at h
      exact absurd (show false = true from h) (by decide)

/-- A duplicate makes no journal call. -/
theorem apply_duplicate {e : CreditEngine J} {r : CreditRequest}
    (h : (e.apply r).1.duplicate = true) : Silent e (e.apply r).2 := (duplicate_inv h).1

/-- A Describe changes nothing. -/
theorem apply_describe {e : CreditEngine J} {r : CreditRequest} (h : r.op = .describe) :
    (e.apply r).2 = e := by
  unfold apply applyLocked
  cases e.recovered with
  | false => rfl
  | true =>
    cases e.journalFailed with
    | true => rfl
    | false =>
      simp only [h, if_true, Bool.not_true, Bool.false_eq_true, if_false]
      cases validateRequest e.limits r <;> rfl

/-! ### The run -/

/-- The call is a Describe, or its attempt is applied or absorbed as a duplicate; it takes no
    snapshot. -/
def Accepted (e : CreditEngine J) (r : CreditRequest) : Prop :=
  (r.op = .describe ∨ (e.apply r).1.applied = true ∨ (e.apply r).1.duplicate = true) ∧
    (e.apply r).2.snapshots = e.snapshots

instance (e : CreditEngine J) (r : CreditRequest) : Decidable (Accepted e r) :=
  inferInstanceAs (Decidable (_ ∧ _))

/-- An accepted request is silent or commits. -/
theorem Accepted.cases {e : CreditEngine J} {r : CreditRequest} (h : Accepted e r) :
    Silent e (e.apply r).2 ∨ ∃ t a, Commits e r t a (e.apply r).2 := by
  obtain ⟨hop | happlied | hdup, hsnap⟩ := h
  · rw [apply_describe hop]
    exact .inl ⟨rfl, rfl, rfl, rfl⟩
  · exact .inr (apply_commits happlied hsnap)
  · exact .inl (apply_duplicate hdup)

/-- The replaying engine has the given accounts, up to ambiguous notes, and chain value. -/
structure Recalls {J' : Type} (accounts : ExtTreeMap UInt64 AccountState) (chain : Digest128)
    (ρ : CreditEngine J') : Prop where
  accounts : ∀ key : UInt64,
    (ρ.accounts[key]?).map AccountState.withoutNotes = accounts[key]?
  chain : ρ.chain = chain

/-- An account without notes. -/
theorem withoutNotes_of_noNotes {a : AccountState} (h : a.ambiguous = []) :
    a.withoutNotes = a := by
  unfold AccountState.withoutNotes AccountState.withAmbiguous
  rw [← h]

section Recalls

variable {J' : Type} {limits : EngineLimits} {accounts : ExtTreeMap UInt64 AccountState}
  {chain : Digest128} {ρ : CreditEngine J'}

/-- Accounts without notes are recalled as they are. -/
theorem recalls_of_noNotes (hnotes : NoNotes accounts) (key : UInt64) :
    (accounts[key]?).map AccountState.withoutNotes = accounts[key]? := by
  cases ha : accounts[key]? with
  | none => rfl
  | some a =>
    rw [Option.map_some, withoutNotes_of_noNotes (hnotes key a ha).1]

/-- A mirror without notes is a recall. -/
theorem Mirrors.recalls (h : Mirrors limits accounts chain ρ) (hnotes : NoNotes accounts) :
    Recalls accounts chain ρ := by
  refine ⟨fun key => ?_, h.chain⟩
  rw [h.accounts]
  exact recalls_of_noNotes hnotes key

/-- So is one behind an Intent. -/
theorem Pending.recalls {r : CreditRequest} (h : Pending limits accounts chain r ρ)
    (hnotes : NoNotes accounts) : Recalls accounts chain ρ := by
  refine ⟨fun key => ?_, h.chain⟩
  cases hfound : accounts[r.authority.account]? with
  | none =>
    rw [h.unknown hfound]
    exact recalls_of_noNotes hnotes key
  | some a =>
    obtain ⟨note, -, -, haccounts⟩ := h.noted a hfound
    rw [haccounts]
    by_cases hkey : key = r.authority.account
    · subst hkey
      rw [ExtTreeMap.getElem?_insert_self, Option.map_some, hfound, Option.some.injEq]
      exact withoutNotes_of_noNotes (hnotes _ a hfound).1
    · rw [Lib.getElem?_insert_of_ne _ _ hkey]
      exact recalls_of_noNotes hnotes key

end Recalls

/-! ### The run -/

/-- The invariant of a run: the state after `rs`, its records and all their prefixes.  The
    journal `J'` that is replayed need not be the one that was written. -/
structure Simulated (J' : Type) (e₀ : CreditEngine (Observed J)) (rs : List CreditRequest) :
    Prop where
  limits : (e₀.run rs).limits = e₀.limits
  noNotes : NoNotes (e₀.run rs).accounts
  replays : Replays (J := J') none (Mirrors e₀.limits ∅ {})
    (appendedRecords (e₀.run rs).journal.log)
    (Mirrors e₀.limits (e₀.run rs).accounts (e₀.run rs).chain)
  prefixes : ∀ p, p <+: appendedRecords (e₀.run rs).journal.log → ∃ m ≤ rs.length,
    attemptRecords (appendedRecords (e₀.run (rs.take m)).journal.log) = attemptRecords p ∧
    NoNotes (e₀.run (rs.take m)).accounts ∧
    Replays (J := J') none (Mirrors e₀.limits ∅ {}) p
      (Recalls (e₀.run (rs.take m)).accounts (e₀.run (rs.take m)).chain)

/-- An append that succeeds is one more record. -/
theorem appendedRecords_of_append {o : Observed J} {t : JournalRecord}
    (h : (Journal.append o t).1.ok = true) :
    appendedRecords (Journal.append o t).2.log = appendedRecords o.log ++ [t] := by
  show appendedRecords (o.log ++ [.appended t (Journal.append o.journal t).1]) = _
  have hdurable : (JournalEvent.appended t (Journal.append o.journal t).1).durableRecord =
      some t := if_pos h
  rw [appendedRecords_append]
  congr 1
  exact List.filterMap_cons_some hdurable

/-- A commit is two more records. -/
theorem Commits.log {e e' : CreditEngine (Observed J)} {r : CreditRequest} {t : JournalRecord}
    {a : AccountState} (h : Commits e r t a e') :
    appendedRecords e'.journal.log =
      appendedRecords e.journal.log ++ [e.intentRecord r] ++ [t] := by
  rw [h.journal, appendedRecords_of_append h.attempt]
  congr 1
  exact appendedRecords_of_append h.intent

/-- The Attempts of two logs. -/
theorem attemptRecords_append (recs more : List JournalRecord) :
    attemptRecords (recs ++ more) = attemptRecords recs ++ attemptRecords more :=
  List.filter_append _ _

omit [Journal J] in
/-- A weaker assertion behind the last record. -/
theorem Replays.weaken {J' : Type} {snap : Option UInt64} {P Q Q' : CreditEngine J' → Prop}
    {recs : List JournalRecord} (h : Replays snap P recs Q) (hQ : ∀ ρ, Q ρ → Q' ρ) :
    Replays snap P recs Q' := by
  rw [← List.append_nil recs]
  exact h.append (.done hQ)

/-- **Run lemma.** -/
theorem run_simulated {e₀ : CreditEngine (Observed J)} (haccounts : e₀.accounts = ∅)
    (hchain : e₀.chain = {}) (hlog : appendedRecords e₀.journal.log = [])
    (hlimits : e₀.limits.maxNoteBytes ≤ 4096) (J' : Type) (rs : List CreditRequest)
    (h : EachCall Accepted e₀ rs) : Simulated J' e₀ rs := by
  induction rs using List.reverseRecOn with
  | nil =>
    have hstart : ∀ ρ : CreditEngine J', Mirrors e₀.limits ∅ {} ρ →
        Mirrors e₀.limits e₀.accounts e₀.chain ρ := by
      rw [haccounts, hchain]
      exact fun _ h => h
    have hnotes : NoNotes e₀.accounts := by
      rw [haccounts]
      exact noNotes_empty
    refine ⟨rfl, hnotes, ?_, fun p hp => ⟨0, Nat.le_refl 0, ?_, hnotes, ?_⟩⟩
    · rw [run_nil, hlog]
      exact .done hstart
    · rw [run_nil, hlog, List.prefix_nil] at hp
      rw [hp, List.take_nil, run_nil, hlog]
    · rw [run_nil, hlog, List.prefix_nil] at hp
      rw [hp]
      exact .done fun ρ hρ => (hstart ρ hρ).recalls hnotes
  | append_singleton rs r ih =>
    obtain ⟨hbefore, hlast⟩ := eachCall_concat.mp h
    have hsim := ih hbefore
    -- the prefixes of the shorter run are still covered
    have hold : ∀ p, p <+: appendedRecords (e₀.run rs).journal.log →
        ∃ m ≤ (rs ++ [r]).length,
          attemptRecords (appendedRecords (e₀.run ((rs ++ [r]).take m)).journal.log) =
            attemptRecords p ∧
          NoNotes (e₀.run ((rs ++ [r]).take m)).accounts ∧
          Replays (J := J') none (Mirrors e₀.limits ∅ {}) p
            (Recalls (e₀.run ((rs ++ [r]).take m)).accounts
              (e₀.run ((rs ++ [r]).take m)).chain) := by
      intro p hp
      obtain ⟨m, hm, hrest⟩ := hsim.prefixes p hp
      refine ⟨m, by rw [List.length_append]; omega, ?_⟩
      rw [List.take_append_of_le_length hm]
      exact hrest
    rcases hlast.cases with hsilent | ⟨t, a, hcommits⟩
    · refine ⟨?_, ?_, ?_, ?_⟩
      · rw [run_concat, hsilent.limits]
        exact hsim.limits
      · rw [run_concat, hsilent.accounts]
        exact hsim.noNotes
      · rw [run_concat, hsilent.accounts, hsilent.chain, hsilent.journal]
        exact hsim.replays
      · rw [run_concat, hsilent.journal]
        exact hold
    · have hnote : r.note.length ≤ 4096 := by
        have hvalid := note_le_of_validateRequest hcommits.decides.valid
        rw [hsim.limits] at hvalid
        omega
      have hnotes : NoNotes ((e₀.run rs).apply r).2.accounts := by
        rw [hcommits.accounts]
        exact hsim.noNotes.insert _ (hcommits.decides.noNotes hsim.noNotes)
      obtain ⟨hintent, hattempt⟩ := hcommits.decides.replays J' hnote hsim.noNotes
        hsim.noNotes (trails_self _ r)
      rw [hsim.limits] at hintent hattempt
      have hpending := hsim.replays.append hintent
      have hdone := hpending.append hattempt
      rw [← hcommits.accounts, ← hcommits.chain] at hdone
      refine ⟨?_, ?_, ?_, ?_⟩
      · rw [run_concat, hcommits.limits]
        exact hsim.limits
      · rw [run_concat]
        exact hnotes
      · rw [run_concat, hcommits.log]
        exact hdone
      · intro p hp
        rw [run_concat, hcommits.log, List.prefix_concat_iff, List.prefix_concat_iff] at hp
        rcases hp with rfl | rfl | hp
        · refine ⟨rs.length + 1, by simp, ?_⟩
          rw [List.take_of_length_le (by simp), run_concat]
          refine ⟨by rw [hcommits.log], hnotes, hdone.weaken fun ρ hρ => hρ.recalls hnotes⟩
        · refine ⟨rs.length, by simp, ?_⟩
          rw [List.take_left]
          refine ⟨?_, hsim.noNotes, hpending.weaken fun ρ hρ => hρ.recalls hsim.noNotes⟩
          rw [attemptRecords_append]
          exact (List.append_nil _).symm
        · exact hold p hp

/-- **Replay simulates the live engine.**  In a run of one boot from an empty journal in which
    every attempt is applied or absorbed and no snapshot is taken, every prefix `p` of the
    records recovers to the accounts the live engine had after the calls whose Attempt records
    lie in `p`: no account more or less, each with its liveness forgotten and an empty refusal
    log, and with the same chain value.  Only the note of a trailing Intent is left out of the
    comparison. -/
theorem recover_simulates (limits : EngineLimits) (hlimits : limits.maxNoteBytes ≤ 4096) (j : J)
    (operator : Incarnation) (nonce : Digest128) {o' : Observed J}
    (hempty : Yields (Observed.mk j []) none [] o') (rs : List CreditRequest)
    (hrun : EachCall Accepted (boot limits (Observed.mk j []) operator nonce) rs)
    (p : List JournalRecord)
    (hp : p <+: appendedRecords
      ((boot limits (Observed.mk j []) operator nonce).run rs).journal.log)
    {J' : Type} [Journal J'] (j' : J') {j'' : J'} (hyields : Yields j' none p j'')
    (operator' : Incarnation) (nonce' : Digest128) :
    ∃ m ≤ rs.length, ∃ recovered : CreditEngine J',
      let live := (boot limits (Observed.mk j []) operator nonce).run (rs.take m)
      attemptRecords (appendedRecords live.journal.log) = attemptRecords p ∧
      (make limits j' operator' nonce').recover = (.success, recovered) ∧
      recovered.chain = live.chain ∧
      (∀ key : UInt64, (recovered.accounts[key]?).map AccountState.withoutNotes =
        (live.accounts[key]?).map AccountState.forgetLiveness) ∧
      ∀ (key : UInt64) (a : AccountState), recovered.accounts[key]? = some a →
        a.refusals = [] := by
  obtain ⟨e₀, hboot, haccounts, hchain, hclamped, -, -⟩ :=
    recover_of_empty (e := make limits (Observed.mk j []) operator nonce) hempty
  -- the first boot starts from nothing
  have hlog : appendedRecords e₀.journal.log = [] := by
    obtain ⟨events, hevents, hreads⟩ :=
      recover_readsOn (make limits (Observed.mk j []) operator nonce)
    rw [hboot] at hevents
    rw [hevents]
    exact appendedRecords_of_isRead hreads
  have hstart : boot limits (Observed.mk j []) operator nonce = e₀ := by
    unfold boot
    rw [hboot]
  have hnote : e₀.limits.maxNoteBytes ≤ 4096 := by
    rw [hclamped]
    show (if limits.maxNoteBytes = 0 then 1 else limits.maxNoteBytes) ≤ 4096
    split_ifs <;> omega
  rw [hstart] at hrun hp ⊢
  -- every prefix replays to the run of some of the calls
  have hsim := run_simulated haccounts hchain hlog hnote J' rs hrun
  obtain ⟨m, hm, hattempts, hnotes, hreplays⟩ := hsim.prefixes p hp
  rw [hclamped] at hreplays
  obtain ⟨ρ, hrecover, hrecalls⟩ := recover_rule (e := make limits j' operator' nonce') hyields
    hreplays (mirrors_blind _ _ _) fun _ => ⟨_, rfl, rfl, rfl, rfl⟩
  -- a recovery ends by forgetting liveness
  have hrecovered : ∀ key : UInt64, ({ ρ with journal := j'' }.finishRecovery).accounts[key]? =
      (ρ.accounts[key]?).map AccountState.forgetLiveness := by
    intro key
    show (ρ.accounts.map fun _ a => a.forgetLiveness)[key]? = _
    rw [ExtTreeMap.getElem?_map]
  refine ⟨m, hm, _, hattempts, hrecover, hrecalls.chain, fun key => ?_, fun key a ha => ?_⟩
  · rw [hrecovered, ← hrecalls.accounts key, Option.map_map, Option.map_map]
    rfl
  · rw [hrecovered, Option.map_eq_some_iff] at ha
    obtain ⟨b, hb, rfl⟩ := ha
    have hlive := hrecalls.accounts key
    rw [hb, Option.map_some] at hlive
    exact (hnotes key _ hlive.symm).2

/-! ### A journal that ends on an Intent

The operator opens the account, issues a credit, and sends the Issue once more, which is
absorbed.  The journal is cut behind the Intent of the Issue. -/

namespace CutIssue

/-- The engine of the fixture. -/
def start : CreditEngine (Observed InMemoryJournal) :=
  boot {} (Observed.mk {} []) Fixture.me ⟨5, 5⟩

/-- Three calls that are applied. -/
def calls : List CreditRequest :=
  [Fixture.request ⟨5, 5⟩ Fixture.me .open_ 1, Fixture.request ⟨5, 5⟩ Fixture.me .issue 2,
    Fixture.request ⟨5, 5⟩ Fixture.me .issue 2]

/-- The two records of the Open and the Intent of the Issue. -/
def kept : List JournalRecord := (appendedRecords (start.run calls).journal.log).take 3

/-- A journal with the given records. -/
def holding (recs : List JournalRecord) : InMemoryJournal :=
  { entries := recs.map fun t => { record := t } }

/-- A journal that holds some records. -/
private theorem holding_holds (recs : List JournalRecord) :
    LawfulJournal.Holds (holding recs) none recs := ⟨rfl, rfl⟩

/-- A log cut behind an Intent recovers to what was applied before. -/
theorem cut_recovers : ∃ m ≤ 3, ∃ recovered : CreditEngine InMemoryJournal,
    attemptRecords (appendedRecords (start.run (calls.take m)).journal.log) =
      attemptRecords kept ∧
    (make {} (holding kept).restart Fixture.me ⟨6, 6⟩).recover = (.success, recovered) ∧
    ∀ key : UInt64, (recovered.accounts[key]?).map AccountState.withoutNotes =
      ((start.run (calls.take m)).accounts[key]?).map AccountState.forgetLiveness := by
  have hempty : Yields (Observed.mk ({} : InMemoryJournal) []) none [] _ :=
    ⟨_, _, _, _, rfl, rfl, rfl, .done rfl, rfl⟩
  obtain ⟨j'', hyields, -⟩ := LawfulJournal.holds_restart (holding_holds kept)
  have hkept : kept <+: appendedRecords (start.run calls).journal.log := by
    unfold kept
    exact List.take_prefix 3 _
  unfold start at hkept
  obtain ⟨m, hm, recovered, hattempts, hrecover, -, haccounts, -⟩ :=
    recover_simulates {} (by decide) ({} : InMemoryJournal) Fixture.me ⟨5, 5⟩ hempty calls
      (by decide +kernel) kept hkept (holding kept).restart hyields Fixture.me ⟨6, 6⟩
  exact ⟨m, hm, recovered, hattempts, hrecover, haccounts⟩

end CutIssue

end CreditEngine

end CreditFabric
