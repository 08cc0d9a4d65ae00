import CreditFabric.Replay
import CreditFabric.Effects
import CreditFabric.LedgerInvariant

namespace CreditFabric

open Std (ExtTreeMap)

/-!
# Replay simulates the live engine

The live engine decides an attempt in `decideControl`, `decideReconcile` or `decideLedger`;
recovery decides it again in `applyReplayTransition` and `replayRecords`.  Here the two
implementations are compared.

* `replayDecision_proceed`: from an account that follows the live one, the replay of an applied
  attempt ends in the account the live engine decided to.
* `Decides.replays`: the two records of an applied call replay, and install the account the
  live engine published.
* `apply_commits`: an applied call that took no snapshot appended exactly these two records.

The ambiguous notes are the one part of an account in which the two may differ in between: the
Intent record leaves a note, which publishing resolves.
-/

/-! ### One decision -/

/-- The account with other ambiguous notes. -/
def AccountState.withAmbiguous (a : AccountState) (notes : List AmbiguousNote) : AccountState :=
  { a with ambiguous := notes }

/-- Notes and records are apart. -/
theorem updateIncarnation_withAmbiguous (a : AccountState) (notes : List AmbiguousNote)
    (id : IncarnationId) (f : IncarnationRecord → IncarnationRecord) :
    (a.withAmbiguous notes).updateIncarnation id f =
      (a.updateIncarnation id f).withAmbiguous notes := by
  unfold AccountState.updateIncarnation AccountState.withAmbiguous
  simp only
  cases a.incarnations[id]? <;> rfl

/-- Notes and counters are apart. -/
theorem countCommitted_withAmbiguous (a : AccountState) (notes : List AmbiguousNote)
    (caller : IncarnationId) : countCommitted (a.withAmbiguous notes) caller =
      (countCommitted a caller).withAmbiguous notes :=
  updateIncarnation_withAmbiguous { a with committedAttempts := a.committedAttempts + 1 } _ _ _

/-- The two halves of a replayed application, run one after the other. -/
def replayApplication (a : AccountState) (r : CreditRequest) : Status × AccountState :=
  let (status, a) := applyReplayTransition a r
  if !status.ok then (status, a) else replayRecords a r

/-- The replay of an applied attempt, from its application. -/
theorem replayDecision_of_application {a a' : AccountState} {d : DurableAttempt}
    (happlied : d.outcome.applied = true)
    (h : replayApplication a d.request = (.success, a')) :
    replayDecision a d = (.success, countCommitted a' d.request.authority.incarnation) := by
  unfold replayApplication at h
  unfold replayDecision
  simp only [happlied, if_true]
  cases ht : applyReplayTransition a d.request with
  | mk s a₁ =>
    rw [ht] at h
    simp only at h ⊢
    cases hs : s.ok with
    | false =>
      rw [hs] at h
      simp only [Bool.not_false, if_true] at h
      have hstatus : s = .success := congrArg Prod.fst h
      rw [hstatus] at hs
      exact absurd hs (by decide)
    | true =>
      rw [hs] at h
      simp only [Bool.not_true, Bool.false_eq_true, if_false] at h ⊢
      rw [h]
      rfl

/-- A control decision replays to what it decided. -/
theorem ControlCase.replayApplication {limits : EngineLimits} {a a' : AccountState}
    {r : CreditRequest} (h : ControlCase limits a r (.proceed a')) (notes : List AmbiguousNote) :
    replayApplication (a.withAmbiguous notes) r = (.success, a'.withAmbiguous notes) := by
  unfold CreditFabric.replayApplication applyReplayTransition replayRecords
  cases h with
  | exhausted op => simp only [op]; rfl
  | cleared op => simp only [op]; rfl
  | resized op plan hplan =>
    simp only [op, AccountState.withAmbiguous, hplan]
    rfl
  | advanced op plan hplan =>
    rcases op with op | op
    · simp only [op, AccountState.withAmbiguous, hplan, nextEpoch]
      rfl
    · simp only [op, AccountState.withAmbiguous, hplan, nextEpoch]
      rfl
  | retired op plan hplan =>
    simp only [op, AccountState.withAmbiguous, hplan]
    rfl
  | revalidated op plan hplan =>
    simp only [op, AccountState.withAmbiguous, hplan]
    rfl
  | fenced op target unfenced room budget => simp only [op]; rfl
  | retiredIncarnation op target record found state =>
    have hfound : (a.withAmbiguous notes).findIncarnation r.target = some record := found
    simp only [op, hfound]
    rfl

/-- Replaying an Issue binds it in the caller's record. -/
theorem replayRecords_issue {a : AccountState} {r : CreditRequest} {b : IncarnationRecord}
    (op : r.op = .issue) (found : a.incarnations[r.authority.incarnation]? = some b)
    (bound : (bindIssue b r).2 = none) : replayRecords a r =
      (.success, a.setIncarnation r.authority.incarnation (bindIssue b r).1) := by
  have hcase := bindIssue_cases b r
  unfold replayRecords
  simp only [op, AccountState.findIncarnation, found]
  generalize bindIssue b r = result at hcase bound
  cases hcase with
  | bound hp hc hg => rfl
  | _ => simp at bound

/-- Replaying a ledger operation moves the totals as the plan did. -/
theorem applyReplayTransition_ledger {a : AccountState} {r : CreditRequest}
    (op : opIsLedger r.op = true)
    (hok : (ledgerApply (.start a.capacity a.totals) a r).1.ok = true) :
    applyReplayTransition a r = (.success, { a with
      totals := (ledgerApply (.start a.capacity a.totals) a r).2.totals }) := by
  unfold applyReplayTransition
  cases hop : r.op with
  | issue | consume | return_ | protect | unprotect =>
    simp only [hok, Bool.not_true, Bool.false_eq_true, if_false]
  | _ =>
    rw [hop] at op
    exact absurd op (by decide)

/-- A ledger decision replays to what it decided. -/
theorem LedgerCase.replayApplication {a a' : AccountState} {r : CreditRequest}
    (h : LedgerCase a r (.proceed a')) (notes : List AmbiguousNote) :
    replayApplication (a.withAmbiguous notes) r = (.success, a'.withAmbiguous notes) := by
  have hsame : ledgerApply (.start (a.withAmbiguous notes).capacity
      (a.withAmbiguous notes).totals) (a.withAmbiguous notes) r =
      ledgerApply (.start a.capacity a.totals) a r := ledgerApply_congr rfl _ _
  unfold CreditFabric.replayApplication
  cases h with
  | issued op open_ b found bound hok =>
    rw [applyReplayTransition_ledger (by rw [op]; rfl) (by rw [hsame]; exact hok), hsame]
    simp only [Status.ok_success, Bool.not_true, Bool.false_eq_true, if_false]
    exact replayRecords_issue op (by exact found) bound
  | applied op notIssue hok =>
    rw [applyReplayTransition_ledger op (by rw [hsame]; exact hok), hsame]
    simp only [Status.ok_success, Bool.not_true, Bool.false_eq_true, if_false]
    unfold replayRecords
    cases hop : r.op with
    | issue => exact absurd hop notIssue
    | consume | return_ | protect | unprotect => rfl
    | _ =>
      rw [hop] at op
      exact absurd op (by decide)

/-- The replayed account of an attempt on the live account `a`: they differ in the ambiguous
    notes, and, in front of a Reconcile, in whether the reconciler is still taken for live. -/
structure Follows (r : CreditRequest) (a aρ : AccountState) : Prop where
  same : aρ = { a with incarnations := aρ.incarnations, ambiguous := aρ.ambiguous }
  records : aρ.incarnations = a.incarnations ∨ r.op = .reconcile ∧
    (∀ i, i ≠ r.authority.incarnation → aρ.incarnations[i]? = a.incarnations[i]?) ∧
    a.incarnations[r.authority.incarnation]? =
      (aρ.incarnations[r.authority.incarnation]?).map IncarnationRecord.forgetLiveness

/-- Marking a record reconciled sets its liveness, whatever it was. -/
private theorem markReconciled_forgetLiveness (b : IncarnationRecord) (epoch : EpochId)
    (generation : Generation) (proof : Digest128) :
    markReconciled b.forgetLiveness epoch generation proof =
      markReconciled b epoch generation proof := by
  unfold IncarnationRecord.forgetLiveness
  by_cases h : b.state = .reconciled
  · rw [if_pos h]
    rfl
  · rw [if_neg h]

/-- A reconciliation replays to what it decided. -/
theorem ReconcileCase.replayApplication {challenge : ReconciliationChallenge}
    {a a' aρ : AccountState} {r : CreditRequest}
    (h : ReconcileCase challenge a r (.proceed a')) (op : r.op = .reconcile)
    (hfollows : Follows r a aρ) :
    replayApplication aρ r = (.success, a'.withAmbiguous aρ.ambiguous) := by
  obtain ⟨hsame, hrecords⟩ := hfollows
  cases h with
  | reconciled proof =>
    -- the record the Reconcile writes does not depend on whether the reconciler was live
    have hwritten : aρ.incarnations.insert r.authority.incarnation
          (markReconciled ((aρ.incarnations[r.authority.incarnation]?).getD (freshRecord r))
            a.epoch a.generation r.proof) =
        a.incarnations.insert r.authority.incarnation
          (markReconciled ((a.incarnations[r.authority.incarnation]?).getD (freshRecord r))
            a.epoch a.generation r.proof) := by
      rcases hrecords with heq | ⟨-, hothers, hcaller⟩
      · rw [heq]
      · have hrecord : markReconciled
              ((aρ.incarnations[r.authority.incarnation]?).getD (freshRecord r))
              a.epoch a.generation r.proof =
            markReconciled ((a.incarnations[r.authority.incarnation]?).getD (freshRecord r))
              a.epoch a.generation r.proof := by
          rw [hcaller]
          cases aρ.incarnations[r.authority.incarnation]? with
          | none => rfl
          | some b => exact (markReconciled_forgetLiveness b _ _ _).symm
        rw [hrecord]
        refine ExtTreeMap.ext_getElem? fun i => ?_
        by_cases hi : i = r.authority.incarnation
        · subst hi
          rw [ExtTreeMap.getElem?_insert_self, ExtTreeMap.getElem?_insert_self]
        · rw [Lib.getElem?_insert_of_ne _ _ hi, Lib.getElem?_insert_of_ne _ _ hi, hothers i hi]
    have hepoch : aρ.epoch = a.epoch := by rw [hsame]
    have hgeneration : aρ.generation = a.generation := by rw [hsame]
    unfold CreditFabric.replayApplication applyReplayTransition replayRecords
    simp only [op, Status.ok_success, Bool.not_true, Bool.false_eq_true, if_false,
      AccountState.findIncarnation, hepoch, hgeneration, hwritten]
    rw [hsame]
    rfl

namespace CreditEngine

variable {J : Type}

/-- **Replay simulates the decision.** -/
theorem replayDecision_proceed {e : CreditEngine J} {a a' aρ : AccountState}
    {d : DurableAttempt} (hd : e.decision a d.request = .proceed a')
    (happlied : d.outcome.applied = true) (hfollows : Follows d.request a aρ) :
    replayDecision aρ d = (.success,
      (countCommitted a' d.request.authority.incarnation).withAmbiguous aρ.ambiguous) := by
  have hreplay : replayApplication aρ d.request = (.success, a'.withAmbiguous aρ.ambiguous) := by
    -- only a Reconcile may find other records than the live engine
    have hexact : d.request.op ≠ .reconcile → aρ = a.withAmbiguous aρ.ambiguous := by
      intro hop
      obtain ⟨hsame, hrecords⟩ := hfollows
      have hincarnations := hrecords.resolve_right fun h => hop h.1
      rw [hincarnations] at hsame
      exact hsame
    rcases decision_cases e a d.request with ⟨hc, hop⟩ | ⟨hc, hop⟩ | ⟨hc, -, hop⟩ <;>
      rw [hd] at hc
    · rw [hexact fun h => by rw [h] at hop; exact absurd hop (by decide)]
      exact hc.replayApplication _
    · exact hc.replayApplication hop hfollows
    · rw [hexact hop]
      exact hc.replayApplication _
  rw [replayDecision_of_application happlied hreplay, countCommitted_withAmbiguous]

/-! ### Records -/

/-- The replaying engine has the given accounts and chain value. -/
structure Mirrors (limits : EngineLimits) (accounts : ExtTreeMap UInt64 AccountState)
    (chain : Digest128) (ρ : CreditEngine J) : Prop where
  limits : ρ.limits = limits
  accounts : ρ.accounts = accounts
  chain : ρ.chain = chain

/-- The same behind an Intent: the account of the request, if there is one, carries one
    ambiguous note, for the place of the request. -/
structure Pending (limits : EngineLimits) (accounts : ExtTreeMap UInt64 AccountState)
    (chain : Digest128) (r : CreditRequest) (ρ : CreditEngine J) : Prop where
  limits : ρ.limits = limits
  chain : ρ.chain = chain
  unknown : accounts[r.authority.account]? = none → ρ.accounts = accounts
  noted : ∀ a, accounts[r.authority.account]? = some a → ∃ note : AmbiguousNote,
    note.incarnation = r.authority.incarnation ∧ note.sequence = r.sequence ∧
    ρ.accounts = accounts.insert r.authority.account (a.withAmbiguous [note])

/-- The mirror says nothing of the journal. -/
theorem mirrors_blind (limits : EngineLimits) (accounts : ExtTreeMap UInt64 AccountState)
    (chain : Digest128) : Blind (J := J) (Mirrors limits accounts chain) :=
  fun _ _ h => ⟨h.limits, h.accounts, h.chain⟩

/-- Nor does a pending intent. -/
theorem pending_blind (limits : EngineLimits) (accounts : ExtTreeMap UInt64 AccountState)
    (chain : Digest128) (r : CreditRequest) : Blind (J := J) (Pending limits accounts chain r) :=
  fun _ _ h => ⟨h.limits, h.chain, h.unknown, h.noted⟩

/-- No account has an ambiguous note or a logged refusal. -/
def NoNotes (accounts : ExtTreeMap UInt64 AccountState) : Prop :=
  ∀ (key : UInt64) (a : AccountState), accounts[key]? = some a →
    a.ambiguous = [] ∧ a.refusals = []

/-- No account has no note. -/
theorem noNotes_empty : NoNotes ∅ := by
  intro key a ha
  simp at ha

/-- Putting an account without notes leaves none. -/
theorem NoNotes.insert {accounts : ExtTreeMap UInt64 AccountState} (h : NoNotes accounts)
    (key : UInt64) {a : AccountState} (ha : a.ambiguous = [] ∧ a.refusals = []) :
    NoNotes (accounts.insert key a) := by
  intro i b hb
  by_cases hi : i = key
  · subst hi
    rw [ExtTreeMap.getElem?_insert_self, Option.some.injEq] at hb
    rw [← hb]
    exact ha
  · rw [Lib.getElem?_insert_of_ne _ _ hi] at hb
    exact h i b hb

/-- Replaying an intent leaves its request pending. -/
theorem replayRecord_intent {ρ : CreditEngine J} {limits : EngineLimits}
    {accounts : ExtTreeMap UInt64 AccountState} {chain : Digest128} {r : CreditRequest}
    {t : JournalRecord} (h : Mirrors limits accounts chain ρ) (hnotes : NoNotes accounts)
    (hkind : t.kind = .intent) (hpayload : t.payload = encodeRequestMessage r)
    (hwire : r.note.length ≤ 4096) (hnote : r.note.length ≤ limits.maxNoteBytes) :
    ∃ ρ', ρ.replayRecord none t = (.success, ρ') ∧ Pending limits accounts chain r ρ' := by
  obtain ⟨hlimits, haccounts, hchain⟩ := h
  refine ⟨ρ.markAmbiguous r t.sequence, ?_, ?_⟩
  · unfold replayRecord replayIntent
    simp only [Option.any_none, Bool.false_eq_true, if_false, hkind, hpayload, hlimits,
      decodeRequestMessage_encode hwire hnote]
  · have hframe := markAmbiguous_untouched ρ r t.sequence
    unfold markAmbiguous at hframe ⊢
    rw [haccounts] at hframe ⊢
    cases hfound : accounts[r.authority.account]? with
    | none =>
      exact ⟨hlimits, hchain, fun _ => haccounts, fun a ha => by rw [hfound] at ha; cases ha⟩
    | some a =>
      have hempty := (hnotes _ a hfound).1
      simp only [AccountState.markAmbiguous, hempty, List.any_nil, Bool.false_eq_true, if_false,
        List.tail_nil, ite_self, List.nil_append]
      refine ⟨hlimits, hchain, fun hnone => (by rw [hfound] at hnone; cases hnone),
        fun b hb => ?_⟩
      rw [hfound, Option.some.injEq] at hb
      subst hb
      let note : AmbiguousNote :=
        { attempt := r.attempt, op := r.op, sequence := r.sequence,
          incarnation := r.authority.incarnation, journalSequence := t.sequence }
      refine ⟨note, rfl, rfl, ?_⟩
      show ρ.accounts.insert _ _ = _
      rw [haccounts]
      rfl

/-- An account verifies against its own durable form, whatever its notes. -/
theorem verifyReplay_buildDurable (a : AccountState) (notes : List AmbiguousNote) :
    verifyReplay (a.withAmbiguous notes) (a.buildDurable false) = .success := by
  show (if a.digest ≠ a.digest then _ else if a.capacity ≠ a.capacity then _
    else if a.totals ≠ a.totals then _ else if a.hardExhausted ≠ a.hardExhausted then _
    else if a.exhaustionCause ≠ a.exhaustionCause then _ else _) = _
  simp only [ne_eq, not_true_eq_false, if_false]

/-- Publishing resolves the note of its own place. -/
theorem publishWindow_withAmbiguous {a : AccountState} {r : CreditRequest}
    {o o' : CreditOutcome} {notes : List AmbiguousNote} (hempty : a.ambiguous = [])
    (hplace : ∀ note ∈ notes, note.incarnation = r.authority.incarnation ∧
      note.sequence = r.sequence)
    (hstatus : o'.status = o.status) (happlied : o'.applied = o.applied)
    (hview : o'.view = o.view) :
    (a.withAmbiguous notes).publishWindow r o' = a.publishWindow r o := by
  have hresolved : notes.filter (fun note =>
      !(note.incarnation == r.authority.incarnation && note.sequence == r.sequence)) = [] := by
    refine List.filter_eq_nil_iff.mpr fun note hnote => ?_
    obtain ⟨hincarnation, hsequence⟩ := hplace note hnote
    simp [hincarnation, hsequence]
  unfold AccountState.publishWindow
  simp only [hstatus, happlied, hview]
  rw [show ({ a.withAmbiguous notes with
      window := (a.withAmbiguous notes).window.insert _ } : AccountState) =
    ({ a with window := a.window.insert _ } : AccountState).withAmbiguous notes from rfl,
    updateIncarnation_withAmbiguous]
  unfold AccountState.resolveAmbiguous
  rw [AccountState.updateIncarnation_eq]
  simp only [AccountState.withAmbiguous, hresolved, hempty, List.filter_nil]

/-- A decided attempt as the engine journals it: `a` is the account it was decided to. -/
structure Journals (d : DurableAttempt) (a : AccountState) : Prop where
  written : d.Written
  wire : d.request.note.length ≤ 4096
  applied : d.outcome.applied = true
  decided : d.outcome.decided = true
  view : d.outcome.view = a.view
  account : d.account = a.buildDurable false
  noNotes : a.ambiguous = []

/-- The end of a replay installs the account that the live engine published. -/
theorem finishReplay_journals (ρ : CreditEngine J) {d : DurableAttempt} {a : AccountState}
    (h : Journals d a) {notes : List AmbiguousNote}
    (hplace : ∀ note ∈ notes, note.incarnation = d.request.authority.incarnation ∧
      note.sequence = d.request.sequence) :
    ∃ ρ', ρ.finishReplay (a.withAmbiguous notes) d = (.success, ρ') ∧ ρ'.limits = ρ.limits ∧
      ρ'.accounts = ρ.accounts.insert d.request.authority.account
        (a.publishWindow d.request d.outcome) := by
  have hpublished : (a.withAmbiguous notes).publishWindow d.request
      (recordedOutcome (a.withAmbiguous notes) d) = a.publishWindow d.request d.outcome :=
    publishWindow_withAmbiguous h.noNotes hplace rfl rfl h.view.symm
  unfold finishReplay
  simp only [h.account, verifyReplay_buildDurable, Status.ok_success, Bool.not_true,
    Bool.false_eq_true, if_false, h.decided, if_true, hpublished]
  exact ⟨_, rfl, rfl, Lib.insert_insert_self _ _ _ _⟩

/-- Replaying an attempt of an account that is there. -/
theorem replayAttempt_of_decision {ρ : CreditEngine J} {d : DurableAttempt} {a a' : AccountState}
    (hexisting : d.createdAccount = false)
    (hfound : ρ.accounts[d.request.authority.account]? = some a)
    (h : replayDecision a d = (.success, a')) : ρ.replayAttempt d = ρ.finishReplay a' d := by
  unfold replayAttempt
  simp only [hexisting, Bool.false_eq_true, if_false, hfound, h, Status.ok_success, Bool.not_true]

/-- An Attempt record whose attempt replays up to the installation. -/
theorem replayRecord_attempt (ρ : CreditEngine J) {t : JournalRecord} {d : DurableAttempt}
    {a : AccountState} (h : Journals d a) (hkind : t.kind = .attempt)
    (hpayload : t.payload = encodeDurableAttempt d)
    (hchain : t.chain = expectedChain ρ.chain t.sequence d) (notes : List AmbiguousNote)
    (hplace : ∀ note ∈ notes, note.incarnation = d.request.authority.incarnation ∧
      note.sequence = d.request.sequence)
    (hreplay : ρ.replayAttempt d = ρ.finishReplay (a.withAmbiguous notes) d) :
    ∃ ρ', ρ.replayRecord none t = (.success, ρ') ∧
      Mirrors ρ.limits (ρ.accounts.insert d.request.authority.account
        (a.publishWindow d.request d.outcome)) t.chain ρ' := by
  obtain ⟨ρ₁, hfinish, hlimits, haccounts⟩ := finishReplay_journals ρ h hplace
  unfold replayRecord replayAttemptRecord
  simp only [Option.any_none, Bool.false_eq_true, if_false, hkind, hpayload,
    decodeDurableAttempt_encode h.written h.wire, ← hchain, ne_eq, not_true_eq_false, hreplay,
    hfinish, Status.ok_success, Bool.not_true]
  exact ⟨_, rfl, hlimits, haccounts, rfl⟩

/-! ### The two records of an applied call -/

/-- The Attempt record of an applied call and the account it publishes. -/
inductive Decides (e : CreditEngine J) (r : CreditRequest) : JournalRecord → AccountState → Prop
  | opened (h : Opens e r) :
      Decides e r ((e.opening r).attemptRecord r (e.openOutcome r) (openedAccount e.limits r) true)
        ((openedAccount e.limits r).publishWindow r (e.openOutcome r))
  | applied (a : AccountState) (h : Admitted e r a) (a' : AccountState)
      (hd : e.decision a r = .proceed a') :
      Decides e r ((e.applying r a').attemptRecord r (applicationOutcome a r a')
          (countCommitted a' r.authority.incarnation) false)
        ((countCommitted a' r.authority.incarnation).publishWindow r (applicationOutcome a r a'))

/-- A valid request's note is within the engine's limit. -/
theorem note_le_of_validateRequest {limits : EngineLimits} {r : CreditRequest}
    (h : validateRequest limits r = none) : r.note.length ≤ limits.maxNoteBytes := by
  unfold validateRequest at h
  split_ifs at h with h₁ h₂ h₃ h₄ h₅
  omega

/-- A decided request was valid. -/
theorem Decides.valid {e : CreditEngine J} {r : CreditRequest} {t : JournalRecord}
    {a : AccountState} (h : Decides e r t a) : validateRequest e.limits r = none := by
  cases h with
  | opened h => exact h.valid
  | applied a h => exact h.valid

/-- What the replayed accounts must be in front of the records of `r`: absent where the live
    engine has no account yet, and following the live account where it has one. -/
structure Trails (e : CreditEngine J) (accounts : ExtTreeMap UInt64 AccountState)
    (r : CreditRequest) : Prop where
  fresh : e.accounts[r.authority.account]? = none → accounts[r.authority.account]? = none
  follows : ∀ a, e.accounts[r.authority.account]? = some a →
    ∃ g, accounts[r.authority.account]? = some g ∧ Follows r a g

/-- A live engine trails itself. -/
theorem trails_self (e : CreditEngine J) (r : CreditRequest) : Trails e e.accounts r :=
  ⟨id, fun a ha => ⟨a, ha, ⟨rfl, .inl rfl⟩⟩⟩

/-- The attempt the engine journals is one that replays. -/
theorem durableAttempt_journals (e : CreditEngine J) {r : CreditRequest} {o : CreditOutcome}
    {a : AccountState} (c : Bool) (hwire : r.note.length ≤ 4096) (hnotes : a.ambiguous = []) :
    Journals (e.durableAttempt r (appliedOutcome o a) a c) a where
  written := durableAttempt_written e r a (quarantined_computeView _ _) fun _ => rfl
  wire := hwire
  applied := rfl
  decided := rfl
  view := rfl
  account := rfl
  noNotes := hnotes

/-- A decision that proceeds leaves the notes and the refusal log alone. -/
theorem decision_notes {e : CreditEngine J} {a a' : AccountState} {r : CreditRequest}
    (hd : e.decision a r = .proceed a') :
    a'.ambiguous = a.ambiguous ∧ a'.refusals = a.refusals := by
  rcases decision_cases e a r with ⟨hc, -⟩ | ⟨hc, -⟩ | ⟨hc, -⟩ <;> rw [hd] at hc <;> cases hc <;>
    exact ⟨rfl, rfl⟩

/-- Counting a commit writes no note. -/
theorem countCommitted_notes (a : AccountState) (caller : IncarnationId) :
    (countCommitted a caller).ambiguous = a.ambiguous ∧
      (countCommitted a caller).refusals = a.refusals := by
  unfold countCommitted
  rw [AccountState.updateIncarnation_eq]
  exact ⟨rfl, rfl⟩

/-- Replaying the Attempt record of an accepted Open. -/
theorem Opens.replayRecord {J' : Type} {e : CreditEngine J} {r : CreditRequest} (h : Opens e r)
    (hwire : r.note.length ≤ 4096) {accounts : ExtTreeMap UInt64 AccountState}
    (htrails : Trails e accounts r) {ρ : CreditEngine J'}
    (hρ : Pending e.limits accounts e.chain r ρ) :
    ∃ ρ', ρ.replayRecord none ((e.opening r).attemptRecord r (e.openOutcome r)
        (openedAccount e.limits r) true) = (.success, ρ') ∧
      Mirrors e.limits (accounts.insert r.authority.account
        ((openedAccount e.limits r).publishWindow r (e.openOutcome r)))
        ((e.opening r).attemptRecord r (e.openOutcome r) (openedAccount e.limits r) true).chain
        ρ' := by
  have hunknown := htrails.fresh h.fresh.1
  have haccounts := hρ.unknown hunknown
  have hcreated : ρ.replayAttempt ((e.opening r).durableAttempt r (e.openOutcome r)
      (openedAccount e.limits r) true) = ρ.finishReplay
        ((openedAccount e.limits r).withAmbiguous [])
        ((e.opening r).durableAttempt r (e.openOutcome r) (openedAccount e.limits r) true) := by
    have hnone : ρ.accounts.contains r.authority.account = false := by
      rw [haccounts, ExtTreeMap.contains_eq_isSome_getElem?, hunknown]
      rfl
    unfold replayAttempt
    simp only [durableAttempt, hnone, if_true, Bool.false_eq_true, if_false]
    rw [hρ.limits]
    rfl
  obtain ⟨ρ', hreplay, hmirrors⟩ := replayRecord_attempt ρ
    (t := (e.opening r).attemptRecord r (e.openOutcome r) (openedAccount e.limits r) true)
    (durableAttempt_journals (e.opening r) (o := .ofRequest r) true hwire rfl) rfl rfl
    (by rw [hρ.chain]; rfl) [] (fun _ hmem => absurd hmem List.not_mem_nil) hcreated
  rw [hρ.limits, haccounts] at hmirrors
  exact ⟨ρ', hreplay, hmirrors⟩

/-- Replaying the Attempt record of an applied decision. -/
theorem Admitted.replayRecord {J' : Type} {e : CreditEngine J} {r : CreditRequest}
    {a a' : AccountState} (h : Admitted e r a) (hd : e.decision a r = .proceed a')
    (hwire : r.note.length ≤ 4096) (hnotes : a.ambiguous = [])
    {accounts : ExtTreeMap UInt64 AccountState} (htrails : Trails e accounts r)
    {ρ : CreditEngine J'} (hρ : Pending e.limits accounts e.chain r ρ) :
    ∃ ρ', ρ.replayRecord none ((e.applying r a').attemptRecord r (applicationOutcome a r a')
        (countCommitted a' r.authority.incarnation) false) = (.success, ρ') ∧
      Mirrors e.limits (accounts.insert r.authority.account
        ((countCommitted a' r.authority.incarnation).publishWindow r (applicationOutcome a r a')))
        ((e.applying r a').attemptRecord r (applicationOutcome a r a')
          (countCommitted a' r.authority.incarnation) false).chain ρ' := by
  obtain ⟨g, hg, hfollows⟩ := htrails.follows a h.found
  obtain ⟨note, hincarnation, hsequence, haccounts⟩ := hρ.noted g hg
  have hempty : (countCommitted a' r.authority.incarnation).ambiguous = [] := by
    rw [(countCommitted_notes _ _).1, (decision_notes hd).1, hnotes]
  have hfollows' : Follows r a (g.withAmbiguous [note]) := by
    obtain ⟨hsame, hrecords⟩ := hfollows
    refine ⟨?_, hrecords⟩
    rw [hsame]
    rfl
  -- the live decision, replayed on the account that the Intent noted
  have hdecided : ρ.replayAttempt ((e.applying r a').durableAttempt r (applicationOutcome a r a')
      (countCommitted a' r.authority.incarnation) false) = ρ.finishReplay
        ((countCommitted a' r.authority.incarnation).withAmbiguous [note])
        ((e.applying r a').durableAttempt r (applicationOutcome a r a')
          (countCommitted a' r.authority.incarnation) false) := by
    have hfound : ρ.accounts[r.authority.account]? = some (g.withAmbiguous [note]) := by
      rw [haccounts, ExtTreeMap.getElem?_insert_self]
    have hreplay := replayDecision_proceed (d := (e.applying r a').durableAttempt r
      (applicationOutcome a r a') (countCommitted a' r.authority.incarnation) false) hd rfl
      hfollows'
    exact replayAttempt_of_decision rfl hfound hreplay
  obtain ⟨ρ', hreplay, hmirrors⟩ := replayRecord_attempt ρ
    (t := (e.applying r a').attemptRecord r (applicationOutcome a r a')
      (countCommitted a' r.authority.incarnation) false)
    (durableAttempt_journals (e.applying r a') (o := admittedOutcome r a) false hwire hempty)
    rfl rfl (by rw [hρ.chain]; rfl) [note]
    (fun n hn => by rw [List.mem_singleton] at hn; subst hn; exact ⟨hincarnation, hsequence⟩)
    hdecided
  rw [hρ.limits, haccounts] at hmirrors
  refine ⟨ρ', hreplay, ?_⟩
  -- the replayed account takes the place of the noted one
  rw [← Lib.insert_insert_self accounts _ (g.withAmbiguous [note])]
  exact hmirrors

/-- **The two records of an applied call replay.**  The Intent leaves an ambiguous note behind,
    the Attempt resolves it and installs the account the live engine published. -/
theorem Decides.replays (J' : Type) {e : CreditEngine J} {r : CreditRequest} {t : JournalRecord}
    {a : AccountState} (h : Decides e r t a) (hwire : r.note.length ≤ 4096)
    (hlive : NoNotes e.accounts) {accounts : ExtTreeMap UInt64 AccountState}
    (hnotes : NoNotes accounts) (htrails : Trails e accounts r) :
    Replays (J := J') none (Mirrors e.limits accounts e.chain) [e.intentRecord r]
        (Pending e.limits accounts e.chain r) ∧
      Replays (J := J') none (Pending e.limits accounts e.chain r) [t]
        (Mirrors e.limits (accounts.insert r.authority.account a) t.chain) := by
  refine ⟨.one (pending_blind _ _ _ _) fun ρ hρ => ?_, .one (mirrors_blind _ _ _) fun ρ hρ => ?_⟩
  · exact replayRecord_intent hρ hnotes rfl rfl hwire (note_le_of_validateRequest h.valid)
  · cases h with
    | opened h => exact h.replayRecord hwire htrails hρ
    | applied a h a' hd => exact h.replayRecord hd hwire (hlive _ a h.found).1 htrails hρ

/-- Publishing logs nothing. -/
theorem publishWindow_notes {a : AccountState} (h : a.ambiguous = [] ∧ a.refusals = [])
    (r : CreditRequest) (o : CreditOutcome) :
    (a.publishWindow r o).ambiguous = [] ∧ (a.publishWindow r o).refusals = [] := by
  rw [AccountState.publishWindow_eq]
  refine ⟨?_, h.2⟩
  unfold AccountState.publishWindow AccountState.resolveAmbiguous
  simp only
  rw [AccountState.updateIncarnation_eq]
  simp only [h.1, List.filter_nil]

/-- A decision on an account without notes leaves it without. -/
theorem Decides.noNotes {e : CreditEngine J} {r : CreditRequest} {t : JournalRecord}
    {a : AccountState} (h : Decides e r t a) (hlive : NoNotes e.accounts) :
    a.ambiguous = [] ∧ a.refusals = [] := by
  cases h with
  | opened h => exact publishWindow_notes ⟨rfl, rfl⟩ _ _
  | applied a h a' hd =>
    have hcount := countCommitted_notes a' r.authority.incarnation
    have hkept := decision_notes hd
    have hbefore := hlive _ a h.found
    refine publishWindow_notes ⟨?_, ?_⟩ _ _
    · rw [hcount.1, hkept.1, hbefore.1]
    · rw [hcount.2, hkept.2, hbefore.2]

/-! ### Applied calls -/

section Applied

variable [Journal J]

/-- An applied call that took no snapshot: both records are durable and the account is
    published. -/
structure Commits (e : CreditEngine J) (r : CreditRequest) (t : JournalRecord)
    (a : AccountState) (e' : CreditEngine J) : Prop where
  decides : Decides e r t a
  intent : (Journal.append e.journal (e.intentRecord r)).1.ok = true
  attempt : (Journal.append (e.intentJournal r) t).1.ok = true
  journal : e'.journal = (Journal.append (e.intentJournal r) t).2
  accounts : e'.accounts = e.accounts.insert r.authority.account a
  chain : e'.chain = t.chain
  limits : e'.limits = e.limits

/-- The two appends of a call that persisted without a snapshot. -/
theorem persistLocked_kept {e : CreditEngine J} {r : CreditRequest} {o : CreditOutcome}
    {a : AccountState} {c : Bool} (hok : (e.persistLocked r o a c).1.ok = true)
    (hsnap : (e.persistLocked r o a c).2.snapshots = e.snapshots) :
    (Journal.append e.journal (e.intentRecord r)).1.ok = true ∧
      (e.attemptAppend r o a c).1.ok = true ∧
      (e.persistLocked r o a c).2 = e.afterDecision r o a c := by
  have hpersisted := persistLocked_persisted e r o a c
  generalize e.persistLocked r o a c = result at hpersisted hok hsnap
  obtain ⟨s, e'⟩ := result
  cases hpersisted with
  | appendFailed h hs => exact absurd (hs.symm.trans hok) (by decide)
  | kept hi h hrot => exact ⟨hi, h, rfl⟩
  | rotated hi h hrot hrotated =>
    cases hrotated with
    | appendFailed h => exact absurd (h.symm.trans hok) (by decide)
    | writeFailed ha h => exact absurd (h.symm.trans hok) (by decide)
    | rotateFailed ha hw h => exact absurd (h.symm.trans hok) (by decide)
    | durable ha hw h =>
      have hnext : e.snapshots + 1 = e.snapshots := hsnap
      simp at hnext

/-- An applied call committed its attempt. -/
theorem apply_commits {e : CreditEngine J} {r : CreditRequest}
    (happlied : (e.apply r).1.applied = true)
    (hsnap : (e.apply r).2.snapshots = e.snapshots) :
    ∃ t a, Commits e r t a (e.apply r).2 := by
  have heffect := apply_effect e r
  generalize e.apply r = result at heffect happlied hsnap ⊢
  obtain ⟨o, e'⟩ := result
  cases heffect with
  | answered o h _ => exact absurd (h.symm.trans happlied) (by decide)
  | absorbed a existing _ _ => exact absurd (show false = true from happlied) (by decide)
  | rejected a h s a' hd => exact absurd (show false = true from happlied) (by decide)
  | refused a h s a' hd hok => exact absurd (show false = true from happlied) (by decide)
  | failed o e' _ _ h _ => exact absurd (h.symm.trans happlied) (by decide)
  | opened h hok =>
    obtain ⟨hi, ha, heq⟩ := persistLocked_kept hok hsnap
    simp only [heq]
    refine ⟨_, _, .opened h, hi, ha, rfl, ?_, rfl, rfl⟩
    show (e.accounts.insert r.config.account _).insert r.config.account _ = _
    rw [Lib.insert_insert_self, h.fresh.2]
  | applied a h a' hd hok =>
    obtain ⟨hi, ha, heq⟩ := persistLocked_kept hok hsnap
    simp only [heq]
    exact ⟨_, _, .applied a h a' hd, hi, ha, rfl, Lib.insert_insert_self _ _ _ _, rfl, rfl⟩

end Applied

end CreditEngine

end CreditFabric
