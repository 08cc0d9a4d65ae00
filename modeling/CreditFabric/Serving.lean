import CreditFabric.Survival
import CreditFabric.Trace

namespace CreditFabric

namespace CreditEngine

/-!
# The gate behind a refused recovery

`apply` and `snapshot` read two flags, `recovered` and `journalFailed`.  A recovery that is
refused changes neither (`recover_refused_gate`), although it has cleared the accounts by then:
it leaves the gate as it found it.  So after a refused recovery the engine answers every call
with a refusal, without a change, exactly when it was not serving before
(`refused_recovery_iff`).
-/

variable {J : Type}

/-- The gate of `apply` and `snapshot` is open. -/
def Serving (e : CreditEngine J) : Prop := e.recovered = true ∧ e.journalFailed = false

instance (e : CreditEngine J) : Decidable e.Serving := by
  unfold Serving
  infer_instance

variable [Journal J]

/-! ### What a recovery does to the gate -/

/-- Both flags of the gate are as before. -/
def SameGate (e e' : CreditEngine J) : Prop :=
  e'.recovered = e.recovered ∧ e'.journalFailed = e.journalFailed

/-- Success opens the gate, unless the journal has failed; a refusal leaves it alone. -/
def GateAfter (e : CreditEngine J) (result : Status × CreditEngine J) : Prop :=
  result.2.recovered = (e.recovered || result.1.ok) ∧
    result.2.journalFailed = e.journalFailed

omit [Journal J] in
/-- One step that can end the recovery. -/
theorem GateAfter.unless {e e' : CreditEngine J} {status : Status}
    {rest : Status × CreditEngine J} (hsame : SameGate e e') (hrest : GateAfter e rest) :
    GateAfter e (if (!status.ok) = true then (status, e') else rest) := by
  cases hs : status.ok with
  | false =>
    simp only [Bool.not_false, if_true]
    exact ⟨by rw [hs, Bool.or_false]; exact hsame.1, hsame.2⟩
  | true =>
    simp only [Bool.not_true, Bool.false_eq_true, if_false]
    exact hrest

/-- The replay loop touches neither flag. -/
private theorem replayLoop_gate (snap : Option UInt64) (fuel : Nat) (e : CreditEngine J) :
    SameGate e (replayLoop snap fuel e).2 := by
  -- induction on the fuel; one record is `replayRecord_untouched`
  induction fuel generalizing e with
  | zero => exact ⟨rfl, rfl⟩
  | succ fuel ih =>
    unfold replayLoop
    simp only
    split_ifs with hread
    · exact ⟨rfl, rfl⟩
    · cases (Journal.nextRecord e.journal).2.1 with
      | none => exact ⟨rfl, rfl⟩
      | some record =>
        have hframe :=
          replayRecord_untouched { e with journal := (Journal.nextRecord e.journal).2.2 } snap record
        simp only
        split_ifs with hreplayed
        · exact ⟨hframe.recovered, hframe.journalFailed⟩
        · have hrest := ih
            (replayRecord { e with journal := (Journal.nextRecord e.journal).2.2 } snap record).2
          exact ⟨hrest.1.trans hframe.recovered, hrest.2.trans hframe.journalFailed⟩

/-- **The gate behind a recovery.**  A recovery that succeeds opens the gate, unless the journal
    has failed; one that is refused leaves both flags alone, wherever it ends. -/
theorem recover_gate (e : CreditEngine J) : GateAfter e e.recover := by
  unfold recover
  simp only
  refine .unless ⟨rfl, rfl⟩ (.unless ⟨rfl, rfl⟩ ?_)
  generalize (Journal.readSnapshot (Journal.open_ e.journal).2).2.1 = image
  generalize (Journal.readSnapshot (Journal.open_ e.journal).2).2.2 = j
  have hframe := loadSnapshot_untouched { e with journal := j }.reset image
  generalize loadSnapshot { e with journal := j }.reset image = loaded at hframe ⊢
  have hloaded : SameGate e loaded.2 := ⟨hframe.recovered, hframe.journalFailed⟩
  refine .unless hloaded (.unless hloaded ?_)
  generalize hbegun : { loaded.2 with journal := (Journal.beginReplay loaded.2.journal).2 } = begun
  have hloop := replayLoop_gate (image.map SnapshotImage.sequence)
    (Journal.remaining (Journal.beginReplay loaded.2.journal).2 + 1) begun
  generalize replayLoop (image.map SnapshotImage.sequence)
    (Journal.remaining (Journal.beginReplay loaded.2.journal).2 + 1) begun = replayed at hloop ⊢
  have hreplayed : SameGate e replayed.2 := by
    rw [← hbegun] at hloop
    exact ⟨hloop.1.trans hloaded.1, hloop.2.trans hloaded.2⟩
  refine .unless hreplayed (.unless hreplayed ?_)
  -- only the last step sets the flag
  exact ⟨(Bool.or_true _).symm, hreplayed.2⟩

/-! ### What an engine answers -/

/-- The status a call is answered with, and the engine it leaves. -/
def answer (e : CreditEngine J) : Call → Status × CreditEngine J
  | .apply r => ((e.apply r).1.status, (e.apply r).2)
  | .snapshot => e.snapshot

/-- With the gate closed every call is refused and leaves the engine as it is. -/
theorem answer_of_closed {e : CreditEngine J} (h : ¬ e.Serving) (c : Call) :
    (e.answer c).1.ok = false ∧ (e.answer c).2 = e := by
  cases hrecovered : e.recovered with
  | false =>
    cases c with
    | apply r =>
      unfold answer apply
      simp only [hrecovered, Bool.not_false, if_true]
      exact ⟨rfl, trivial⟩
    | snapshot =>
      unfold answer snapshot
      simp only [hrecovered, Bool.not_false, if_true]
      exact ⟨rfl, trivial⟩
  | true =>
    have hfailed : e.journalFailed = true := by
      cases hflag : e.journalFailed with
      | true => rfl
      | false => exact absurd ⟨hrecovered, hflag⟩ h
    cases c with
    | apply r =>
      unfold answer apply
      simp only [hrecovered, hfailed, Bool.not_true, Bool.false_eq_true, if_false, if_true]
      exact ⟨rfl, trivial⟩
    | snapshot =>
      unfold answer snapshot
      simp only [hrecovered, hfailed, Bool.not_true, Bool.false_eq_true, if_false, if_true]
      exact ⟨rfl, trivial⟩

/-- The state a call leaves is the answer's. -/
theorem call_eq_answer (e : CreditEngine J) (c : Call) : e.call c = (e.answer c).2 := by
  cases c <;> rfl

/-- With the gate closed no list of calls changes the engine. -/
theorem calls_of_closed {e : CreditEngine J} (h : ¬ e.Serving) (cs : List Call) :
    e.calls cs = e := by
  induction cs with
  | nil => rfl
  | cons c cs ih =>
    have hone : e.call c = e := (call_eq_answer e c).trans (answer_of_closed h c).2
    show (e.call c).calls cs = e
    rw [hone]
    exact ih

/-! ### Refused recoveries -/

/-- The calls of one engine. -/
inductive Invocation where
  | recover
  | serve (c : Call)

/-- One invocation of the server's thread. -/
def invoke (e : CreditEngine J) : Invocation → CreditEngine J
  | .recover => e.recover.2
  | .serve c => (e.answer c).2

/-- The engine after a list of calls. -/
def invocations (e : CreditEngine J) (is : List Invocation) : CreditEngine J := is.foldl invoke e

/-- However many applies and snapshots are called, each is refused, and neither the accounts nor
    the journal, with all that was ever asked of it, change. -/
def Shut (e : CreditEngine (Observed J)) : Prop :=
  ∀ (cs : List Call) (c : Call), ((e.calls cs).answer c).1.ok = false ∧
    ((e.calls cs).answer c).2.accounts = e.accounts ∧
    ((e.calls cs).answer c).2.journal = e.journal

/-- A shut engine answers no request with Ok. -/
theorem Shut.apply_refused {e : CreditEngine (Observed J)} (h : e.Shut) (r : CreditRequest) :
    (e.apply r).1.status.ok = false := (h [] (.apply r)).1

/-- A snapshot of a serving engine asks something of the journal. -/
theorem not_shut_of_serving {e : CreditEngine (Observed J)} (h : e.Serving) : ¬ e.Shut := by
  intro hshut
  obtain ⟨hrecovered, hfailed⟩ := h
  obtain ⟨-, -, hjournal⟩ := hshut [] .snapshot
  have hanswer : (e.answer .snapshot).2 = e.snapshotLocked.2 := by
    unfold answer snapshot
    simp only [hrecovered, hfailed, Bool.not_true, Bool.false_eq_true, if_false]
  obtain ⟨events, hlog, htrace⟩ := (snapshotLocked_snapshotted e).trace
  have hsame : e.snapshotLocked.2.journal.log = e.journal.log :=
    congrArg Observed.log ((congrArg CreditEngine.journal hanswer).symm.trans hjournal)
  have hnone : events = [] := List.append_right_eq_self.mp (hlog.symm.trans hsame)
  rw [hnone] at htrace
  -- the trace of a snapshot has at least the record it appends
  generalize e.snapshotLocked.1 = status at htrace
  cases htrace

/-- An engine is shut exactly when it is not serving. -/
theorem shut_iff {e : CreditEngine (Observed J)} : e.Shut ↔ ¬ e.Serving := by
  refine ⟨fun hshut hserving => not_shut_of_serving hserving hshut, fun h cs c => ?_⟩
  have hcalls : e.calls cs = e := calls_of_closed h cs
  obtain ⟨hrefused, hsame⟩ := answer_of_closed h c
  rw [hcalls, hsame]
  exact ⟨hrefused, rfl, rfl⟩

/-- **After a refused recovery.**  Whatever recoveries, applies and snapshots were called on an
    engine before, and whatever its journal holds and answers: after a recovery that is refused
    every apply and snapshot, up to the next recovery, is refused without a change exactly when
    the engine was not serving before that recovery. -/
theorem refused_recovery_iff (limits : EngineLimits) (journal : Observed J)
    (operator : Incarnation) (nonce : Digest128) (is : List Invocation)
    (hrefused : ((make limits journal operator nonce).invocations is).recover.1.ok = false) :
    ((make limits journal operator nonce).invocations is).recover.2.Shut ↔
      ¬ ((make limits journal operator nonce).invocations is).Serving := by
  generalize (make limits journal operator nonce).invocations is = e at hrefused ⊢
  obtain ⟨hrecovered, hfailed⟩ := recover_gate e
  rw [hrefused, Bool.or_false] at hrecovered
  rw [shut_iff]
  unfold Serving
  rw [hrecovered, hfailed]

/-! ### An engine that recovers twice -/

namespace SecondRecovery

/-- A request of the fixture's incarnation. -/
def request : OpKind → UInt64 → CreditRequest := Fixture.request ⟨5, 5⟩ Fixture.me

/-- The six operations of the first recovery and the eight of the Open succeed; then the
    directory of the journal cannot be reached once. -/
def storage : Observed FileJournal :=
  { journal := { unused {} with faults := List.replicate 14 none ++ [some 0] } }

/-- The engine has recovered, and an account has been opened. -/
def opened : List Invocation := [.recover, .serve (.apply (request .open_ 1))]

/-- A serving engine over a file whose next read fails. -/
def engine : CreditEngine (Observed FileJournal) :=
  (make {} storage Fixture.me ⟨5, 5⟩).invocations opened

/-- Its second recovery is refused, and it still applies an Issue. -/
theorem evaluated : engine.recover.1 = .refused .ioError 0 ∧ engine.Serving ∧
    (engine.recover.2.apply (request .issue 2)).1.applied = true ∧
    (engine.recover.2.apply (request .issue 2)).1.status = .success := by
  decide +kernel

/-- The refusal alone. -/
theorem engine_refused : engine.recover.1.ok = false := by
  rw [evaluated.1]
  rfl

/-- The gate of the engine it leaves. -/
theorem engine_gate : engine.recover.2.Shut ↔ ¬ engine.Serving :=
  refused_recovery_iff {} storage Fixture.me ⟨5, 5⟩ opened engine_refused

/-- **A refused recovery serves.**  The second recovery of the engine is refused, and the Issue
    behind it is applied. -/
theorem engine_serves : engine.recover.1.ok = false ∧
    (engine.recover.2.apply (request .issue 2)).1.applied = true ∧
    ¬ ∀ (limits : EngineLimits) (journal : Observed FileJournal) (operator : Incarnation)
        (nonce : Digest128) (is : List Invocation),
      ((make limits journal operator nonce).invocations is).recover.1.ok = false →
      ((make limits journal operator nonce).invocations is).recover.2.Shut := by
  obtain ⟨-, -, happlied, hstatus⟩ := evaluated
  refine ⟨engine_refused, happlied, fun hclaim => ?_⟩
  have hshut : engine.recover.2.Shut :=
    hclaim {} storage Fixture.me ⟨5, 5⟩ opened engine_refused
  have hanswer := hshut.apply_refused (request .issue 2)
  rw [hstatus] at hanswer
  exact absurd hanswer (by decide)

end SecondRecovery

end CreditEngine

end CreditFabric
