import CreditFabric.Recovery

namespace CreditFabric

open Std (ExtTreeMap)

/-!
# The replay loop

Replaying a record touches neither the journal nor the configuration of the engine
(`replayRecord_untouched`).  So the loop over `next_record` can be reasoned about record by
record: `Replays P recs Q` are pre- and postconditions of a list of records, the loop satisfies
them (`replayLoop_rule`), and so does a whole recovery (`recover_rule`).
-/

namespace CreditEngine

variable {J : Type}

/-- What a replayed record never changes: the journal, the configuration of the engine and its
    two flags. -/
structure Untouched (e e' : CreditEngine J) : Prop where
  journal : e'.journal = e.journal
  limits : e'.limits = e.limits
  operatorIncarnation : e'.operatorIncarnation = e.operatorIncarnation
  challenge : e'.challenge = e.challenge
  recovered : e'.recovered = e.recovered
  journalFailed : e'.journalFailed = e.journalFailed

/-- Nothing has been touched. -/
theorem Untouched.refl (e : CreditEngine J) : Untouched e e := ⟨rfl, rfl, rfl, rfl, rfl, rfl⟩

/-- One function and then another. -/
theorem Untouched.trans {e e₁ e₂ : CreditEngine J} (h : Untouched e e₁) (h' : Untouched e₁ e₂) :
    Untouched e e₂ :=
  ⟨h'.journal.trans h.journal, h'.limits.trans h.limits,
    h'.operatorIncarnation.trans h.operatorIncarnation, h'.challenge.trans h.challenge,
    h'.recovered.trans h.recovered, h'.journalFailed.trans h.journalFailed⟩

/-- To store an account touches the accounts only. -/
theorem put_untouched (e : CreditEngine J) (key : UInt64) (a : AccountState) :
    Untouched e (e.put key a) := ⟨rfl, rfl, rfl, rfl, rfl, rfl⟩

/-- Restored accounts are accounts only. -/
private theorem restoreAccounts_untouched (e : CreditEngine J) (l : List DurableAccount) :
    Untouched e (e.restoreAccounts l).2 := by
  induction l generalizing e with
  | nil => exact .refl e
  | cons d rest ih =>
    unfold restoreAccounts
    simp only
    split_ifs
    · exact .refl e
    · exact .refl e
    · exact (put_untouched e _ _).trans (ih _)

/-- So is a restored state. -/
theorem restoreDurableState_untouched (e : CreditEngine J) (s : DurableState) :
    Untouched e (e.restoreDurableState s).2 := by
  have hcleared : Untouched e { e with accounts := ∅ } := ⟨rfl, rfl, rfl, rfl, rfl, rfl⟩
  exact hcleared.trans (restoreAccounts_untouched _ s.accounts)

/-- So is the last step of a replay. -/
theorem finishReplay_untouched (e : CreditEngine J) (a : AccountState) (d : DurableAttempt) :
    Untouched e (e.finishReplay a d).2 := by
  unfold finishReplay
  simp only
  split_ifs <;> exact ⟨rfl, rfl, rfl, rfl, rfl, rfl⟩

/-- So is a replayed Attempt. -/
theorem replayAttempt_untouched (e : CreditEngine J) (d : DurableAttempt) :
    Untouched e (e.replayAttempt d).2 := by
  unfold replayAttempt
  simp only
  split_ifs
  · exact .refl e
  · exact finishReplay_untouched e _ d
  · cases e.accounts[d.request.authority.account]? with
    | none => exact .refl e
    | some a =>
      simp only
      split_ifs
      · exact put_untouched e _ _
      · exact finishReplay_untouched e _ d

/-- So is a mark. -/
theorem markAmbiguous_untouched (e : CreditEngine J) (r : CreditRequest) (seq : UInt64) :
    Untouched e (e.markAmbiguous r seq) := by
  unfold markAmbiguous
  cases e.accounts[r.authority.account]? with
  | none => exact .refl e
  | some a =>
    simp only
    cases a.markAmbiguous e.limits.maxAmbiguousAttempts r seq with
    | none => exact .refl e
    | some a' => exact ⟨rfl, rfl, rfl, rfl, rfl, rfl⟩

/-- So is a replayed Intent. -/
theorem replayIntent_untouched (e : CreditEngine J) (t : JournalRecord) :
    Untouched e (e.replayIntent t).2 := by
  unfold replayIntent
  cases decodeRequestMessage t.payload e.limits.maxNoteBytes with
  | error s => exact .refl e
  | ok pending => exact markAmbiguous_untouched e pending t.sequence

/-- A replayed Snapshot record moves the chain. -/
theorem replaySnapshot_untouched (e : CreditEngine J) (t : JournalRecord) :
    Untouched e (e.replaySnapshot t).2 := by
  unfold replaySnapshot
  cases decodeDurableState t.payload with
  | error s => exact .refl e
  | ok restored =>
    have hrestore := restoreDurableState_untouched e restored
    simp only
    split_ifs
    · exact .refl e
    · exact hrestore
    · exact hrestore.trans ⟨rfl, rfl, rfl, rfl, rfl, rfl⟩

/-- So does a replayed Attempt record. -/
private theorem replayAttemptRecord_untouched (e : CreditEngine J) (t : JournalRecord) :
    Untouched e (e.replayAttemptRecord t).2 := by
  unfold replayAttemptRecord
  cases decodeDurableAttempt t.payload with
  | error s => exact .refl e
  | ok d =>
    have hreplay := replayAttempt_untouched e d
    simp only
    split_ifs
    · exact .refl e
    · exact hreplay
    · exact hreplay.trans ⟨rfl, rfl, rfl, rfl, rfl, rfl⟩

/-- No replayed record touches the journal. -/
theorem replayRecord_untouched (e : CreditEngine J) (snap : Option UInt64) (t : JournalRecord) :
    Untouched e (e.replayRecord snap t).2 := by
  unfold replayRecord
  split_ifs
  · exact .refl e
  · cases t.kind with
    | unknown => exact .refl e
    | attempt => exact replayAttemptRecord_untouched e t
    | snapshot => exact replaySnapshot_untouched e t
    | intent => exact replayIntent_untouched e t

/-- Nor does a snapshot that is loaded. -/
theorem loadSnapshot_untouched (e : CreditEngine J) (image : Option SnapshotImage) :
    Untouched e (e.loadSnapshot image).2 := by
  unfold loadSnapshot
  cases image with
  | none => exact .refl e
  | some image =>
    simp only
    cases decodeDurableState image.payload with
    | error s => exact .refl e
    | ok restored =>
      have hrestore := restoreDurableState_untouched e restored
      simp only
      split_ifs
      · exact .refl e
      · exact hrestore
      · exact hrestore.trans ⟨rfl, rfl, rfl, rfl, rfl, rfl⟩

/-! ### The loop -/

variable [Journal J]

/-- A replay returns at most as many records as the journal says are left. -/
theorem length_le_of_reads {j j' : J} {recs : List JournalRecord} (h : Reads j recs j') :
    recs.length ≤ Journal.remaining j := by
  induction h with
  | done h => exact Nat.zero_le _
  | @next j j₁ j' t recs h rest ih =>
    have hlt := Journal.remaining_nextRecord j t (by rw [h])
    rw [h] at hlt
    rw [List.length_cons]
    exact Nat.lt_of_le_of_lt ih hlt

/-! ### Pre- and postconditions of a replay -/

/-- An assertion about the engine that does not look at the journal. -/
def Blind (P : CreditEngine J → Prop) : Prop := ∀ e j, P e → P { e with journal := j }

/-- From every engine with `P` the records replay one after the other without a failure, and
    `Q` holds behind the last one.  The assertions between two records are blind, because the
    loop reads the next record there. -/
inductive Replays (snap : Option UInt64) :
    (CreditEngine J → Prop) → List JournalRecord → (CreditEngine J → Prop) → Prop
  | done {P Q : CreditEngine J → Prop} (h : ∀ e, P e → Q e) : Replays snap P [] Q
  | next {P R Q : CreditEngine J → Prop} {t : JournalRecord} {rest : List JournalRecord}
      (blind : Blind R)
      (h : ∀ e, P e → ∃ e', e.replayRecord snap t = (.success, e') ∧ R e')
      (tail : Replays snap R rest Q) : Replays snap P (t :: rest) Q

section Rules

variable {snap : Option UInt64} {P Q R : CreditEngine J → Prop} {recs more : List JournalRecord}

omit [Journal J] in
/-- Sequencing. -/
theorem Replays.append (h : Replays snap P recs R) (h' : Replays snap R more Q) :
    Replays snap P (recs ++ more) Q := by
  induction h with
  | done h =>
    cases h' with
    | done h₁ => exact .done fun e he => h₁ e (h e he)
    | next blind h₁ tail => exact .next blind (fun e he => h₁ e (h e he)) tail
  | next blind h tail ih => exact .next blind h (ih h')

omit [Journal J] in
/-- One record. -/
theorem Replays.one {t : JournalRecord} (blind : Blind Q)
    (h : ∀ e, P e → ∃ e', e.replayRecord snap t = (.success, e') ∧ Q e') :
    Replays snap P [t] Q :=
  .next blind h (.done fun _ hQ => hQ)

/-- **Loop rule.** -/
theorem replayLoop_rule (hrun : Replays snap P recs Q) {j j' : J} (hreads : Reads j recs j')
    {e : CreditEngine J} (hj : e.journal = j) (hP : P e) (blind : Blind P) (fuel : Nat)
    (hfuel : recs.length < fuel) :
    ∃ e', replayLoop snap fuel e = (.success, { e' with journal := j' }) ∧ Q e' := by
  induction hreads generalizing e fuel P with
  | @done j j' h =>
    obtain ⟨fuel, rfl⟩ : ∃ n, fuel = n + 1 := ⟨fuel - 1, by omega⟩
    cases hrun with
    | done hQ =>
      refine ⟨e, ?_, hQ e hP⟩
      unfold replayLoop
      rw [hj, h]
      rfl
  | @next j j₁ j' t recs h rest ih =>
    obtain ⟨fuel, rfl⟩ : ∃ n, fuel = n + 1 := ⟨fuel - 1, by omega⟩
    cases hrun with
    | next blind₁ hstep tail =>
      obtain ⟨e₁, hreplay, h₁⟩ := hstep { e with journal := j₁ } (blind e j₁ hP)
      have hframe := replayRecord_untouched { e with journal := j₁ } snap t
      rw [hreplay] at hframe
      obtain ⟨e', hloop, hQ⟩ := ih tail hframe.journal h₁ blind₁ fuel
        (by rw [List.length_cons] at hfuel; omega)
      refine ⟨e', ?_, hQ⟩
      unfold replayLoop
      rw [hj, h]
      simp only [Status.ok_success, Bool.not_true, Bool.false_eq_true, if_false, hreplay]
      exact hloop

/-- **Recovery rule.**  A recovery of a journal that yields `recs` behind the image `image`
    succeeds with the postcondition, if loading the image establishes the precondition. -/
theorem recover_rule {e : CreditEngine J} {image : Option SnapshotImage} {j' : J}
    (hyields : Yields e.journal image recs j')
    (hrun : Replays (image.map SnapshotImage.sequence) P recs Q) (blind : Blind P)
    (hload : ∀ j, ∃ e₁, { e with journal := j }.reset.loadSnapshot image = (.success, e₁) ∧
      P e₁) :
    ∃ e', e.recover = (.success, { e' with journal := j' }.finishRecovery) ∧ Q e' := by
  obtain ⟨j₁, j₂, j₃, j₄, hopen, hread, hbegin, hreads, hend⟩ := hyields
  obtain ⟨e₁, hload, h₁⟩ := hload j₂
  have hframe := loadSnapshot_untouched { e with journal := j₂ }.reset image
  rw [hload] at hframe
  have hj₂ : e₁.journal = j₂ := hframe.journal
  have hlen := length_le_of_reads hreads
  obtain ⟨e₂, hloop, h₂⟩ := replayLoop_rule hrun hreads (e := { e₁ with journal := j₃ }) rfl
    (blind _ _ h₁) blind (Journal.remaining j₃ + 1) (by omega)
  refine ⟨e₂, ?_, h₂⟩
  unfold recover
  simp only [hopen, hread, hload, hj₂, hbegin, hloop, hend, Status.ok_success, Bool.not_true,
    Bool.false_eq_true, if_false]

/-- The recovery of an empty journal. -/
theorem recover_of_empty {e : CreditEngine J} {j' : J} (h : Yields e.journal none [] j') :
    ∃ e', e.recover = (.success, e') ∧ e'.accounts = ∅ ∧ e'.chain = {} ∧
      e'.limits = e.limits ∧ e'.journalFailed = e.journalFailed ∧ e'.journal = j' := by
  obtain ⟨e', heq, haccounts, hchain, hlimits, hfailed⟩ := recover_rule
    (P := fun e' => e'.accounts = ∅ ∧ e'.chain = {} ∧ e'.limits = e.limits ∧
      e'.journalFailed = e.journalFailed)
    h (.done fun _ h => h) (fun _ _ h => h) fun j => ⟨_, rfl, rfl, rfl, rfl, rfl⟩
  refine ⟨_, heq, ?_, hchain, hlimits, hfailed, rfl⟩
  show e'.accounts.map _ = ∅
  rw [haccounts]
  refine ExtTreeMap.ext_getElem? fun key => ?_
  simp

end Rules

end CreditEngine

end CreditFabric
