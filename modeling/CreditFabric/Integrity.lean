import CreditFabric.Determined
import CreditFabric.SnapshotFile
import CreditFabric.Survival

namespace CreditFabric

/-!
# Snapshot integrity

What of a snapshot file is checked when it is loaded: its payload, and its sequence against the
one in the payload.  The chain value in front of and behind the payload is compared with nothing,
and neither are the chain value and the aggregate digest inside the payload.

* `replayRecord_passed` and `replayRecord_moved`: an Attempt or Snapshot record behind the
  snapshot replays over one chain value only, the other records replay over every one.
* `ReplaysTo.passed`, `ReplaysTo.again` and `ReplaysTo.rejoined` are the three runs.
* `snapshot_integrity`: the sequences agree on every file that is accepted; a written file with
  one byte replaced is refused or leads to the same state, exactly if the byte is not one of the
  16 bytes of the chain value or the log continues the chain behind the snapshot.
-/

namespace CreditEngine

variable {J : Type}

/-! ### Another chain value -/

/-- The engine with another chain value, over another journal. -/
def moved (e : CreditEngine J) (chain : Digest128) (journal : J) : CreditEngine J :=
  { e with chain, journal }

/-- The move leaves the accounts alone. -/
@[simp] theorem accounts_moved (e : CreditEngine J) (c : Digest128) (j : J) :
    (e.moved c j).accounts = e.accounts := rfl

/-- The move leaves the limits alone. -/
@[simp] theorem limits_moved (e : CreditEngine J) (c : Digest128) (j : J) :
    (e.moved c j).limits = e.limits := rfl

/-- The restoration of accounts does not look at chain and journal. -/
private theorem restoreAccounts_moved (e : CreditEngine J) (l : List DurableAccount) (c : Digest128)
    (j : J) : (e.moved c j).restoreAccounts l =
      ((e.restoreAccounts l).1, (e.restoreAccounts l).2.moved c j) := by
  induction l generalizing e with
  | nil => rfl
  | cons d rest ih =>
    have hput : ∀ a : AccountState, (e.moved c j).put a.account a = (e.put a.account a).moved c j :=
      fun _ => rfl
    unfold restoreAccounts
    simp only [limits_moved, hput]
    split_ifs
    · rfl
    · rfl
    · exact ih _

/-- Nor does the restoration of a state. -/
theorem restoreDurableState_moved (e : CreditEngine J) (s : DurableState) (c : Digest128)
    (j : J) : (e.moved c j).restoreDurableState s =
      ((e.restoreDurableState s).1, (e.restoreDurableState s).2.moved c j) :=
  restoreAccounts_moved { e with accounts := ∅ } s.accounts c j

/-- Nor does the last step of a replay. -/
theorem finishReplay_moved (e : CreditEngine J) (a : AccountState) (d : DurableAttempt)
    (c : Digest128) (j : J) : (e.moved c j).finishReplay a d =
      ((e.finishReplay a d).1, (e.finishReplay a d).2.moved c j) := by
  unfold finishReplay
  simp only
  split_ifs <;> rfl

/-- Nor does the replay of an Attempt. -/
theorem replayAttempt_moved (e : CreditEngine J) (d : DurableAttempt) (c : Digest128) (j : J) :
    (e.moved c j).replayAttempt d =
      ((e.replayAttempt d).1, (e.replayAttempt d).2.moved c j) := by
  unfold replayAttempt
  cases d.createdAccount with
  | true =>
    simp only [if_true]
    by_cases hknown : e.accounts.contains d.request.authority.account = true
    · have hmoved : (e.moved c j).accounts.contains d.request.authority.account = true := hknown
      rw [if_pos hknown, if_pos hmoved]
    · have hmoved : ¬ (e.moved c j).accounts.contains d.request.authority.account = true := hknown
      rw [if_neg hknown, if_neg hmoved]
      exact finishReplay_moved e _ d c j
  | false =>
    simp only [Bool.false_eq_true, if_false, accounts_moved]
    cases e.accounts[d.request.authority.account]? with
    | none => rfl
    | some a =>
      simp only
      split_ifs
      · rfl
      · exact finishReplay_moved e _ d c j

/-- Nor does a mark. -/
theorem markAmbiguous_moved (e : CreditEngine J) (r : CreditRequest) (seq : UInt64)
    (c : Digest128) (j : J) : (e.moved c j).markAmbiguous r seq =
      (e.markAmbiguous r seq).moved c j ∧ (e.markAmbiguous r seq).chain = e.chain := by
  unfold markAmbiguous
  simp only [accounts_moved, limits_moved]
  cases e.accounts[r.authority.account]? with
  | none => exact ⟨rfl, rfl⟩
  | some a =>
    simp only
    cases a.markAmbiguous e.limits.maxAmbiguousAttempts r seq with
    | none => exact ⟨rfl, rfl⟩
    | some a' => exact ⟨rfl, rfl⟩

/-! ### One record -/

/-- The record takes no part in the chain: the snapshot covers it, or it is an intent. -/
def Passed (snap : Option UInt64) (t : JournalRecord) : Prop :=
  snap.any (t.sequence ≤ ·) = true ∨ t.kind = .intent

section Record

variable {e e' : CreditEngine J} {snap : Option UInt64} {t : JournalRecord} {s : Status}
  {c : Digest128} {j : J}

/-- A record that takes no part in the chain replays over every chain value, and keeps it. -/
theorem replayRecord_passed (hpassed : Passed snap t) (h : e.replayRecord snap t = (s, e')) :
    (e.moved c j).replayRecord snap t = (s, e'.moved c j) ∧ e'.chain = e.chain := by
  unfold replayRecord at h ⊢
  by_cases hskip : snap.any (t.sequence ≤ ·) = true
  · rw [if_pos hskip] at h ⊢
    obtain ⟨rfl, rfl⟩ := Prod.mk.inj h
    exact ⟨rfl, rfl⟩
  rw [if_neg hskip] at h ⊢
  rw [hpassed.resolve_left hskip] at h ⊢
  replace h : e.replayIntent t = (s, e') := h
  show (e.moved c j).replayIntent t = (s, e'.moved c j) ∧ e'.chain = e.chain
  unfold replayIntent at h ⊢
  rw [limits_moved]
  cases hdecode : decodeRequestMessage t.payload e.limits.maxNoteBytes with
  | error s' =>
    rw [hdecode] at h
    obtain ⟨rfl, rfl⟩ := Prod.mk.inj h
    exact ⟨rfl, rfl⟩
  | ok pending =>
    rw [hdecode] at h
    obtain ⟨rfl, rfl⟩ := Prod.mk.inj h
    obtain ⟨hmoved, hchain⟩ := markAmbiguous_moved e pending t.sequence c j
    exact ⟨congrArg (Status.success, ·) hmoved, hchain⟩

/-- A Snapshot record that replays is the chain from then on. -/
theorem replaySnapshot_moved (h : e.replaySnapshot t = (s, e')) (hs : s.ok = true) :
    (e.moved c j).replaySnapshot t = (s, e'.moved t.chain j) := by
  unfold replaySnapshot at h ⊢
  cases hdecode : decodeDurableState t.payload with
  | error s' =>
    rw [hdecode] at h
    obtain ⟨rfl, -⟩ := Prod.mk.inj h
    exact absurd hs (by decide)
  | ok restored =>
    simp only [hdecode, restoreDurableState_moved] at h ⊢
    split_ifs at h ⊢ with hsequence hrestore
    · obtain ⟨rfl, -⟩ := Prod.mk.inj h
      exact absurd hs (by decide)
    · obtain ⟨rfl, -⟩ := Prod.mk.inj h
      rw [hs] at hrestore
      exact absurd hrestore (by decide)
    · obtain ⟨rfl, rfl⟩ := Prod.mk.inj h
      rfl

/-- A decision whose chain value is the expected one replays to the same state. -/
theorem replayAttemptRecord_moved (h : e.replayAttemptRecord t = (s, e')) (hs : s.ok = true)
    (hexpected : ∀ d, decodeDurableAttempt t.payload = .ok d →
      expectedChain c t.sequence d = t.chain) :
    (e.moved c j).replayAttemptRecord t = (s, e'.moved t.chain j) := by
  unfold replayAttemptRecord at h ⊢
  cases hdecode : decodeDurableAttempt t.payload with
  | error s' =>
    rw [hdecode] at h
    obtain ⟨rfl, -⟩ := Prod.mk.inj h
    exact absurd hs (by decide)
  | ok d =>
    have hchain : ¬ expectedChain (e.moved c j).chain t.sequence d ≠ t.chain :=
      not_not.mpr (hexpected d hdecode)
    simp only [hdecode, replayAttempt_moved] at h ⊢
    rw [if_neg hchain]
    by_cases hother : expectedChain e.chain t.sequence d ≠ t.chain
    · rw [if_pos hother] at h
      obtain ⟨rfl, -⟩ := Prod.mk.inj h
      exact absurd (show false = true from hs) (by decide)
    rw [if_neg hother] at h
    split_ifs at h ⊢ with hreplay
    · obtain ⟨rfl, -⟩ := Prod.mk.inj h
      rw [hs] at hreplay
      exact absurd hreplay (by decide)
    · obtain ⟨rfl, rfl⟩ := Prod.mk.inj h
      rfl

/-- The chain value in front of a decision that replays. -/
theorem expectedChain_of_ok (h : (e.replayAttemptRecord t).1.ok = true) (d : DurableAttempt)
    (hdecode : decodeDurableAttempt t.payload = .ok d) :
    expectedChain e.chain t.sequence d = t.chain := by
  by_contra hother
  unfold replayAttemptRecord at h
  rw [hdecode] at h
  simp only at h
  rw [if_pos hother] at h
  exact absurd (show false = true from h) (by decide)

/-- A record that takes part in the chain leaves its own chain value, and the same state over
    every chain value it replays over. -/
theorem replayRecord_moved (hchained : ¬ Passed snap t) (h : e.replayRecord snap t = (s, e'))
    (hs : s.ok = true)
    (hc : c = e.chain ∨ ((e.moved c j).replayRecord snap t).1.ok = true) :
    (e.moved c j).replayRecord snap t = (s, e'.moved t.chain j) ∧ e'.chain = t.chain := by
  obtain ⟨hskip, hkind⟩ := not_or.mp hchained
  have hchain : e'.chain = t.chain := by
    cases replayRecord_inv h hs with
    | skipped hread => exact absurd hread hskip
    | intent _ kind => exact absurd kind hkind
    | snapshot => rfl
    | attempt => rfl
  refine ⟨?_, hchain⟩
  unfold replayRecord at h hc ⊢
  rw [if_neg hskip] at h hc ⊢
  cases hk : t.kind with
  | intent => exact absurd hk hkind
  | unknown =>
    rw [hk] at h
    obtain ⟨rfl, -⟩ := Prod.mk.inj h
    exact absurd hs (by decide)
  | snapshot =>
    rw [hk] at h
    exact replaySnapshot_moved h hs
  | attempt =>
    rw [hk] at h hc
    replace h : e.replayAttemptRecord t = (s, e') := h
    refine replayAttemptRecord_moved h hs fun d hdecode => ?_
    rcases hc with rfl | hok
    · exact expectedChain_of_ok (by rw [h]; exact hs) d hdecode
    · exact expectedChain_of_ok (e := e.moved c j) hok d hdecode

end Record

/-! ### Runs -/

/-- Every record of a replay that succeeds leaves the status Ok. -/
theorem replayRecord_status {e : CreditEngine J} {snap : Option UInt64} {t : JournalRecord}
    (h : (e.replayRecord snap t).1.ok = true) : (e.replayRecord snap t).1 = .success := by
  -- every refusal is excluded, and what is left is plain success
  have hrefused : ∀ {s : Status}, s.ok = false → s.ok = true → s = .success := by
    intro s hfalse htrue
    rw [hfalse] at htrue
    exact absurd htrue (by decide)
  unfold replayRecord at h ⊢
  by_cases hskip : snap.any (t.sequence ≤ ·) = true
  · rw [if_pos hskip]
  rw [if_neg hskip] at h ⊢
  cases hkind : t.kind with
  | unknown =>
    rw [hkind] at h
    exact hrefused rfl h
  | intent =>
    rw [hkind] at h
    show (e.replayIntent t).1 = .success
    replace h : (e.replayIntent t).1.ok = true := h
    unfold replayIntent at h ⊢
    cases hdecode : decodeRequestMessage t.payload e.limits.maxNoteBytes with
    | error s =>
      rw [hdecode] at h
      exact hrefused rfl h
    | ok pending => rfl
  | snapshot =>
    rw [hkind] at h
    show (e.replaySnapshot t).1 = .success
    replace h : (e.replaySnapshot t).1.ok = true := h
    unfold replaySnapshot at h ⊢
    cases hdecode : decodeDurableState t.payload with
    | error s =>
      rw [hdecode] at h
      exact hrefused rfl h
    | ok restored =>
      simp only [hdecode] at h ⊢
      split_ifs at h ⊢ with hsequence hrestore
      · exact hrefused rfl h
      · exact hrefused (by simpa using hrestore) h
      · rfl
  | attempt =>
    rw [hkind] at h
    show (e.replayAttemptRecord t).1 = .success
    replace h : (e.replayAttemptRecord t).1.ok = true := h
    unfold replayAttemptRecord at h ⊢
    cases hdecode : decodeDurableAttempt t.payload with
    | error s =>
      rw [hdecode] at h
      exact hrefused rfl h
    | ok d =>
      simp only [hdecode] at h ⊢
      split_ifs at h ⊢ with hother hreplay
      · exact hrefused rfl h
      · exact hrefused (by simpa using hreplay) h
      · rfl

section Runs

variable {e e' : CreditEngine J} {snap : Option UInt64} {recs : List JournalRecord}

/-- Records that take no part in the chain replay over every chain value. -/
theorem ReplaysTo.passed (h : ReplaysTo snap e recs e') (hall : ∀ t ∈ recs, Passed snap t)
    (c : Digest128) : e'.chain = e.chain ∧
      Replays snap (fun x => ∃ j, x = e.moved c j) recs fun x => ∃ j, x = e'.moved c j := by
  induction h with
  | done e j => exact ⟨rfl, .done fun x hx => hx⟩
  | @next e e₁ e' t rest j s hrecord hs tail ih =>
    obtain ⟨hchain, hrest⟩ := ih fun t' ht' => hall t' (List.mem_cons_of_mem _ ht')
    have hpassed := hall t List.mem_cons_self
    have hsuccess := replayRecord_status (by rw [hrecord]; exact hs)
    rw [hrecord] at hsuccess
    obtain rfl : s = .success := hsuccess
    refine ⟨hchain.trans (replayRecord_passed (c := c) (j := j) hpassed hrecord).2,
      .next (fun x k hx => ?_) (fun x hx => ?_) hrest⟩
    · obtain ⟨j', rfl⟩ := hx
      exact ⟨k, rfl⟩
    · obtain ⟨j', rfl⟩ := hx
      exact ⟨_, (replayRecord_passed (c := c) (j := j') hpassed hrecord).1, j', rfl⟩

/-- A replay over its own chain value happens again over every journal. -/
theorem ReplaysTo.again (h : ReplaysTo snap e recs e') :
    Replays snap (fun x => ∃ j, x = e.moved e.chain j) recs
      fun x => ∃ j, x = e'.moved e'.chain j := by
  induction h with
  | done e j => exact .done fun x hx => hx
  | @next e e₁ e' t rest j s hrecord hs tail ih =>
    have hsuccess := replayRecord_status (by rw [hrecord]; exact hs)
    rw [hrecord] at hsuccess
    obtain rfl : s = .success := hsuccess
    refine .next (fun x k hx => ?_) (fun x hx => ?_) ih
    · obtain ⟨j', rfl⟩ := hx
      exact ⟨k, rfl⟩
    · obtain ⟨j', rfl⟩ := hx
      by_cases hpassed : Passed snap t
      · obtain ⟨hagain, hchain⟩ := replayRecord_passed (c := e.chain) (j := j') hpassed hrecord
        exact ⟨_, hagain, j', by rw [hchain]⟩
      · obtain ⟨hagain, hchain⟩ := replayRecord_moved (j := j') hpassed hrecord hs (.inl rfl)
        exact ⟨_, hagain, j', by rw [hchain]⟩

/-- Two replays of one log over two chain values end alike, if the log takes part in the chain. -/
theorem ReplaysTo.rejoined (h : ReplaysTo snap e recs e') {c : Digest128} {j : J}
    {x : CreditEngine J} (hx : ReplaysTo snap (e.moved c j) recs x)
    (hjoin : c = e.chain ∨ ∃ t ∈ recs, ¬ Passed snap t) : ∃ j', x = e'.moved e'.chain j' := by
  induction h generalizing c j with
  | done e j₁ =>
    have hc : c = e.chain := hjoin.resolve_right fun ⟨t, ht, _⟩ => absurd ht List.not_mem_nil
    subst hc
    cases hx with
    | done _ j₂ => exact ⟨j₂, rfl⟩
  | @next e e₁ e' t rest j₁ s hrecord hs tail ih =>
    cases hx with
    | @next _ x₁ _ _ _ j₂ s' hrecord' hs' tail' =>
      replace hrecord' : ({ e with journal := j₁ }.moved c j₂).replayRecord snap t = (s', x₁) :=
        hrecord'
      by_cases hpassed : Passed snap t
      · obtain ⟨hagain, hchain⟩ := replayRecord_passed (c := c) (j := j₂) hpassed hrecord
        rw [hagain] at hrecord'
        obtain ⟨rfl, rfl⟩ := Prod.mk.inj hrecord'
        refine ih tail' (hjoin.imp (fun hc => hc.trans hchain.symm) ?_)
        rintro ⟨t', ht', hnot⟩
        rcases List.mem_cons.mp ht' with rfl | hrest
        · exact absurd hpassed hnot
        · exact ⟨t', hrest, hnot⟩
      · obtain ⟨hagain, hchain⟩ := replayRecord_moved (c := c) (j := j₂) hpassed hrecord hs
          (.inr (by rw [hrecord']; exact hs'))
        rw [hagain] at hrecord'
        obtain ⟨rfl, rfl⟩ := Prod.mk.inj hrecord'
        exact ih tail' (.inl hchain.symm)

end Runs

/-! ### Loading a snapshot -/

/-- The engines hold the same accounts, chain value and next sequence number. -/
structure SameState (e e' : CreditEngine J) : Prop where
  accounts : e'.accounts = e.accounts
  chain : e'.chain = e.chain
  next : e'.nextJournalSequence = e.nextJournalSequence

/-- What a snapshot load leaves when it succeeds, and the check of the sequence it has passed. -/
theorem loadSnapshot_some {e e₁ : CreditEngine J} {image : SnapshotImage} {s : Status}
    (h : e.loadSnapshot (some image) = (s, e₁)) (hs : s.ok = true) :
    ∃ restored, decodeDurableState image.payload = .ok restored ∧
      restored.journalSequence = image.sequence ∧ e₁.chain = image.chain ∧ s = .success := by
  unfold loadSnapshot at h
  cases hdecode : decodeDurableState image.payload with
  | error s' =>
    simp only [hdecode] at h
    obtain ⟨rfl, -⟩ := Prod.mk.inj h
    exact absurd hs (by decide)
  | ok restored =>
    simp only [hdecode] at h
    split_ifs at h with hsequence hrestore
    · obtain ⟨rfl, -⟩ := Prod.mk.inj h
      exact absurd hs (by decide)
    · obtain ⟨rfl, -⟩ := Prod.mk.inj h
      rw [hs] at hrestore
      exact absurd hrestore (by decide)
    · obtain ⟨rfl, rfl⟩ := Prod.mk.inj h
      exact ⟨restored, rfl, not_not.mp hsequence, rfl, rfl⟩

/-- The chain value of a snapshot, and the chain value and the digest in its payload, decide
    nothing but the chain value of the engine that loads it. -/
theorem loadSnapshot_other {e e₁ : CreditEngine J} {j k : J} {image other : SnapshotImage}
    {restored : DurableState} {s : Status} {chain stateDigest : Digest128}
    (h : { e with journal := j }.reset.loadSnapshot (some image) = (s, e₁)) (hs : s.ok = true)
    (hdecode : decodeDurableState image.payload = .ok restored)
    (hother : decodeDurableState other.payload = .ok { restored with chain, stateDigest })
    (hsequence : other.sequence = image.sequence) :
    { e with journal := k }.reset.loadSnapshot (some other) =
      (.success, e₁.moved other.chain k) := by
  have hreset : { e with journal := k }.reset = { e with journal := j }.reset.moved {} k := rfl
  have hrestore : ({ e with journal := j }.reset.moved {} k).restoreDurableState
      { restored with chain, stateDigest } = _ :=
    restoreDurableState_moved { e with journal := j }.reset restored {} k
  unfold loadSnapshot at h ⊢
  rw [hreset]
  simp only [hdecode, hother, hsequence, hrestore] at h ⊢
  split_ifs at h ⊢ with hmismatch hfailed
  · obtain ⟨rfl, -⟩ := Prod.mk.inj h
    exact absurd hs (by decide)
  · obtain ⟨rfl, -⟩ := Prod.mk.inj h
    rw [hs] at hfailed
    exact absurd hfailed (by decide)
  · obtain ⟨-, rfl⟩ := Prod.mk.inj h
    rfl

/-! ### Recoveries -/

variable [Journal J]

section Recoveries

variable {e : CreditEngine J} {image other : SnapshotImage} {recs : List JournalRecord}
  {j j' k k' : J} {restored : DurableState} {chain stateDigest : Digest128}

/-- A snapshot that is not loaded fails the recovery. -/
theorem recover_unloaded (hyields : Yields e.journal (some image) recs j')
    (h : ∀ (j : J) (s : Status) (e₁ : CreditEngine J),
      { e with journal := j }.reset.loadSnapshot (some image) = (s, e₁) → s.ok = false) :
    e.recover.1.ok = false := by
  cases hok : e.recover.1.ok with
  | false => rfl
  | true =>
    obtain ⟨j, s, e₁, -, hload, hs, -⟩ := recover_inv hyields hok
    rw [h j s e₁ hload] at hs
    exact absurd hs (by decide)

/-- Copies of the chain value and the digest that are not compared change no recovery. -/
theorem recover_uncompared (hyields : Yields e.journal (some image) recs j')
    (hok : e.recover.1.ok = true) (hdecode : decodeDurableState image.payload = .ok restored)
    (hother : decodeDurableState other.payload = .ok { restored with chain, stateDigest })
    (hsequence : other.sequence = image.sequence) (hchain : other.chain = image.chain)
    (hyields' : Yields k (some other) recs k') :
    { e with journal := k }.recover.1 = .success ∧
      SameState e.recover.2 { e with journal := k }.recover.2 := by
  obtain ⟨j, s, e₁, e₂, hload, hs, hreplays, hend⟩ := recover_inv hyields hok
  obtain ⟨-, -, -, hloaded, -⟩ := loadSnapshot_some hload hs
  have hagain := hreplays.again
  rw [hloaded, Option.map_some] at hagain
  have hblind : Blind fun x : CreditEngine J => ∃ j, x = e₁.moved image.chain j := by
    rintro x j ⟨j', rfl⟩
    exact ⟨j, rfl⟩
  have hload' : ∀ j₃ : J, ∃ x, { e with journal := j₃ }.reset.loadSnapshot (some other) =
      (.success, x) ∧ ∃ j, x = e₁.moved image.chain j := fun j₃ =>
    ⟨_, loadSnapshot_other hload hs hdecode hother hsequence, j₃, by rw [hchain]⟩
  rw [← hsequence] at hagain
  obtain ⟨e', hrecover, j₂, rfl⟩ :=
    recover_rule (e := { e with journal := k }) hyields' hagain hblind hload'
  rw [hrecover, hend]
  exact ⟨rfl, rfl, rfl, rfl⟩

/-- Another chain value in front of a log that takes no part in the chain is accepted. -/
theorem recover_rechained (hyields : Yields e.journal (some image) recs j')
    (hok : e.recover.1.ok = true) (hsequence : other.sequence = image.sequence)
    (hpayload : other.payload = image.payload)
    (hall : ∀ t ∈ recs, Passed (some image.sequence) t)
    (hyields' : Yields k (some other) recs k') :
    { e with journal := k }.recover.1 = .success ∧ e.recover.2.chain = image.chain ∧
      { e with journal := k }.recover.2.chain = other.chain := by
  obtain ⟨j, s, e₁, e₂, hload, hs, hreplays, hend⟩ := recover_inv hyields hok
  obtain ⟨restored, hdecode, -, hloaded, -⟩ := loadSnapshot_some hload hs
  have hother : decodeDurableState other.payload =
      .ok { restored with chain := restored.chain, stateDigest := restored.stateDigest } := by
    rw [hpayload]
    exact hdecode
  obtain ⟨hchain, hpassed⟩ := hreplays.passed hall other.chain
  have hblind : Blind fun x : CreditEngine J => ∃ j, x = e₁.moved other.chain j := by
    rintro x j ⟨j', rfl⟩
    exact ⟨j, rfl⟩
  have hload' : ∀ j₃ : J, ∃ x, { e with journal := j₃ }.reset.loadSnapshot (some other) =
      (.success, x) ∧ ∃ j, x = e₁.moved other.chain j := fun j₃ =>
    ⟨_, loadSnapshot_other hload hs hdecode hother hsequence, j₃, rfl⟩
  rw [Option.map_some, ← hsequence] at hpassed
  obtain ⟨e', hrecover, j₂, rfl⟩ :=
    recover_rule (e := { e with journal := k }) hyields' hpassed hblind hload'
  rw [hrecover, hend]
  exact ⟨rfl, hchain.trans hloaded, rfl⟩

/-- A recovery over another chain value that succeeds in front of a log that takes part in the
    chain leads to the same state. -/
theorem recover_rejoined (hyields : Yields e.journal (some image) recs j')
    (hok : e.recover.1.ok = true) (hsequence : other.sequence = image.sequence)
    (hpayload : other.payload = image.payload)
    (hjoin : ∃ t ∈ recs, ¬ Passed (some image.sequence) t)
    (hyields' : Yields k (some other) recs k')
    (hok' : { e with journal := k }.recover.1.ok = true) :
    SameState e.recover.2 { e with journal := k }.recover.2 := by
  obtain ⟨j, s, e₁, e₂, hload, hs, hreplays, hend⟩ := recover_inv hyields hok
  obtain ⟨restored, hdecode, -⟩ := loadSnapshot_some hload hs
  have hother : decodeDurableState other.payload =
      .ok { restored with chain := restored.chain, stateDigest := restored.stateDigest } := by
    rw [hpayload]
    exact hdecode
  obtain ⟨j₃, s', x₁, x₂, hload', hs', hreplays', hend'⟩ :=
    recover_inv (e := { e with journal := k }) hyields' hok'
  rw [loadSnapshot_other hload hs hdecode hother hsequence] at hload'
  obtain ⟨rfl, rfl⟩ := Prod.mk.inj hload'
  rw [Option.map_some, hsequence] at hreplays'
  obtain ⟨j₄, rfl⟩ := hreplays.rejoined hreplays' (.inr hjoin)
  rw [hend, hend']
  exact ⟨rfl, rfl, rfl⟩

end Recoveries

/-! ### Snapshot files -/

/-- The engine over a journal with another snapshot file. -/
def withSnapshotFile (e : CreditEngine FileJournal) (file : List UInt8) :
    CreditEngine FileJournal :=
  { e with journal := e.journal.withSnapshotFile file }

/-- The snapshot file with another chain value and another digest in its payload, whose state is
    `s`. -/
def copiedFile (image : SnapshotImage) (s : DurableState) (chain stateDigest : Digest128) :
    List UInt8 :=
  snapshotBytes { image with payload := encodeDurableState { s with chain, stateDigest } }

section Files

variable {e : CreditEngine FileJournal} {image : SnapshotImage} {recs : List JournalRecord}
  {j' : FileJournal}

/-- A snapshot file that does not pass its checks fails the recovery. -/
theorem recover_unread (hyields : Yields e.journal (some image) recs j') {file : List UInt8}
    {status : Status} (herror : status.ok = false)
    (hparse : FileJournal.parseSnapshot file = .error status) :
    (e.withSnapshotFile file).recover.1.ok = false := by
  obtain ⟨j₁, j₂, -, -, hopen, hread, -⟩ := hyields
  replace hopen : e.journal.open_ = (.success, j₁) := hopen
  have hother : (e.journal.withSnapshotFile file).open_ =
      (.success, j₁.withSnapshotFile file) := by
    rw [FileJournal.open_withSnapshotFile, hopen]
  have hunread : (j₁.withSnapshotFile file).readSnapshot.1.ok = false := by
    have hfile : (j₁.withSnapshotFile file).snapshotFile = some file := rfl
    unfold FileJournal.readSnapshot
    simp only [hfile, hparse]
    split_ifs with hstatus
    · simpa using hstatus
    · exact herror
  unfold recover
  simp only [show Journal.open_ (e.withSnapshotFile file).journal = _ from hother,
    Status.ok_success, Bool.not_true, Bool.false_eq_true, if_false]
  rw [if_pos (by rw [show (Journal.readSnapshot _).1.ok = false from hunread]; rfl)]
  exact hunread

/-- The payload of a snapshot that is read keeps the limit. -/
theorem payload_of_read (hyields : Yields e.journal (some image) recs j') :
    image.payload.length ≤ snapshotPayloadLimit := by
  obtain ⟨j₁, j₂, -, -, -, hread, -⟩ := hyields
  obtain ⟨-, -, bytes, -, hparse⟩ := FileJournal.readSnapshot_inv (j := j₁) hread
  unfold FileJournal.parseSnapshot at hparse
  simp only at hparse
  split_ifs at hparse with h₁ h₂ hlimit hwhole hcrc
  rw [← Except.ok.inj hparse]
  simp only
  rw [not_not.mp hwhole]
  exact Nat.not_lt.mp hlimit

/-- The digests of a state do not change its length. -/
private theorem length_encodeDurableState_other (s : DurableState) (chain stateDigest : Digest128) :
    (encodeDurableState { s with chain, stateDigest }).length = (encodeDurableState s).length := by
  simp [encodeDurableState]

/-- **What a load compares.**  The sequence of an accepted snapshot is the one in its payload.
    The chain value and the digest in the payload can be any. -/
theorem recover_compares (hyields : Yields e.journal (some image) recs j')
    (hok : e.recover.1.ok = true) :
    ∃ s, decodeDurableState image.payload = .ok s ∧ image.sequence = s.journalSequence ∧
      ∀ chain stateDigest,
        (e.withSnapshotFile (copiedFile image s chain stateDigest)).recover.1 = .success ∧
          SameState e.recover.2
            (e.withSnapshotFile (copiedFile image s chain stateDigest)).recover.2 := by
  obtain ⟨j, st, e₁, -, hload, hs, -⟩ := recover_inv hyields hok
  obtain ⟨s, hdecode, hsequence, -⟩ := loadSnapshot_some hload hs
  obtain ⟨hwf, hpayload⟩ := (decodeDurableState_eq_ok _ s).mp hdecode
  refine ⟨s, hdecode, hsequence.symm, fun chain stateDigest => ?_⟩
  let other : SnapshotImage :=
    { image with payload := encodeDurableState { s with chain, stateDigest } }
  have hother : decodeDurableState other.payload = .ok { s with chain, stateDigest } :=
    (decodeDurableState_eq_ok _ _).mpr ⟨⟨hwf.count, hwf.framed⟩, rfl⟩
  have hlimit : other.payload.length ≤ snapshotPayloadLimit := by
    rw [show other.payload.length = _ from length_encodeDurableState_other s chain stateDigest,
      ← hpayload]
    exact payload_of_read hyields
  exact recover_uncompared hyields hok hdecode hother rfl rfl
    (FileJournal.yields_withSnapshotFile _ hyields (FileJournal.parseSnapshot_snapshotBytes hlimit))

/-- **One replaced byte.**  The recovery refuses the file, or the byte belongs to the chain
    value. -/
theorem recover_replaced (hyields : Yields e.journal (some image) recs j')
    (hok : e.recover.1.ok = true) {i : Nat} {byte : UInt8}
    (hi : i < (snapshotBytes image).length)
    (hne : (snapshotBytes image)[i]? ≠ some byte) :
    ¬ FileJournal.ChainByte image i ∧
        (e.withSnapshotFile ((snapshotBytes image).set i byte)).recover.1.ok = false ∨
      FileJournal.ChainByte image i ∧ ∃ chain, chain ≠ image.chain ∧
        Yields (e.journal.withSnapshotFile ((snapshotBytes image).set i byte))
          (some { image with chain }) recs
          (j'.withSnapshotFile ((snapshotBytes image).set i byte)) := by
  obtain ⟨j, st, e₁, -, hload, hs, -⟩ := recover_inv hyields hok
  obtain ⟨s, hdecode, hsequence, -⟩ := loadSnapshot_some hload hs
  have hreading := FileJournal.parseSnapshot_replaced (payload_of_read hyields) hi hne
  generalize (snapshotBytes image).set i byte = file at hreading ⊢
  -- an image whose numbers disagree is not loaded
  have hunloaded : ∀ other : SnapshotImage, FileJournal.parseSnapshot file = .ok other →
      (∀ s', decodeDurableState other.payload = .ok s' → s'.journalSequence ≠ other.sequence) →
      (e.withSnapshotFile file).recover.1.ok = false := by
    intro other hparse hmismatch
    refine recover_unloaded (FileJournal.yields_withSnapshotFile file hyields hparse)
      fun k st' x hload' => ?_
    cases hst : st'.ok with
    | false => rfl
    | true =>
      obtain ⟨s', hdecode', hsequence', -⟩ := loadSnapshot_some hload' hst
      exact absurd hsequence' (hmismatch s' hdecode')
  generalize hparse : FileJournal.parseSnapshot file = parsed at hreading
  -- what the parser makes of the file with the byte replaced
  cases hreading with
  | refused herror hplace => exact .inl ⟨hplace, recover_unread hyields herror hparse⟩
  | misplaced hother hplace =>
    refine .inl ⟨hplace, hunloaded _ hparse fun s' hdecode' hsame => hother ?_⟩
    rw [hdecode, Except.ok.injEq] at hdecode'
    rw [← hdecode', hsequence] at hsame
    exact hsame.symm
  | shortened hwhole hmore hplace =>
    refine .inl ⟨hplace, hunloaded _ hparse fun s' hdecode' _ => hmore ?_⟩
    rw [hwhole] at hdecode
    exact decodeDurableState_append hdecode' hdecode
  | extended hmore hplace =>
    exact .inl ⟨hplace, hunloaded _ hparse fun s' hdecode' _ =>
      hmore (decodeDurableState_append hdecode hdecode')⟩
  | @rechained chain hother hplace =>
    exact .inr ⟨hplace, chain, hother, FileJournal.yields_withSnapshotFile file hyields hparse⟩

/-- The record continues the chain behind the snapshot. -/
theorem not_passed_iff {image : SnapshotImage} {t : JournalRecord} :
    ¬ Passed (some image.sequence) t ↔ ¬ t.sequence ≤ image.sequence ∧ t.kind ≠ .intent := by
  unfold Passed
  rw [not_or, Option.any_some, decide_eq_true_eq]

/-- **Snapshot integrity.**  The two sequences of an accepted snapshot agree, and its other
    redundant copies are compared with nothing.  A written file with one byte replaced is refused
    or leads to the same state, exactly if the byte is not one of the 16 of the chain value, or a
    record behind the snapshot continues the chain. -/
theorem snapshot_integrity {e : CreditEngine FileJournal} {image : SnapshotImage}
    {recs : List JournalRecord} {j' : FileJournal} (hyields : Yields e.journal (some image) recs j')
    (hok : e.recover.1.ok = true) :
    (∃ s, decodeDurableState image.payload = .ok s ∧ image.sequence = s.journalSequence ∧
        ∀ chain stateDigest,
          (e.withSnapshotFile (copiedFile image s chain stateDigest)).recover.1 = .success ∧
            SameState e.recover.2
              (e.withSnapshotFile (copiedFile image s chain stateDigest)).recover.2) ∧
    ∀ (i : Nat) (byte : UInt8), i < (snapshotBytes image).length →
      (snapshotBytes image)[i]? ≠ some byte →
      let e' := e.withSnapshotFile ((snapshotBytes image).set i byte)
      ((e'.recover.1.ok = true → SameState e.recover.2 e'.recover.2) ↔
        (FileJournal.ChainByte image i →
          ∃ t ∈ recs, ¬ t.sequence ≤ image.sequence ∧ t.kind ≠ .intent)) := by
  refine ⟨recover_compares hyields hok, ?_⟩
  intro i byte hi hne e'
  constructor
  -- when every record is passed over, the chain is the image's, changed
  · intro hsame hplace
    by_contra hnone
    have hall : ∀ t ∈ recs, Passed (some image.sequence) t := fun t ht =>
      not_not.mp fun hnot => hnone ⟨t, ht, not_passed_iff.mp hnot⟩
    rcases recover_replaced hyields hok hi hne with ⟨hnot, -⟩ | ⟨-, chain, hother, hyields'⟩
    · exact absurd hplace hnot
    · have hsequence : { image with chain }.sequence = image.sequence := rfl
      obtain ⟨hsuccess, hchain, hchain'⟩ :=
        recover_rechained hyields hok hsequence rfl hall hyields'
      have hstate := (hsame (by rw [show e'.recover.1 = .success from hsuccess]; rfl)).chain
      exact hother (hchain'.symm.trans (hstate.trans hchain))
  -- a record behind the image is checked against the chain
  · intro hjoin hok'
    rcases recover_replaced hyields hok hi hne with ⟨-, hrefused⟩ | ⟨hplace, chain, -, hyields'⟩
    · rw [hrefused] at hok'
      exact absurd hok' (by decide)
    · obtain ⟨t, ht, hchained⟩ := hjoin hplace
      have hsequence : { image with chain }.sequence = image.sequence := rfl
      exact recover_rejoined hyields hok hsequence rfl ⟨t, ht, not_passed_iff.mpr hchained⟩
        hyields' hok'

end Files

end CreditEngine

/-! ### A changed chain byte -/

namespace ChangedChain

/-- A coordinator that has opened an account. -/
def opened : CreditEngine FileJournal :=
  ((CreditEngine.disrupted {} {} Fixture.me ⟨5, 5⟩ []).apply
    (Fixture.request ⟨5, 5⟩ Fixture.me .open_ 1)).2

/-- The snapshot it takes. -/
def image : SnapshotImage where
  sequence := opened.nextJournalSequence
  chain := opened.chain
  payload := encodeDurableState opened.durableState

/-- The engine of the next boot, in front of its recovery. -/
def reader : CreditEngine FileJournal :=
  CreditEngine.make {} opened.snapshot.2.journal.restart Fixture.me ⟨6, 6⟩

/-- The snapshot file with the byte at `i` replaced by its successor. -/
def changed (i : Nat) : List UInt8 :=
  (snapshotBytes image).set i ((snapshotBytes image).getD i 0 + 1)

set_option maxRecDepth 20000 in
/-- The fixture, evaluated once. -/
theorem evaluated :
    (reader.journal.faults = [] ∧ reader.journal.file = some (FileJournal.logBytes []) ∧
      reader.journal.snapshotFile = some (snapshotBytes image) ∧
      image.payload.length ≤ snapshotPayloadLimit ∧ 36 < (snapshotBytes image).length ∧
      (∀ i ∈ [20, 28], (snapshotBytes image)[i]? ≠
        some ((snapshotBytes image).getD i 0 + 1)) ∧
      image.payload.length ≠ 0) ∧
    reader.recover.1 = .success ∧
    (reader.withSnapshotFile (changed 20)).recover.1 = .success ∧
    (reader.withSnapshotFile (changed 20)).recover.2.chain ≠ reader.recover.2.chain := by
  decide +kernel

/-- The reader finds the snapshot and no records. -/
theorem reader_yields : Yields reader.journal (some image) [] reader.journal.replayed := by
  obtain ⟨⟨hfaults, hfile, hsnapshot, hlimit, -⟩, -⟩ := evaluated
  refine FileJournal.yields_intact hfaults hfile ⟨hsnapshot, fun s hs => ?_⟩ ?_
  · obtain rfl := Option.some.inj hs
    exact hlimit
  · exact fun t ht => absurd ht List.not_mem_nil

/-- A snapshot file with a byte of the chain value replaced is accepted, with another chain
    value. -/
theorem changedChain_accepted :
    Yields reader.journal (some image) [] reader.journal.replayed ∧
      reader.recover.1.ok = true ∧ 20 < (snapshotBytes image).length ∧
      (snapshotBytes image)[20]? ≠ some ((snapshotBytes image).getD 20 0 + 1) ∧
      ¬ ((reader.withSnapshotFile (changed 20)).recover.1.ok = true →
        CreditEngine.SameState reader.recover.2
          (reader.withSnapshotFile (changed 20)).recover.2) := by
  obtain ⟨⟨-, -, -, -, hlength, hbytes, -⟩, hok, hchanged, hchain⟩ := evaluated
  refine ⟨reader_yields, by rw [hok]; rfl, by omega, hbytes 20 (by decide), fun h => ?_⟩
  exact hchain (h (by rw [hchanged]; rfl)).chain

/-- The sequence is compared, and a byte of the payload is checked. -/
theorem changedPayload_checked :
    (∃ s, decodeDurableState image.payload = .ok s ∧ image.sequence = s.journalSequence) ∧
      ((reader.withSnapshotFile (changed 28)).recover.1.ok = true →
        CreditEngine.SameState reader.recover.2
          (reader.withSnapshotFile (changed 28)).recover.2) := by
  obtain ⟨⟨-, -, -, -, hlength, hbytes, hpayload⟩, hsuccess, -⟩ := evaluated
  have hok : reader.recover.1.ok = true := by
    rw [hsuccess]
    rfl
  constructor
  · obtain ⟨s, hdecode, hsequence, -⟩ :=
      (CreditEngine.snapshot_integrity reader_yields hok).1
    exact ⟨s, hdecode, hsequence⟩
  · refine ((CreditEngine.snapshot_integrity reader_yields hok).2 28 _ (by omega)
      (hbytes 28 (by decide))).mpr fun hplace => ?_
    unfold FileJournal.ChainByte at hplace
    omega

end ChangedChain

end CreditFabric
