import CreditFabric.Disk
import CreditFabric.ReplayStep

namespace CreditFabric

open Std (ExtTreeMap)

/-!
# What a disk determines

`RecordReplay` lists what the replay of one record can do when it succeeds.  The limits of the
recovering engine decide only what its windows and its ambiguous notes hold: two recoveries of
one disk are `Alike` (`Recovers.alike`).
-/

namespace CreditEngine

variable {J : Type}

/-! ### Replays that succeed -/

/-- A replayed decision that passed the comparison, and the accounts behind it. -/
structure AttemptReplay (e : CreditEngine J) (d : DurableAttempt) (x : AccountState)
    (e' : CreditEngine J) : Prop where
  verified : (verifyReplay x d.account).ok = true
  decision : d.createdAccount = true ∧ e.accounts[d.request.authority.account]? = none ∧
      x = replayedOpen e.limits d ∨
    d.createdAccount = false ∧ ∃ p s, e.accounts[d.request.authority.account]? = some p ∧
      replayDecision p d = (s, x) ∧ s.ok = true
  accounts : e'.accounts = e.accounts.insert d.request.authority.account
    (if d.outcome.decided then x.publishWindow d.request (recordedOutcome x d) else x)

/-- A replay whose last step succeeds has verified its account and stored it. -/
theorem finishReplay_inv {e e' : CreditEngine J} {x : AccountState} {d : DurableAttempt}
    {s : Status} (h : e.finishReplay x d = (s, e')) (hs : s.ok = true) :
    (verifyReplay x d.account).ok = true ∧
      e'.accounts = e.accounts.insert d.request.authority.account
        (if d.outcome.decided then x.publishWindow d.request (recordedOutcome x d) else x) := by
  unfold finishReplay at h
  cases hverify : (verifyReplay x d.account).ok with
  | false =>
    simp only [hverify, Bool.not_false, if_true] at h
    rw [← show _ = s from congrArg Prod.fst h, hverify] at hs
    exact absurd hs (by decide)
  | true =>
    simp only [hverify, Bool.not_true, Bool.false_eq_true, if_false] at h
    refine ⟨rfl, ?_⟩
    rw [← show _ = e' from congrArg Prod.snd h]
    cases hdecided : d.outcome.decided with
    | false => rfl
    | true => exact Lib.insert_insert_self _ _ _ _

/-- A replayed Attempt that succeeds is one of the replays. -/
theorem replayAttempt_inv {e e' : CreditEngine J} {d : DurableAttempt} {s : Status}
    (h : e.replayAttempt d = (s, e')) (hs : s.ok = true) : ∃ x, AttemptReplay e d x e' := by
  unfold replayAttempt at h
  -- an account created by the attempt, or one that was there
  cases hcreated : d.createdAccount with
  | true =>
    simp only [hcreated, if_true] at h
    split_ifs at h with hknown
    · have hstatus : Status.refused .journalCorrupt 130 = s := congrArg Prod.fst h
      rw [← hstatus] at hs
      exact absurd hs (by decide)
    · obtain ⟨hverify, haccounts⟩ := finishReplay_inv h hs
      rw [ExtTreeMap.contains_eq_isSome_getElem?, Bool.not_eq_true, Option.isSome_eq_false_iff,
        Option.isNone_iff_eq_none] at hknown
      exact ⟨_, hverify, .inl ⟨hcreated, hknown, rfl⟩, haccounts⟩
  | false =>
    simp only [hcreated, Bool.false_eq_true, if_false] at h
    cases hfound : e.accounts[d.request.authority.account]? with
    | none =>
      rw [hfound] at h
      have hstatus : Status.refused .journalCorrupt 131 = s := congrArg Prod.fst h
      rw [← hstatus] at hs
      exact absurd hs (by decide)
    | some p =>
      rw [hfound] at h
      cases hdecision : replayDecision p d with
      | mk s₁ x =>
        simp only [hdecision] at h
        cases hs₁ : s₁.ok with
        | false =>
          simp only [hs₁, Bool.not_false, if_true] at h
          rw [← show s₁ = s from congrArg Prod.fst h, hs₁] at hs
          exact absurd hs (by decide)
        | true =>
          simp only [hs₁, Bool.not_true, Bool.false_eq_true, if_false] at h
          obtain ⟨hverify, haccounts⟩ := finishReplay_inv h hs
          exact ⟨x, hverify, .inr ⟨hcreated, p, s₁, hfound, hdecision, hs₁⟩, haccounts⟩

/-- The accounts a list of account images restores, over the ones that are there. -/
def restoredFrom (limits : EngineLimits) (accounts : ExtTreeMap UInt64 AccountState)
    (l : List DurableAccount) : ExtTreeMap UInt64 AccountState :=
  l.foldl (fun m d => m.insert d.config.account (restoreAccount limits d)) accounts

/-- Accounts whose restoration succeeds are determined by their images. -/
theorem restoreAccounts_inv {e e' : CreditEngine J} {l : List DurableAccount} {s : Status}
    (h : e.restoreAccounts l = (s, e')) (hs : s.ok = true) :
    e' = { e with accounts := restoredFrom e.limits e.accounts l } := by
  induction l generalizing e with
  | nil => exact (congrArg Prod.snd h).symm
  | cons d rest ih =>
    unfold restoreAccounts at h
    simp only at h
    split_ifs at h with hclosed hdigest
    · have hstatus : Status.refused .journalCorrupt 120 = s := congrArg Prod.fst h
      rw [← hstatus] at hs
      exact absurd hs (by decide)
    · have hstatus : Status.refused .journalDigestMismatch 121 = s := congrArg Prod.fst h
      rw [← hstatus] at hs
      exact absurd hs (by decide)
    · rw [ih h]
      rfl

/-- What the replay of a record leaves when it succeeds. -/
inductive RecordReplay (e : CreditEngine J) (snap : Option UInt64) (t : JournalRecord) :
    CreditEngine J → Prop
  | skipped (h : snap.any (t.sequence ≤ ·) = true) : RecordReplay e snap t e
  | intent (h : snap.any (t.sequence ≤ ·) = false) (kind : t.kind = .intent)
      (pending : CreditRequest) : RecordReplay e snap t (e.markAmbiguous pending t.sequence)
  | snapshot (h : snap.any (t.sequence ≤ ·) = false) (kind : t.kind = .snapshot)
      (restored : DurableState) (decoded : decodeDurableState t.payload = .ok restored)
      (stats : EngineStats) : RecordReplay e snap t { e with
        accounts := restoredFrom e.limits ∅ restored.accounts, snapshots := restored.snapshots,
        chain := t.chain, nextJournalSequence := t.sequence + 1, stats }
  | attempt (h : snap.any (t.sequence ≤ ·) = false) (kind : t.kind = .attempt)
      (d : DurableAttempt) (decoded : decodeDurableAttempt t.payload = .ok d)
      (chained : expectedChain e.chain t.sequence d = t.chain) (x : AccountState)
      (e₁ : CreditEngine J) (replay : AttemptReplay e d x e₁) (journalRecords : Nat)
      (stats : EngineStats) : RecordReplay e snap t { e₁ with
        chain := t.chain, nextJournalSequence := t.sequence + 1, journalRecords, stats }

/-- **Inversion of a replayed record.** -/
theorem replayRecord_inv {e e' : CreditEngine J} {snap : Option UInt64} {t : JournalRecord}
    {s : Status} (h : e.replayRecord snap t = (s, e')) (hs : s.ok = true) :
    RecordReplay e snap t e' := by
  -- every branch that refuses is excluded by the status
  have hfailed : ∀ {s' : Status}, s' = s → s'.ok = false → False := by
    rintro s' rfl hfalse
    rw [hs] at hfalse
    exact absurd hfalse (by decide)
  unfold replayRecord at h
  cases hskip : snap.any (t.sequence ≤ ·) with
  | true =>
    rw [if_pos hskip] at h
    obtain rfl := congrArg Prod.snd h
    exact .skipped hskip
  | false =>
  rw [if_neg (by rw [hskip]; decide)] at h
  cases hkind : t.kind with
  | unknown =>
    rw [hkind] at h
    exact (hfailed (congrArg Prod.fst h) rfl).elim
  | intent =>
    simp only [hkind, replayIntent] at h
    cases hdecode : decodeRequestMessage t.payload e.limits.maxNoteBytes with
    | error s' =>
      rw [hdecode] at h
      exact (hfailed (congrArg Prod.fst h) rfl).elim
    | ok pending =>
      rw [hdecode] at h
      obtain rfl := congrArg Prod.snd h
      exact .intent hskip hkind pending
  | snapshot =>
    simp only [hkind, replaySnapshot] at h
    cases hdecode : decodeDurableState t.payload with
    | error s' =>
      rw [hdecode] at h
      exact (hfailed (congrArg Prod.fst h) rfl).elim
    | ok restored =>
      simp only [hdecode] at h
      split_ifs at h with hsequence hrestore
      · exact (hfailed (congrArg Prod.fst h) rfl).elim
      · exact (hfailed (congrArg Prod.fst h) (by simpa using hrestore)).elim
      -- the accounts of the record replace those in front of it
      · have hrestored := restoreAccounts_inv (e := { e with accounts := ∅ }) rfl
          (by simpa [restoreDurableState] using hrestore)
        obtain rfl := congrArg Prod.snd h
        rw [show (e.restoreDurableState restored).2 = _ from hrestored]
        exact .snapshot hskip hkind restored hdecode _
  | attempt =>
    simp only [hkind, replayAttemptRecord] at h
    cases hdecode : decodeDurableAttempt t.payload with
    | error s' =>
      rw [hdecode] at h
      exact (hfailed (congrArg Prod.fst h) rfl).elim
    | ok d =>
      simp only [hdecode] at h
      split_ifs at h with hchain hreplay
      · exact (hfailed (congrArg Prod.fst h) rfl).elim
      · exact (hfailed (congrArg Prod.fst h) (by simpa using hreplay)).elim
      -- the attempt is chained, and its replay was Ok
      · have hpair : e.replayAttempt d = ((e.replayAttempt d).1, (e.replayAttempt d).2) := rfl
        obtain ⟨x, hinv⟩ := replayAttempt_inv hpair (by simpa using hreplay)
        obtain rfl := congrArg Prod.snd h
        exact .attempt hskip hkind d hdecode (not_not.mp hchain) x _ hinv _ _

end CreditEngine

/-! ### What the limits do not decide -/

/-- The account without what the limits of the recovering engine decide. -/
def AccountState.essentials (a : AccountState) : AccountState :=
  { a with window := .make 0, ambiguous := [] }

/-- A branch commutes with dropping what the limits decide. -/
theorem essentials_ite {c c' : Prop} [Decidable c] [Decidable c'] (h : c ↔ c')
    {x y x' y' : Status × AccountState} (hx : x' = Prod.map id AccountState.essentials x)
    (hy : y' = Prod.map id AccountState.essentials y) :
    (if c then x' else y') = Prod.map id AccountState.essentials (if c' then x else y) := by
  by_cases hc : c
  · rw [if_pos hc, if_pos (h.mp hc), hx]
  · rw [if_neg hc, if_neg fun hc' => hc (h.mpr hc'), hy]

/-- The replay of a transition looks at the essentials only. -/
theorem applyReplayTransition_essentials (a : AccountState) (r : CreditRequest) :
    applyReplayTransition a.essentials r =
      Prod.map id AccountState.essentials (applyReplayTransition a r) := by
  have hledger : ledgerApply (.start a.essentials.capacity a.essentials.totals) a.essentials r =
      ledgerApply (.start a.capacity a.totals) a r := ledgerApply_congr rfl _ _
  unfold applyReplayTransition
  cases r.op with
  | issue | consume | return_ | protect | unprotect =>
    simp only [hledger]
    exact essentials_ite Iff.rfl rfl rfl
  | setCapacity | advanceEpoch | rotate | retire | revalidate =>
    simp only [AccountState.essentials]
    exact essentials_ite Iff.rfl rfl rfl
  | _ => rfl

/-- The replay of the records looks at the essentials only. -/
theorem replayRecords_essentials (a : AccountState) (r : CreditRequest) :
    replayRecords a.essentials r = Prod.map id AccountState.essentials (replayRecords a r) := by
  unfold replayRecords
  cases r.op with
  | retireIncarnation =>
    simp only [AccountState.findIncarnation, AccountState.essentials]
    cases a.incarnations[r.target]? <;> rfl
  | issue =>
    simp only [AccountState.findIncarnation, AccountState.essentials]
    cases a.incarnations[r.authority.incarnation]? <;> rfl
  | _ => rfl

/-- So does the update of a record. -/
theorem updateIncarnation_essentials (a : AccountState) (id : IncarnationId)
    (f : IncarnationRecord → IncarnationRecord) :
    a.essentials.updateIncarnation id f = (a.updateIncarnation id f).essentials := by
  unfold AccountState.updateIncarnation AccountState.essentials
  cases a.incarnations[id]? <;> rfl

/-- So does the replay of a decision. -/
theorem replayDecision_essentials (a : AccountState) (d : DurableAttempt) :
    replayDecision a.essentials d =
      Prod.map id AccountState.essentials (replayDecision a d) := by
  have hcommitted : ∀ x : AccountState, countCommitted x.essentials d.request.authority.incarnation =
      (countCommitted x d.request.authority.incarnation).essentials :=
    fun x => updateIncarnation_essentials { x with committedAttempts := x.committedAttempts + 1 } _ _
  have hrefused : countRefused a.essentials d.request.authority.incarnation =
      (countRefused a d.request.authority.incarnation).essentials :=
    updateIncarnation_essentials { a with refusedAttempts := a.refusedAttempts + 1 } _ _
  unfold replayDecision
  simp only [applyReplayTransition_essentials, Prod.map_fst, Prod.map_snd, id,
    replayRecords_essentials, hcommitted, hrefused]
  split_ifs <;> rfl

/-- Publishing writes the window and the notes, and moves the caller's watermark. -/
theorem publishWindow_essentials (a : AccountState) (r : CreditRequest) (o : CreditOutcome) :
    (a.publishWindow r o).essentials = a.essentials.updateIncarnation r.authority.incarnation
      fun record => { record with lastSequence := r.sequence } := by
  rw [updateIncarnation_essentials]
  unfold AccountState.publishWindow AccountState.resolveAmbiguous AccountState.updateIncarnation
  simp only
  cases a.incarnations[r.authority.incarnation]? <;> rfl

/-- The accounts are the same but for what the limits decide. -/
def Agree (m m' : ExtTreeMap UInt64 AccountState) : Prop :=
  ∀ key : UInt64, (m[key]?).map AccountState.essentials = (m'[key]?).map AccountState.essentials

/-- Accounts with the same essentials put into maps that agree. -/
theorem Agree.insert {m m' : ExtTreeMap UInt64 AccountState} (h : Agree m m') (key : UInt64)
    {a a' : AccountState} (ha : a.essentials = a'.essentials) :
    Agree (m.insert key a) (m'.insert key a') := by
  intro key'
  by_cases hkey : key' = key
  · rw [hkey, ExtTreeMap.getElem?_insert_self, ExtTreeMap.getElem?_insert_self, Option.map_some,
      Option.map_some, ha]
  · rw [Lib.getElem?_insert_of_ne _ _ hkey, Lib.getElem?_insert_of_ne _ _ hkey, h key']

/-- The same key has an account in both, or in neither. -/
theorem Agree.found {m m' : ExtTreeMap UInt64 AccountState} (h : Agree m m') {key : UInt64}
    {a : AccountState} (ha : m[key]? = some a) :
    ∃ a' : AccountState, m'[key]? = some a' ∧ a.essentials = a'.essentials := by
  have hkey := h key
  rw [ha, Option.map_some] at hkey
  obtain ⟨a', ha', heq⟩ := Option.map_eq_some_iff.mp hkey.symm
  exact ⟨a', ha', heq.symm⟩

namespace CreditEngine

variable {J : Type}

/-- Images restored into maps that agree. -/
theorem restoredFrom_agree (limits limits' : EngineLimits) (l : List DurableAccount)
    {m m' : ExtTreeMap UInt64 AccountState} (h : Agree m m') :
    Agree (restoredFrom limits m l) (restoredFrom limits' m' l) := by
  induction l generalizing m m' with
  | nil => exact h
  | cons d rest ih => exact ih (h.insert d.config.account rfl)

/-- A mark is not essential. -/
theorem markAmbiguous_agree (e : CreditEngine J) (r : CreditRequest) (seq : UInt64) :
    Agree (e.markAmbiguous r seq).accounts e.accounts := by
  unfold markAmbiguous
  cases hfound : e.accounts[r.authority.account]? with
  | none => exact fun key => rfl
  | some a =>
    simp only
    cases hmarked : a.markAmbiguous e.limits.maxAmbiguousAttempts r seq with
    | none => exact fun key => rfl
    | some a' =>
      have hsame : a'.essentials = a.essentials := by
        unfold AccountState.markAmbiguous at hmarked
        split_ifs at hmarked <;> rw [← Option.some.inj hmarked] <;> rfl
      intro key
      show ((e.accounts.insert r.authority.account a')[key]?).map _ = _
      by_cases hkey : key = r.authority.account
      · rw [hkey, ExtTreeMap.getElem?_insert_self, hfound, Option.map_some, Option.map_some, hsame]
      · rw [Lib.getElem?_insert_of_ne _ _ hkey]

/-- A mark does not advance the record counter. -/
theorem markAmbiguous_next (e : CreditEngine J) (r : CreditRequest) (seq : UInt64) :
    (e.markAmbiguous r seq).nextJournalSequence = e.nextJournalSequence := by
  unfold markAmbiguous
  cases e.accounts[r.authority.account]? with
  | none => rfl
  | some a =>
    simp only
    cases a.markAmbiguous e.limits.maxAmbiguousAttempts r seq <;> rfl

/-- The engines agree on the accounts and on where the journal continues. -/
structure Alike (e e' : CreditEngine J) : Prop where
  next : e.nextJournalSequence = e'.nextJournalSequence
  accounts : Agree e.accounts e'.accounts

/-- Replays of one Attempt on maps that agree. -/
theorem AttemptReplay.agree {e₁ e₁' e₂ e₂' : CreditEngine J} {d : DurableAttempt}
    {x₁ x₂ : AccountState} (h₁ : AttemptReplay e₁ d x₁ e₁') (h₂ : AttemptReplay e₂ d x₂ e₂')
    (h : Agree e₁.accounts e₂.accounts) : Agree e₁'.accounts e₂'.accounts := by
  have hx : x₁.essentials = x₂.essentials := by
    rcases h₁.decision with ⟨hcreated₁, -, heq₁⟩ | ⟨hcreated, p₁, s₁, hp₁, hdecision₁, -⟩ <;>
      rcases h₂.decision with ⟨hcreated', -, heq₂⟩ | ⟨hcreated', p₂, s₂, hp₂, hdecision₂, -⟩
    · rw [heq₁, heq₂]
      rfl
    · rw [hcreated'] at hcreated₁
      exact absurd hcreated₁ (by decide)
    · rw [hcreated'] at hcreated
      exact absurd hcreated (by decide)
    · obtain ⟨p, hp, hsame⟩ := h.found hp₁
      rw [hp₂, Option.some.injEq] at hp
      subst hp
      have heq := replayDecision_essentials p₁ d
      rw [hsame, replayDecision_essentials, hdecision₁, hdecision₂] at heq
      exact (congrArg Prod.snd heq).symm
  rw [h₁.accounts, h₂.accounts]
  refine h.insert _ ?_
  cases d.outcome.decided with
  | false => exact hx
  | true =>
    simp only [if_true, publishWindow_essentials, hx]

/-- **One record.** -/
theorem RecordReplay.alike {e₁ e₁' e₂ e₂' : CreditEngine J} {snap : Option UInt64}
    {t : JournalRecord} (h₁ : RecordReplay e₁ snap t e₁') (h₂ : RecordReplay e₂ snap t e₂')
    (h : Alike e₁ e₂) : Alike e₁' e₂' := by
  cases h₁ with
  -- both replays take the same branch: the record decides which
  | skipped hskip =>
    cases h₂ with
    | skipped => exact h
    | intent hread => rw [hskip] at hread; exact absurd hread (by decide)
    | snapshot hread => rw [hskip] at hread; exact absurd hread (by decide)
    | attempt hread => rw [hskip] at hread; exact absurd hread (by decide)
  | intent hread kind pending =>
    cases h₂ with
    | skipped hskip => rw [hskip] at hread; exact absurd hread (by decide)
    | intent _ _ pending' =>
      refine ⟨?_, fun key => ?_⟩
      · rw [(markAmbiguous_next e₁ pending t.sequence), markAmbiguous_next, h.next]
      · rw [markAmbiguous_agree e₁ pending t.sequence key, markAmbiguous_agree, h.accounts key]
    | snapshot _ kind' => rw [kind] at kind'; exact absurd kind' (by decide)
    | attempt _ kind' => rw [kind] at kind'; exact absurd kind' (by decide)
  | snapshot hread kind restored decoded stats =>
    cases h₂ with
    | skipped hskip => rw [hskip] at hread; exact absurd hread (by decide)
    | intent _ kind' => rw [kind] at kind'; exact absurd kind' (by decide)
    | snapshot _ _ restored' decoded' =>
      rw [decoded, Except.ok.injEq] at decoded'
      subst decoded'
      exact ⟨rfl, restoredFrom_agree _ _ _ fun key => rfl⟩
    | attempt _ kind' => rw [kind] at kind'; exact absurd kind' (by decide)
  | attempt hread kind d decoded chained x e replay journalRecords stats =>
    cases h₂ with
    | skipped hskip => rw [hskip] at hread; exact absurd hread (by decide)
    | intent _ kind' => rw [kind] at kind'; exact absurd kind' (by decide)
    | snapshot _ kind' => rw [kind] at kind'; exact absurd kind' (by decide)
    | attempt _ _ d' decoded' _ x' e' replay' =>
      rw [decoded, Except.ok.injEq] at decoded'
      subst decoded'
      have hagree := replay.agree replay' h.accounts
      exact ⟨rfl, hagree⟩

/-- Replays of one log on engines that are alike. -/
theorem ReplaysTo.alike {snap : Option UInt64} {e₁ e₁' e₂ e₂' : CreditEngine J}
    {recs : List JournalRecord} (h₁ : ReplaysTo snap e₁ recs e₁')
    (h₂ : ReplaysTo snap e₂ recs e₂') (h : Alike e₁ e₂) : Alike e₁' e₂' := by
  induction h₁ generalizing e₂ with
  | done e₁ j =>
    cases h₂ with
    | done => exact ⟨h.next, h.accounts⟩
  | @next e₁ e' e₁' t rest j s hrecord hs tail ih =>
    cases h₂ with
    | next j₂ hrecord₂ hs₂ tail₂ =>
      have hmoved : Alike { e₁ with journal := j } { e₂ with journal := j₂ } :=
        ⟨h.next, h.accounts⟩
      exact ih tail₂ ((replayRecord_inv hrecord hs).alike (replayRecord_inv hrecord₂ hs₂) hmoved)

/-! ### Recoveries of a disk -/

/-- What loading a snapshot leaves when it succeeds. -/
inductive LoadedSnapshot (e : CreditEngine J) : Option SnapshotImage → CreditEngine J → Prop
  | none : LoadedSnapshot e none e
  | some (image : SnapshotImage) (restored : DurableState)
      (decoded : decodeDurableState image.payload = .ok restored) :
      LoadedSnapshot e (some image) { e with
        accounts := restoredFrom e.limits ∅ restored.accounts, chain := image.chain,
        nextJournalSequence := image.sequence + 1, snapshots := restored.snapshots }

/-- A load that succeeds is one of the two. -/
theorem loadSnapshot_inv {e e' : CreditEngine J} {image : Option SnapshotImage} {s : Status}
    (h : e.loadSnapshot image = (s, e')) (hs : s.ok = true) : LoadedSnapshot e image e' := by
  have hfailed : ∀ {s' : Status}, s' = s → s'.ok = false → False := by
    rintro s' rfl hfalse
    rw [hs] at hfalse
    exact absurd hfalse (by decide)
  unfold loadSnapshot at h
  cases image with
  | none =>
    obtain rfl := congrArg Prod.snd h
    exact .none
  | some image =>
    cases hdecode : decodeDurableState image.payload with
    | error s' =>
      simp only [hdecode] at h
      exact (hfailed (congrArg Prod.fst h) rfl).elim
    | ok restored =>
      simp only [hdecode] at h
      split_ifs at h with hsequence hrestore
      · exact (hfailed (congrArg Prod.fst h) rfl).elim
      · exact (hfailed (congrArg Prod.fst h) (by simpa using hrestore)).elim
      · have hrestored := restoreAccounts_inv (e := { e with accounts := ∅ }) rfl
          (by simpa [restoreDurableState] using hrestore)
        obtain rfl := congrArg Prod.snd h
        rw [show (e.restoreDurableState restored).2 = _ from hrestored]
        exact .some image restored hdecode

/-- Some engine recovers from the disk, and this is where it stands in front of its last
    step. -/
def Recovers (disk : Disk) (e : CreditEngine J) : Prop :=
  disk.Addressable ∧ ∃ e₀ e₁ : CreditEngine J, LoadedSnapshot e₀.reset disk.snapshot e₁ ∧
    ReplaysTo (disk.snapshot.map SnapshotImage.sequence) e₁ disk.records e

/-- The recovery of a disk with one more record is the replay of that record behind a recovery
    of the disk without it. -/
theorem Recovers.concat {disk disk' : Disk} {t : JournalRecord} {e : CreditEngine J}
    (h : Recovers disk' e) (hsnapshot : disk'.snapshot = disk.snapshot)
    (hrecords : disk'.records = disk.records ++ [t]) :
    ∃ (e₁ e₂ : CreditEngine J) (j : J), Recovers disk e₁ ∧
      RecordReplay e₁ (disk.snapshot.map SnapshotImage.sequence) t e₂ ∧
      e = { e₂ with journal := j } ∧ e.limits = e₁.limits := by
  obtain ⟨⟨hpayloads, himage⟩, e₀, eₛ, hloaded, hreplays⟩ := h
  rw [hsnapshot] at hloaded hreplays himage
  rw [hrecords] at hreplays hpayloads
  obtain ⟨e₁, e₂, j, j', s, hreplays₁, hrecord, hs, rfl⟩ := hreplays.concat
  have hframe := replayRecord_untouched { e₁ with journal := j }
    (disk.snapshot.map SnapshotImage.sequence) t
  rw [hrecord] at hframe
  refine ⟨{ e₁ with journal := j }, e₂, j', ⟨⟨fun t' ht' => ?_, himage⟩, e₀, eₛ, hloaded,
    hreplays₁.move j⟩, replayRecord_inv hrecord hs, rfl, hframe.limits⟩
  exact hpayloads t' (List.mem_append_left _ ht')

/-- Records at or below the loaded snapshot replay as nothing. -/
theorem ReplaysTo.skipped {snap : UInt64} {e e' : CreditEngine J} {recs : List JournalRecord}
    (h : ReplaysTo (some snap) e recs e') (hall : ∀ t ∈ recs, t.sequence ≤ snap) :
    ∃ j, e' = { e with journal := j } := by
  induction h with
  | done e j => exact ⟨j, rfl⟩
  | @next e e₁ e' t rest j s hrecord hs tail ih =>
    obtain ⟨j', hj'⟩ := ih fun t' ht' => hall t' (List.mem_cons_of_mem _ ht')
    have hskip : (some snap).any (t.sequence ≤ ·) = true :=
      decide_eq_true (hall t List.mem_cons_self)
    unfold replayRecord at hrecord
    rw [if_pos hskip] at hrecord
    have he₁ : { e with journal := j } = e₁ := congrArg Prod.snd hrecord
    rw [← he₁] at hj'
    exact ⟨j', hj'⟩

/-- A snapshot at or above every record of the log is all that a recovery reads. -/
theorem Recovers.of_snapshot {disk : Disk} {image : SnapshotImage} {e : CreditEngine J}
    (h : Recovers disk e) (hsnapshot : disk.snapshot = some image)
    (hall : ∀ t ∈ disk.records, t.sequence ≤ image.sequence) :
    ∃ restored : DurableState, image.payload.length < 2 ^ 64 ∧
      decodeDurableState image.payload = .ok restored ∧
      e.accounts = restoredFrom e.limits ∅ restored.accounts ∧
      e.nextJournalSequence = image.sequence + 1 := by
  obtain ⟨⟨-, himage⟩, e₀, e₁, hloaded, hreplays⟩ := h
  rw [hsnapshot] at hloaded hreplays
  obtain ⟨j, rfl⟩ := hreplays.skipped hall
  cases hloaded with
  | some _ restored decoded =>
    exact ⟨restored, himage image hsnapshot, decoded, rfl, rfl⟩

/-- **What a disk determines.** -/
theorem Recovers.alike {disk : Disk} {e e' : CreditEngine J} (h : Recovers disk e)
    (h' : Recovers disk e') : Alike e e' := by
  obtain ⟨-, e₀, e₁, hloaded, hreplays⟩ := h
  obtain ⟨-, e₀', e₁', hloaded', hreplays'⟩ := h'
  refine hreplays.alike hreplays' ?_
  generalize disk.snapshot = image at hloaded hloaded'
  cases hloaded with
  | none =>
    cases hloaded' with
    | none => exact ⟨rfl, fun key => rfl⟩
  | some image restored decoded =>
    cases hloaded' with
    | some _ restored' decoded' =>
      rw [decoded, Except.ok.injEq] at decoded'
      subst decoded'
      exact ⟨rfl, restoredFrom_agree _ _ _ fun key => rfl⟩

end CreditEngine

end CreditFabric
