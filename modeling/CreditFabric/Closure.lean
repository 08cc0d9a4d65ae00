import CreditFabric.Sound
import CreditFabric.Trace
import CreditFabric.Replay

namespace CreditFabric

open Std (ExtTreeMap)

/-!
# Accounting closure over whole runs

Every account is sound in every state the engine can reach, by any calls with any requests,
snapshots, journal failures with their rollback, restarts and recoveries of its own journal
(`reachable_closed`).

The invariant carries what the journal has been given: the image of every attempt and every
snapshot that was ever appended or written is sound, whether or not the call succeeded.  A
recovery reads some of these back (`OwnJournal`), replays them with checks of its own, and is
left with sound accounts.
-/

/-! ### Records of sound accounts -/

/-- A record the engine writes: the images in it are sound. -/
def JournalRecord.Sound (t : JournalRecord) : Prop :=
  match t.kind with
  | .attempt => ∃ d : DurableAttempt, d.Written ∧ d.account.Sound ∧
      t.payload = encodeDurableAttempt d
  | .snapshot => ∃ s : DurableState, (∀ d ∈ s.accounts, d.Sound) ∧
      t.payload = encodeDurableState s
  | _ => True

/-- The state of a snapshot, if it decodes, has sound accounts. -/
def SnapshotImage.Sound (i : SnapshotImage) : Prop :=
  ∃ s : DurableState, (∀ d ∈ s.accounts, d.Sound) ∧ i.payload = encodeDurableState s

/-- A journal call that hands over only sound images. -/
def JournalEvent.Sound : JournalEvent → Prop
  | .appended t _ => t.Sound
  | .wroteSnapshot i _ => i.Sound
  | _ => True

/-- The call handed over the record `t`, whatever came of it. -/
def JournalEvent.handedOver (t : JournalRecord) : JournalEvent → Bool
  | .appended t' _ => t' == t
  | _ => false

/-- The call handed over the snapshot `i`, whatever came of it. -/
def JournalEvent.handedSnapshot (i : SnapshotImage) : JournalEvent → Bool
  | .wroteSnapshot i' _ => i' == i
  | _ => false

/-- A call that reads back only what the calls in `log` handed over.  The payload of a record
    is a vector, whose size is a 64-bit word. -/
def JournalEvent.own (log : List JournalEvent) : JournalEvent → Bool
  | .read (some t) _ => log.any (·.handedOver t) && decide (t.payload.length < 2 ^ 64)
  | .loadedSnapshot (some i) _ =>
    log.any (·.handedSnapshot i) && decide (i.payload.length < 2 ^ 64)
  | _ => true

/-- Everything read back is the engine's own. -/
def OwnJournal (log : List JournalEvent) : Prop := ∀ ev ∈ log, ev.own log = true

instance (log : List JournalEvent) : Decidable (OwnJournal log) :=
  inferInstanceAs (Decidable (∀ ev ∈ log, ev.own log = true))

/-- A record that was read was appended, and is of a length that a file can hold. -/
theorem OwnJournal.record {log : List JournalEvent} (h : OwnJournal log) {t : JournalRecord}
    {s : Status} (hread : .read (some t) s ∈ log) :
    (∃ s', .appended t s' ∈ log) ∧ t.payload.length < 2 ^ 64 := by
  have hown := h _ hread
  simp only [JournalEvent.own, Bool.and_eq_true, List.any_eq_true, decide_eq_true_eq] at hown
  obtain ⟨⟨ev, hev, hhanded⟩, hlen⟩ := hown
  cases ev with
  | appended t' s' =>
    rw [show t' = t from by simpa [JournalEvent.handedOver] using hhanded] at hev
    exact ⟨⟨s', hev⟩, hlen⟩
  | _ => simp [JournalEvent.handedOver] at hhanded

/-- A snapshot that was read was written. -/
theorem OwnJournal.snapshot {log : List JournalEvent} (h : OwnJournal log) {i : SnapshotImage}
    {s : Status} (hread : .loadedSnapshot (some i) s ∈ log) :
    (∃ s', .wroteSnapshot i s' ∈ log) ∧ i.payload.length < 2 ^ 64 := by
  have hown := h _ hread
  simp only [JournalEvent.own, Bool.and_eq_true, List.any_eq_true, decide_eq_true_eq] at hown
  obtain ⟨⟨ev, hev, hhanded⟩, hlen⟩ := hown
  cases ev with
  | wroteSnapshot i' s' =>
    rw [show i' = i from by simpa [JournalEvent.handedSnapshot] using hhanded] at hev
    exact ⟨⟨s', hev⟩, hlen⟩
  | _ => simp [JournalEvent.handedSnapshot] at hhanded

/-- A call that hands nothing to the journal. -/
def JournalEvent.IsRead : JournalEvent → Prop
  | .appended _ _ => False
  | .wroteSnapshot _ _ => False
  | _ => True

/-- A call that only reads writes nothing unsound. -/
theorem JournalEvent.IsRead.sound {ev : JournalEvent} (h : ev.IsRead) : ev.Sound := by
  cases ev with
  | appended t s => exact h.elim
  | wroteSnapshot i s => exact h.elim
  | _ => trivial

namespace CreditEngine

variable {J : Type}

/-- Every account is sound. -/
def AllSound (accounts : ExtTreeMap UInt64 AccountState) : Prop :=
  ∀ (key : UInt64) (a : AccountState), accounts[key]? = some a → a.Sound

/-- A sound account among sound accounts. -/
theorem AllSound.insert {accounts : ExtTreeMap UInt64 AccountState} (h : AllSound accounts)
    (key : UInt64) {a : AccountState} (ha : a.Sound) : AllSound (accounts.insert key a) := by
  intro i b hb
  rw [ExtTreeMap.getElem?_insert] at hb
  split_ifs at hb with hi
  · rw [← Option.some.inj hb]
    exact ha
  · exact h i b hb

/-- Sound accounts without one of them. -/
theorem AllSound.erase {accounts : ExtTreeMap UInt64 AccountState} (h : AllSound accounts)
    (key : UInt64) : AllSound (accounts.erase key) := by
  intro i b hb
  rw [ExtTreeMap.getElem?_erase] at hb
  split_ifs at hb
  exact h i b hb

/-- There is nothing unsound among no accounts. -/
theorem allSound_empty : AllSound ∅ := by
  intro i b hb
  simp at hb

/-- The invariant of every run. -/
structure Sound (e : CreditEngine (Observed J)) : Prop where
  accounts : AllSound e.accounts
  log : ∀ ev ∈ e.journal.log, ev.Sound

/-! ### Live calls -/

/-- The image of sound accounts is sound. -/
theorem durableState_sound {e : CreditEngine (Observed J)} (h : AllSound e.accounts) :
    ∀ d ∈ e.durableState.accounts, d.Sound := by
  intro d hd
  have hmem : d ∈ e.accounts.toList.map fun entry => entry.2.buildDurable true :=
    List.mem_mergeSort.mp hd
  obtain ⟨⟨key, a⟩, hentry, rfl⟩ := List.mem_map.mp hmem
  exact h key a (ExtTreeMap.mem_toList_iff_getElem?_eq_some.mp hentry)

/-- A sound account stored in a sound engine. -/
theorem put_sound {e : CreditEngine (Observed J)} (h : e.Sound) (key : UInt64)
    {a : AccountState} (ha : a.Sound) : (e.put key a).Sound :=
  ⟨h.accounts.insert key ha, h.log⟩

/-- What an applied decision publishes is sound. -/
theorem publishApplied_sound {e : CreditEngine (Observed J)} (h : e.Sound) (key : UInt64)
    {a : AccountState} (ha : a.Sound) (r : CreditRequest) (o : CreditOutcome) :
    (publishApplied key a r o e).Sound := by
  have hput := put_sound h key (publishWindow_sound ha r o)
  exact ⟨hput.accounts, hput.log⟩

/-- What a refused decision publishes is sound. -/
theorem publishRefused_sound {e : CreditEngine (Observed J)} (h : e.Sound) (key : UInt64)
    {a : AccountState} (ha : a.Sound) (r : CreditRequest) (o : CreditOutcome) :
    (publishRefused key a r o e).Sound := by
  have hput := put_sound h key
    (recordRefusal_sound (publishWindow_sound ha r o) e.limits.maxRefusalLog r o)
  exact ⟨hput.accounts, hput.log⟩

/-- A snapshot of sound accounts writes sound contents only. -/
theorem snapshotTrace_sound {e : CreditEngine (Observed J)} (h : AllSound e.accounts)
    {s : Status} {events : List JournalEvent} (htrace : SnapshotTrace e s events) :
    ∀ ev ∈ events, ev.Sound := by
  have hrecord : e.snapshotRecord.Sound := ⟨e.durableState, durableState_sound h, rfl⟩
  have himage : e.snapshotImage.Sound := ⟨e.durableState, durableState_sound h, rfl⟩
  cases htrace with
  | appendFailed s hs => simpa [JournalEvent.Sound] using hrecord
  | writeFailed s₁ s h₁ hs => simpa [JournalEvent.Sound] using ⟨hrecord, himage⟩
  | rotateFailed s₁ s₂ s h₁ h₂ hs => simpa [JournalEvent.Sound] using ⟨hrecord, himage⟩
  | durable s₁ s₂ s₃ h₁ h₂ h₃ => simpa [JournalEvent.Sound] using ⟨hrecord, himage⟩

variable [Journal J]

/-- The commit of a sound account leaves a sound engine. -/
theorem persistLocked_sound {e : CreditEngine (Observed J)} (h : e.Sound) (r : CreditRequest)
    {o : CreditOutcome} {a : AccountState} {c : Bool} (ha : a.Sound)
    (hview : o.view.quarantined = o.view.stale) (hcreated : c = true → o.applied = true) :
    (e.persistLocked r o a c).2.Sound := by
  obtain ⟨events, hlog, htrace⟩ := persistLocked_trace e r o a c
  have hintent : (e.intentRecord r).Sound := trivial
  have hattempt : (e.attemptRecord r o a c).Sound :=
    ⟨e.durableAttempt r o a c, durableAttempt_written e r a hview hcreated, ha, rfl⟩
  have hevents : ∀ ev ∈ events, ev.Sound := by
    generalize (e.persistLocked r o a c).1 = status at htrace
    cases htrace with
    | intentFailed s hs => simpa [JournalEvent.Sound] using hintent
    | attemptFailed s₁ s h₁ hs => simpa [JournalEvent.Sound] using ⟨hintent, hattempt⟩
    | kept s₁ s₂ h₁ h₂ => simpa [JournalEvent.Sound] using ⟨hintent, hattempt⟩
    | rotated s₁ s₂ s more h₁ h₂ hsnap =>
      have hmore := snapshotTrace_sound (e := e.afterDecision r o a c) h.accounts hsnap
      simpa [JournalEvent.Sound] using ⟨hintent, hattempt, hmore⟩
  refine ⟨?_, ?_⟩
  · rw [(persistLocked_frame e r o a c).accounts]
    exact h.accounts
  · rw [hlog]
    intro ev hev
    rcases List.mem_append.mp hev with hold | hnew
    · exact h.log ev hold
    · exact hevents ev hnew

/-- Settling keeps the invariant when both ends do: the rollback and the publication. -/
theorem settle_sound {e : CreditEngine (Observed J)} (h : e.Sound) (r : CreditRequest)
    {o : CreditOutcome} {a : AccountState} {c : Bool}
    {rollback publish : CreditEngine (Observed J) → CreditEngine (Observed J)} (ha : a.Sound)
    (hview : o.view.quarantined = o.view.stale) (hcreated : c = true → o.applied = true)
    (hrollback : ∀ e' : CreditEngine (Observed J), e'.Sound → (rollback e').Sound)
    (hpublish : ∀ e' : CreditEngine (Observed J), e'.Sound → (publish e').Sound) :
    (e.settle r o a c rollback publish).2.Sound := by
  have hpersist := persistLocked_sound h r ha hview hcreated
  cases hok : (e.persistLocked r o a c).1.ok with
  | false =>
    rw [settle_of_failed hok]
    have hback := hrollback _ hpersist
    exact ⟨hback.accounts, hback.log⟩
  | true =>
    rw [settle_of_ok hok]
    exact hpublish _ hpersist

/-- An Open leaves a sound engine, whether it is committed or not. -/
theorem settleOpen_sound {e : CreditEngine (Observed J)} (h : e.Sound) {r : CreditRequest}
    (hopens : Opens e r) : (e.settleOpen r).2.Sound := by
  have ha := openedAccount_sound hopens.accepted
  refine settle_sound (put_sound h _ ha) r ha (quarantined_computeView _ _) (fun _ => rfl)
    (fun e' he' => ⟨he'.accounts.erase _, he'.log⟩) fun e' he' => ?_
  exact publishApplied_sound he' _ ha r _

/-- A decision leaves a sound engine, whether it is committed or not. -/
theorem settleDecision_sound {e : CreditEngine (Observed J)} (h : e.Sound) {r : CreditRequest}
    {a : AccountState} (hadmitted : Admitted e r a) : (e.settleDecision a r).2.Sound := by
  have ha : a.Sound := h.accounts _ _ hadmitted.found
  have hdec := decision_sound e r ha
  have hconfig := decision_config e a r
  unfold settleDecision follow
  cases hd : e.decision a r with
  | reject s a' =>
    rw [hd] at hdec
    exact put_sound h _ hdec
  | refuse s a' =>
    rw [hd] at hdec
    have hcounted := countRefused_sound hdec r.authority.incarnation
    refine settle_sound (put_sound h _ hcounted) r hcounted (quarantined_computeView _ _)
      (fun hc => absurd hc (by decide)) (fun e' he' => ?_) fun e' he' => ?_
    · refine put_sound he' _ (restoreBackup_sound (a := a') hdec ?_ _ _)
      exact (congrArg AccountState.config (AccountState.updateIncarnation_eq _ _ _)).trans rfl
    · exact publishRefused_sound he' _ hcounted r _
  | proceed a' =>
    rw [hd] at hdec hconfig
    have hcounted := countCommitted_sound hdec r.authority.incarnation
    refine settle_sound (put_sound h _ hcounted) r hcounted (quarantined_computeView _ _)
      (fun hc => absurd hc (by decide)) (fun e' he' => ?_) fun e' he' => ?_
    · refine put_sound he' _ (restoreBackup_sound (a := a) ha ?_ _ _)
      rw [← show a'.config = a.config from hconfig]
      exact (congrArg AccountState.config (AccountState.updateIncarnation_eq _ _ _)).trans rfl
    · exact publishApplied_sound he' _ hcounted r _

/-- **Step lemma.**  Every call keeps the accounts and the handed-over images sound. -/
theorem apply_sound {e : CreditEngine (Observed J)} (h : e.Sound) (r : CreditRequest) :
    (e.apply r).2.Sound := by
  have hcase := apply_cases e r
  generalize e.apply r = result at hcase
  cases hcase with
  | answered o happlied hdup => exact h
  | absorbed a existing found placed => exact ⟨h.accounts, h.log⟩
  | opened hopens => exact settleOpen_sound h hopens
  | decided a hadmitted => exact settleDecision_sound h hadmitted

/-- An explicit snapshot leaves a sound engine, whether it succeeds or not. -/
theorem snapshot_sound {e : CreditEngine (Observed J)} (h : e.Sound) : e.snapshot.2.Sound := by
  unfold snapshot
  split_ifs
  · exact h
  · exact h
  · have hsnap := snapshotLocked_snapshotted e
    obtain ⟨events, hlog, htrace⟩ := hsnap.trace
    have hevents := snapshotTrace_sound h.accounts htrace
    refine ⟨?_, ?_⟩
    · rw [hsnap.sameLedger.accounts]
      exact h.accounts
    · rw [hlog]
      intro ev hev
      rcases List.mem_append.mp hev with hold | hnew
      · exact h.log ev hold
      · exact hevents ev hnew

/-! ### Recovery of the engine's own journal -/

section Recovery

omit [Journal J]

/-- Accounts restored from sound images are sound. -/
private theorem restoreAccounts_sound {e : CreditEngine J} (h : AllSound e.accounts)
    {l : List DurableAccount} (hl : ∀ d ∈ l, d.Sound) :
    AllSound (e.restoreAccounts l).2.accounts := by
  induction l generalizing e with
  | nil => exact h
  | cons d rest ih =>
    have hd : (restoreAccount e.limits d).Sound := hl d List.mem_cons_self
    unfold restoreAccounts
    simp only
    split_ifs
    · exact h
    · exact h
    · exact ih (h.insert _ hd) fun d' hd' => hl d' (List.mem_cons_of_mem _ hd')

/-- The same of a whole image. -/
theorem restoreDurableState_sound (e : CreditEngine J) {s : DurableState}
    (hs : ∀ d ∈ s.accounts, d.Sound) : AllSound (e.restoreDurableState s).2.accounts :=
  restoreAccounts_sound (e := { e with accounts := ∅ }) allSound_empty hs

/-- The last step of a replay stores a sound account. -/
theorem finishReplay_sound {e : CreditEngine J} (h : AllSound e.accounts) {a : AccountState}
    (ha : a.Sound) (d : DurableAttempt) : AllSound (e.finishReplay a d).2.accounts := by
  unfold finishReplay
  simp only
  split_ifs
  · exact h.insert _ ha
  · exact (h.insert _ ha).insert _ (publishWindow_sound ha _ _)
  · exact h.insert _ ha

/-- A replayed Attempt leaves sound accounts; a created account comes from its record. -/
theorem replayAttempt_sound {e : CreditEngine J} (h : AllSound e.accounts) {d : DurableAttempt}
    (hd : d.createdAccount = true → d.account.Sound) :
    AllSound (e.replayAttempt d).2.accounts := by
  unfold replayAttempt
  simp only
  split_ifs with hcreated hcontains
  · exact h
  · exact finishReplay_sound h (replayedOpen_sound e.limits (hd hcreated)) d
  · cases hfound : e.accounts[d.request.authority.account]? with
    | none => exact h
    | some a =>
      have hreplayed := replayDecision_sound d (h _ _ hfound)
      simp only
      split_ifs
      · exact h.insert _ hreplayed
      · exact finishReplay_sound h hreplayed d

/-- A mark changes no counter. -/
theorem markAmbiguous_sound {e : CreditEngine J} (h : AllSound e.accounts) (r : CreditRequest)
    (seq : UInt64) : AllSound (e.markAmbiguous r seq).accounts := by
  unfold markAmbiguous
  cases hfound : e.accounts[r.authority.account]? with
  | none => exact h
  | some a =>
    simp only
    cases hnote : a.markAmbiguous e.limits.maxAmbiguousAttempts r seq with
    | none => exact h
    | some a' =>
      have ha' : a' = { a with ambiguous := a'.ambiguous } := by
        unfold AccountState.markAmbiguous at hnote
        split_ifs at hnote <;> rw [← Option.some.inj hnote]
      have ha : a.Sound := h _ _ hfound
      refine h.insert _ ?_
      rw [ha']
      exact ha

/-- A record the engine wrote replays into sound accounts. -/
theorem replayRecord_sound {e : CreditEngine J} (h : AllSound e.accounts)
    (snap : Option UInt64) {t : JournalRecord} (ht : t.Sound)
    (hlen : t.payload.length < 2 ^ 64) : AllSound (e.replayRecord snap t).2.accounts := by
  unfold replayRecord
  split_ifs
  · exact h
  unfold JournalRecord.Sound at ht
  cases hkind : t.kind with
  | unknown => exact h
  | intent =>
    simp only
    unfold replayIntent
    cases decodeRequestMessage t.payload e.limits.maxNoteBytes with
    | error s => exact h
    | ok pending => exact markAmbiguous_sound h pending t.sequence
  | attempt =>
    simp only [hkind] at ht ⊢
    obtain ⟨d, hwritten, hsound, hpayload⟩ := ht
    unfold replayAttemptRecord
    cases hdecode : decodeDurableAttempt t.payload with
    | error s => exact h
    | ok d' =>
      -- only a created account takes its ledger from the record, and that one is intact
      rw [hpayload] at hdecode
      have hreplay := replayAttempt_sound h (d := d') fun hcreated => by
        rw [decodeDurableAttempt_created hwritten hdecode hcreated]
        exact hsound
      simp only
      split_ifs
      · exact h
      · exact hreplay
      · exact hreplay
  | snapshot =>
    simp only [hkind] at ht ⊢
    obtain ⟨s, hsound, hpayload⟩ := ht
    unfold replaySnapshot
    cases hdecode : decodeDurableState t.payload with
    | error s => exact h
    | ok s' =>
      rw [hpayload] at hdecode hlen
      rw [decodeDurableState_of_encode hlen hdecode]
      have hrestore := restoreDurableState_sound e hsound
      simp only
      split_ifs
      · exact h
      · exact hrestore
      · exact hrestore

/-- A snapshot with sound contents leaves sound accounts. -/
theorem loadSnapshot_sound {e : CreditEngine J} (h : AllSound e.accounts)
    {image : Option SnapshotImage}
    (himage : ∀ i, image = some i → i.Sound ∧ i.payload.length < 2 ^ 64) :
    AllSound (e.loadSnapshot image).2.accounts := by
  unfold loadSnapshot
  cases image with
  | none => exact h
  | some i =>
    obtain ⟨⟨s, hsound, hpayload⟩, hlen⟩ := himage i rfl
    simp only
    cases hdecode : decodeDurableState i.payload with
    | error s => exact h
    | ok s' =>
      rw [hpayload] at hdecode hlen
      rw [decodeDurableState_of_encode hlen hdecode]
      have hrestore := restoreDurableState_sound e hsound
      simp only
      split_ifs
      · exact h
      · exact hrestore
      · exact hrestore

end Recovery

/-- `e'` is behind `e` by calls that hand nothing to the journal. -/
def ReadsOn (e e' : CreditEngine (Observed J)) : Prop :=
  ∃ events, e'.journal.log = e.journal.log ++ events ∧ ∀ ev ∈ events, ev.IsRead

omit [Journal J] in
/-- Reads behind reads. -/
theorem ReadsOn.trans {e e₁ e₂ : CreditEngine (Observed J)} (h : ReadsOn e e₁)
    (h' : ReadsOn e₁ e₂) : ReadsOn e e₂ := by
  obtain ⟨events, hlog, hreads⟩ := h
  obtain ⟨events', hlog', hreads'⟩ := h'
  refine ⟨events ++ events', by rw [hlog', hlog, List.append_assoc], fun ev hev => ?_⟩
  rcases List.mem_append.mp hev with hold | hnew
  · exact hreads ev hold
  · exact hreads' ev hnew

omit [Journal J] in
/-- An engine with the same journal has read nothing more. -/
theorem readsOn_of_journal {e e' : CreditEngine (Observed J)} (h : e'.journal = e.journal) :
    ReadsOn e e' := ⟨[], by rw [h, List.append_nil], by simp⟩

omit [Journal J] in
/-- One more read. -/
theorem readsOn_of_event {e e' : CreditEngine (Observed J)} (ev : JournalEvent)
    (hlog : e'.journal.log = e.journal.log ++ [ev]) (h : ev.IsRead) : ReadsOn e e' :=
  ⟨[ev], hlog, by simpa using h⟩

omit [Journal J] in
/-- What has been read stays in the log. -/
theorem ReadsOn.mem {e e' : CreditEngine (Observed J)} (h : ReadsOn e e') {ev : JournalEvent}
    (hev : ev ∈ e.journal.log) : ev ∈ e'.journal.log := by
  obtain ⟨events, hlog, -⟩ := h
  rw [hlog]
  exact List.mem_append_left _ hev

/-- The replay loop only reads. -/
theorem replayLoop_readsOn (snap : Option UInt64) (fuel : Nat)
    (e : CreditEngine (Observed J)) : ReadsOn e (replayLoop snap fuel e).2 := by
  induction fuel generalizing e with
  | zero => exact readsOn_of_journal rfl
  | succ fuel ih =>
    have hread : ReadsOn e { e with journal := (Journal.nextRecord e.journal).2.2 } :=
      readsOn_of_event _ rfl trivial
    unfold replayLoop
    simp only
    split_ifs
    · exact hread
    · cases (Journal.nextRecord e.journal).2.1 with
      | none => exact hread
      | some t =>
        have hrecord := hread.trans (readsOn_of_journal (replayRecord_untouched
          { e with journal := (Journal.nextRecord e.journal).2.2 } snap t).journal)
        simp only
        split_ifs
        · exact hrecord
        · exact hrecord.trans (ih _)

/-- **The loop.**  If all that it reads is sound, so are the accounts behind it. -/
theorem replayLoop_sound (snap : Option UInt64) (fuel : Nat) {e : CreditEngine (Observed J)}
    (h : AllSound e.accounts)
    (hreads : ∀ t s, .read (some t) s ∈ (replayLoop snap fuel e).2.journal.log →
      t.Sound ∧ t.payload.length < 2 ^ 64) :
    AllSound (replayLoop snap fuel e).2.accounts := by
  induction fuel generalizing e with
  | zero => exact h
  | succ fuel ih =>
    revert hreads
    unfold replayLoop
    simp only
    split_ifs
    · exact fun _ => h
    · cases hrecord : (Journal.nextRecord e.journal).2.1 with
      | none => exact fun _ => h
      | some t =>
        have hframe := replayRecord_untouched
          { e with journal := (Journal.nextRecord e.journal).2.2 } snap t
        have hrecordSound := replayRecord_sound
          (e := { e with journal := (Journal.nextRecord e.journal).2.2 }) h snap (t := t)
        have hmem : .read (some t) (Journal.nextRecord e.journal).1 ∈
            (replayRecord { e with journal := (Journal.nextRecord e.journal).2.2 } snap
              t).2.journal.log := by
          rw [hframe.journal, ← hrecord]
          exact List.mem_append_right _ List.mem_cons_self
        simp only
        split_ifs
        · intro hreads
          obtain ⟨ht, hlen⟩ := hreads t _ hmem
          exact hrecordSound ht hlen
        · intro hreads
          obtain ⟨ht, hlen⟩ := hreads t _ ((replayLoop_readsOn snap fuel _).mem hmem)
          exact ih (hrecordSound ht hlen) hreads

/-- A recovery only reads. -/
theorem recover_readsOn (e : CreditEngine (Observed J)) : ReadsOn e e.recover.2 := by
  -- one engine per journal call, in order
  let e₁ := { e with journal := (Journal.open_ e.journal).2 }
  let e₂ := { e₁ with journal := (Journal.readSnapshot e₁.journal).2.2 }
  let e₃ := (e₂.reset.loadSnapshot (Journal.readSnapshot e₁.journal).2.1).2
  let e₄ := { e₃ with journal := (Journal.beginReplay e₃.journal).2 }
  let e₅ := (replayLoop ((Journal.readSnapshot e₁.journal).2.1.map SnapshotImage.sequence)
    (Journal.remaining e₄.journal + 1) e₄).2
  have h₁ : ReadsOn e e₁ := readsOn_of_event _ rfl trivial
  have h₂ : ReadsOn e e₂ := h₁.trans (readsOn_of_event _ rfl trivial)
  have h₃ : ReadsOn e e₃ :=
    h₂.trans (readsOn_of_journal (loadSnapshot_untouched e₂.reset _).journal)
  have h₄ : ReadsOn e e₄ := h₃.trans (readsOn_of_event _ rfl trivial)
  have h₅ : ReadsOn e e₅ := h₄.trans (replayLoop_readsOn _ _ e₄)
  have h₆ : ReadsOn e { e₅ with journal := (Journal.endReplay e₅.journal).2 } :=
    h₅.trans (readsOn_of_event _ rfl trivial)
  unfold recover
  simp only
  split_ifs
  · exact h₁
  · exact h₂
  · exact h₃
  · exact h₄
  · exact h₅
  · exact h₆
  · exact h₆

/-- Whatever a recovery does with images and records that are sound, it leaves sound accounts,
    also where it fails. -/
private theorem recover_accounts_sound {e : CreditEngine (Observed J)} (h : AllSound e.accounts)
    (hreads : ∀ t s, .read (some t) s ∈ e.recover.2.journal.log →
      t.Sound ∧ t.payload.length < 2 ^ 64)
    (himages : ∀ i s, .loadedSnapshot (some i) s ∈ e.recover.2.journal.log →
      i.Sound ∧ i.payload.length < 2 ^ 64) : AllSound e.recover.2.accounts := by
  let e₁ := { e with journal := (Journal.open_ e.journal).2 }
  let e₂ := { e₁ with journal := (Journal.readSnapshot e₁.journal).2.2 }
  let image := (Journal.readSnapshot e₁.journal).2.1
  let e₃ := (e₂.reset.loadSnapshot image).2
  let e₄ := { e₃ with journal := (Journal.beginReplay e₃.journal).2 }
  let e₅ := (replayLoop (image.map SnapshotImage.sequence)
    (Journal.remaining e₄.journal + 1) e₄).2
  let e₆ := { e₅ with journal := (Journal.endReplay e₅.journal).2 }
  have h₃₄ : ReadsOn e₃ e₄ := readsOn_of_event _ rfl trivial
  have h₃₅ : ReadsOn e₃ e₅ := h₃₄.trans (replayLoop_readsOn _ _ e₄)
  have h₅₆ : ReadsOn e₅ e₆ := readsOn_of_event _ rfl trivial
  have hmem : .loadedSnapshot image (Journal.readSnapshot e₁.journal).1 ∈ e₃.journal.log := by
    rw [(loadSnapshot_untouched e₂.reset image).journal]
    exact List.mem_append_right _ List.mem_cons_self
  -- the image that was loaded is in the log of every later engine
  have hload : ∀ e' : CreditEngine (Observed J), ReadsOn e₃ e' →
      (∀ i s, .loadedSnapshot (some i) s ∈ e'.journal.log →
        i.Sound ∧ i.payload.length < 2 ^ 64) → AllSound e₃.accounts := by
    intro e' hon himages
    refine loadSnapshot_sound (e := e₂.reset) allSound_empty fun i hi => ?_
    refine himages i (Journal.readSnapshot e₁.journal).1 (hon.mem ?_)
    rw [← hi]
    exact hmem
  have hloop : ∀ e' : CreditEngine (Observed J), ReadsOn e₅ e' → AllSound e₃.accounts →
      (∀ t s, .read (some t) s ∈ e'.journal.log → t.Sound ∧ t.payload.length < 2 ^ 64) →
      AllSound e₅.accounts := by
    intro e' hon h₃ hreads
    exact replayLoop_sound _ _ h₃ fun t s ht => hreads t s (hon.mem ht)
  have hfinish : AllSound e₅.accounts → AllSound e₆.finishRecovery.accounts := by
    intro h₅ key a hget
    have hmap : (e₅.accounts.map fun _ a => a.forgetLiveness)[key]? = some a := hget
    rw [ExtTreeMap.getElem?_map, Option.map_eq_some_iff] at hmap
    obtain ⟨b, hb, rfl⟩ := hmap
    exact forgetLiveness_sound (h₅ key b hb)
  revert hreads himages
  unfold recover
  simp only
  split_ifs
  · exact fun _ _ => h
  · exact fun _ _ => h
  · exact fun _ himages => hload e₃ (readsOn_of_journal rfl) himages
  · exact fun _ himages => hload e₄ h₃₄ himages
  · exact fun hreads himages => hloop e₅ (readsOn_of_journal rfl) (hload e₅ h₃₅ himages) hreads
  · exact fun hreads himages => hloop e₆ h₅₆ (hload e₆ (h₃₅.trans h₅₆) himages) hreads
  · exact fun hreads himages =>
      hfinish (hloop e₆ h₅₆ (hload e₆ (h₃₅.trans h₅₆) himages) hreads)

/-- A recovery of the engine's own journal keeps the invariant. -/
theorem recover_sound {e : CreditEngine (Observed J)} (h : e.Sound)
    (hown : OwnJournal e.recover.2.journal.log) : e.recover.2.Sound := by
  have hlog : ∀ ev ∈ e.recover.2.journal.log, ev.Sound := by
    obtain ⟨events, hevents, hreads⟩ := recover_readsOn e
    rw [hevents]
    intro ev hev
    rcases List.mem_append.mp hev with hold | hnew
    · exact h.log ev hold
    · exact (hreads ev hnew).sound
  refine ⟨recover_accounts_sound h.accounts (fun t s ht => ?_) (fun i s hi => ?_), hlog⟩
  · obtain ⟨⟨s', happended⟩, hlen⟩ := hown.record ht
    exact ⟨hlog _ happended, hlen⟩
  · obtain ⟨⟨s', hwrote⟩, hlen⟩ := hown.snapshot hi
    exact ⟨hlog _ hwrote, hlen⟩

/-! ### Reachable states -/

/-- The states of an engine over any number of boots.  A restart makes a new engine over some
    journal object that the calls made so far are carried on with; what that journal returns
    is constrained only where a recovery reads it. -/
inductive Reachable : CreditEngine (Observed J) → Prop
  | made (limits : EngineLimits) (journal : J) (operator : Incarnation) (nonce : Digest128) :
      Reachable (make limits { journal } operator nonce)
  | applied {e : CreditEngine (Observed J)} (r : CreditRequest) (h : Reachable e) :
      Reachable (e.apply r).2
  | snapshotted {e : CreditEngine (Observed J)} (h : Reachable e) : Reachable e.snapshot.2
  | restarted {e : CreditEngine (Observed J)} (limits : EngineLimits) (journal : J)
      (operator : Incarnation) (nonce : Digest128) (h : Reachable e) :
      Reachable (make limits { journal, log := e.journal.log } operator nonce)
  | recovered {e : CreditEngine (Observed J)} (h : Reachable e)
      (own : OwnJournal e.recover.2.journal.log) : Reachable e.recover.2

/-- **Run lemma.**  The invariant holds in every reachable state. -/
theorem Reachable.sound {e : CreditEngine (Observed J)} (h : Reachable e) : e.Sound := by
  induction h with
  | made limits journal operator nonce => exact ⟨allSound_empty, by simp [make]⟩
  | applied r _ ih => exact apply_sound ih r
  | snapshotted _ ih => exact snapshot_sound ih
  | restarted limits journal operator nonce _ ih => exact ⟨allSound_empty, ih.log⟩
  | recovered _ own ih => exact recover_sound ih own

/-- **Accounting closure.**  In every reachable state every account satisfies the accounting
    equations over unbounded integers, its capacity is in range, its view is reported closed,
    and no subtraction of the ledger or of a Fence record wraps. -/
theorem reachable_closed {e : CreditEngine (Observed J)} (h : Reachable e) {key : UInt64}
    {a : AccountState} (found : e.accounts[key]? = some a) :
    a.totals.returned.toNat ≤ a.totals.issued.toNat ∧
    a.capacity.toNat = a.view.available.toNat + a.totals.protectedCredits.toNat +
      (a.totals.issued.toNat - a.totals.returned.toNat) ∧
    a.totals.issued.toNat - a.totals.returned.toNat =
      a.view.outstanding.toNat + a.totals.spent.toNat + a.totals.stale.toNat ∧
    1 ≤ a.capacity.toNat ∧ a.capacity.toNat ≤ a.config.maxCapacity.toNat ∧
    a.view.closed = true ∧ (LedgerPlan.start a.capacity a.totals).ExactSubtractions ∧
    ∀ r, (fenceOf a r).fencedCredit.toNat = a.view.inFlight.toNat - a.view.stale.toNat := by
  have hsound := h.sound.accounts key a found
  have hreturned := hsound.closed.returned
  have hview : ExactView a.capacity a.totals a.view := computeView_of_closed hsound.closed
  have hin := hview.inFlight
  have hout := hview.outstanding
  have havail := hview.available
  refine ⟨hreturned, by omega, by omega, hsound.positive, hsound.bounded, hview.closed,
    LedgerPlan.exactSubtractions_of_closed hsound.closed, fun r => ?_⟩
  exact UInt64.toNat_sub_of_le _ _ hview.stale_le

/-- What calls lead to from a reachable engine is reachable. -/
theorem Reachable.run {e : CreditEngine (Observed J)} (h : Reachable e)
    (rs : List CreditRequest) : Reachable (e.run rs) :=
  run_induction h (fun _ r h => .applied r h) rs

/-- A new boot over the journal of a reachable engine. -/
theorem Reachable.boot {e : CreditEngine (Observed J)} (h : Reachable e) (limits : EngineLimits)
    (nonce : Digest128) (own : OwnJournal (Fixture.boot limits e.journal nonce).journal.log) :
    Reachable (Fixture.boot limits e.journal nonce) :=
  .recovered (.restarted limits e.journal.journal Fixture.me nonce h) own

/-! ### A run over two boots -/

namespace ClosureRun

/-- The first boot: an account of capacity 8 is opened, three credits are issued, a snapshot
    is taken and one more credit is issued. -/
def first : CreditEngine (Observed InMemoryJournal) :=
  let issue := Fixture.request ⟨5, 5⟩ Fixture.me .issue
  let e := Fixture.boot {} { journal := {} } ⟨5, 5⟩
  (((e.apply (Fixture.request ⟨5, 5⟩ Fixture.me .open_ 1)).2.apply
    { issue 2 with count := 3 }).2.snapshot.2.apply (issue 3)).2

/-- The second boot, recovered from the snapshot and the record behind it. -/
def second : CreditEngine (Observed InMemoryJournal) :=
  Fixture.boot {} first.journal ⟨6, 6⟩

/-- The first boot of the fixture is reachable. -/
theorem first_reachable : Reachable first := by
  refine .applied _ (.snapshotted (.applied _ (.applied _ (.recovered (.made ..) ?_))))
  decide +kernel

/-- The second boot, evaluated once. -/
theorem evaluated : OwnJournal (Fixture.boot {} first.journal ⟨6, 6⟩).journal.log ∧
    second.accounts[Fixture.account]?.map (fun a => (a.totals.issued, a.view.available)) =
      some (4, 4) := by
  decide +kernel

/-- So is the second one. -/
theorem second_reachable : Reachable second := first_reachable.boot {} ⟨6, 6⟩ evaluated.1

/-- Four of the eight credits are outstanding in the second boot. -/
theorem second_closed : ∃ a, second.accounts[Fixture.account]? = some a ∧
    a.totals.issued = 4 ∧ a.view.available = 4 ∧ a.view.closed = true := by
  obtain ⟨a, hfound, hcounts⟩ := Option.map_eq_some_iff.mp evaluated.2
  exact ⟨a, hfound, congrArg Prod.fst hcounts, congrArg Prod.snd hcounts,
    (reachable_closed second_reachable hfound).2.2.2.2.2.1⟩

end ClosureRun

end CreditEngine

end CreditFabric
