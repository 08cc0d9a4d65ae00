import CreditFabric.Growth
import CreditFabric.Isolation
import CreditFabric.Prefix

namespace CreditFabric

/-!
# The statistics of the attempts

`stats().attempts_applied` and `stats().attempts_refused` are written into every Attempt record,
and a replay installs the pair of each record it reads.  But the record is written before the
live counter is incremented:

* live, the counters are the numbers of Attempt records with an applied and with a refused
  outcome (`run_counted`, `Counted.numbers`);
* recovered, they are the pair of the last Attempt record, which does not count that attempt
  (`replays_last`).

So the counters survive a restart exactly when there is no Attempt record
(`statistics_survive_iff`).
-/

/-! ### The records of a run -/

/-- The records of decisions that were journaled one behind the other, with the counters that
    are live behind the last one. -/
inductive Counted : List JournalRecord → UInt64 → UInt64 → Prop
  | none : Counted [] 0 0
  | next {recs : List JournalRecord} {n m : UInt64} (h : Counted recs n m)
      {intent attempt : JournalRecord} {d : DurableAttempt} (intentKind : intent.kind = .intent)
      (attemptKind : attempt.kind = .attempt)
      (intentPayload : intent.payload = encodeRequestMessage d.request)
      (attemptPayload : attempt.payload = encodeDurableAttempt d) (written : d.Written)
      (decided : d.outcome.decided = true) (applied : d.engineAppliedAttempts = n)
      (refused : d.engineRefusedAttempts = m) :
      Counted (recs ++ [intent, attempt]) (if d.outcome.applied then n + 1 else n)
        (if d.outcome.applied then m else m + 1)

/-- The number of Attempt records whose outcome passes the test. -/
def attemptsWith (test : CreditOutcome → Bool) (recs : List JournalRecord) : Nat :=
  recs.countP fun t => t.kind = .attempt &&
    match decodeDurableAttempt t.payload with
    | .ok d => test d.outcome
    | .error _ => false

/-- Every Intent and every Attempt is read by its decoder. -/
def AllDecode (maxNoteBytes : Nat) (recs : List JournalRecord) : Prop :=
  ∀ t ∈ recs, (t.kind = .intent → ∃ r, decodeRequestMessage t.payload maxNoteBytes = .ok r) ∧
    (t.kind = .attempt → ∃ d, decodeDurableAttempt t.payload = .ok d)

/-- What the decoder of the Intents reads has a note that fits the encoder. -/
theorem note_le_of_decoded {r r' : CreditRequest} {maxNoteBytes : Nat}
    (h : decodeRequestMessage (encodeRequestMessage r) maxNoteBytes = .ok r') :
    r.note.length ≤ 4096 := by
  by_contra hlong
  obtain ⟨-, -, hdata⟩ := ((decodeRequestBody_recognizes maxNoteBytes).run _ _ r').mp h
  -- the encoder leaves out even the length of a long note
  have hlength := congrArg List.length hdata
  unfold encodeRequestMessage at hlength
  rw [encodeRequestBody_of_gt (by omega), List.length_append, List.length_append,
    length_encodeRequestHead, length_encodeRequestHead, ByteWriter.length_u32] at hlength
  omega

namespace CreditEngine

variable {J : Type} [Journal J]

/-- **One decision.**  Without a snapshot a persisted decision is its Intent and its Attempt. -/
theorem persistLocked_records {e : CreditEngine (Observed J)} {r : CreditRequest}
    {o : CreditOutcome} {a : AccountState} {c : Bool} (hok : (e.persistLocked r o a c).1.ok = true)
    (hnone : ∀ t ∈ appendedRecords (e.persistLocked r o a c).2.journal.log, t.kind ≠ .snapshot) :
    appendedRecords (e.persistLocked r o a c).2.journal.log =
      appendedRecords e.journal.log ++ [e.intentRecord r, e.attemptRecord r o a c] := by
  obtain ⟨events, hlog, htrace⟩ := persistLocked_trace e r o a c
  rw [hlog, appendedRecords_append] at hnone ⊢
  generalize (e.persistLocked r o a c).1 = s at hok htrace
  cases htrace with
  | intentFailed _ hs =>
    rw [hs] at hok
    exact absurd hok (by decide)
  | attemptFailed _ _ _ hs =>
    rw [hs] at hok
    exact absurd hok (by decide)
  | kept s₁ s₂ h₁ h₂ =>
    have hdurable : appendedRecords [.appended (e.intentRecord r) s₁,
        .appended (e.attemptRecord r o a c) s₂] =
        [e.intentRecord r, e.attemptRecord r o a c] := by
      simp [appendedRecords, JournalEvent.durableRecord, h₁, h₂]
    rw [hdurable]
  | rotated s₁ s₂ s more h₁ h₂ hsnap =>
    -- a rotation that succeeds has appended a snapshot record
    cases hsnap with
    | appendFailed _ hs =>
      rw [hs] at hok
      exact absurd hok (by decide)
    | writeFailed _ _ _ hs =>
      rw [hs] at hok
      exact absurd hok (by decide)
    | rotateFailed _ _ _ _ _ hs =>
      rw [hs] at hok
      exact absurd hok (by decide)
    | durable s₃ s₄ s₅ h₃ h₄ h₅ =>
      refine absurd rfl (hnone (e.afterDecision r o a c).snapshotRecord ?_)
      refine List.mem_append_right _ ?_
      simp [appendedRecords, JournalEvent.durableRecord, h₁, h₂, h₃]

/-- The counters of the attempts and the records of the log agree. -/
def Level (e : CreditEngine (Observed J)) : Prop :=
  Counted (appendedRecords e.journal.log) e.stats.attemptsApplied e.stats.attemptsRefused

/-- What a published decision does to the counters. -/
def Counts (o : CreditOutcome) (e e' : CreditEngine (Observed J)) : Prop :=
  o.applied = true ∧ e'.stats.attemptsApplied = e.stats.attemptsApplied + 1 ∧
      e'.stats.attemptsRefused = e.stats.attemptsRefused ∨
    o.applied = false ∧ e'.stats.attemptsApplied = e.stats.attemptsApplied ∧
      e'.stats.attemptsRefused = e.stats.attemptsRefused + 1

omit [Journal J] in
/-- A published application is counted once. -/
theorem counts_publishApplied {e e₀ e₁ : CreditEngine (Observed J)} {o : CreditOutcome}
    (ho : o.applied = true) (hstats : e₀.stats = e.stats) (hframe : SameLedger e₀ e₁)
    (key : UInt64) (a : AccountState) (r : CreditRequest) :
    Counts o e (publishApplied key a r o e₁) := by
  have happlied := hframe.attemptsApplied
  have hrefused := hframe.attemptsRefused
  rw [hstats] at happlied hrefused
  refine .inl ⟨ho, ?_, hrefused⟩
  show e₁.stats.attemptsApplied + 1 = _
  rw [happlied]

omit [Journal J] in
/-- So is a published refusal. -/
theorem counts_publishRefused {e e₀ e₁ : CreditEngine (Observed J)} {o : CreditOutcome}
    (ho : o.applied = false) (hstats : e₀.stats = e.stats) (hframe : SameLedger e₀ e₁)
    (key : UInt64) (a : AccountState) (r : CreditRequest) :
    Counts o e (publishRefused key a r o e₁) := by
  have happlied := hframe.attemptsApplied
  have hrefused := hframe.attemptsRefused
  rw [hstats] at happlied hrefused
  refine .inr ⟨ho, happlied, ?_⟩
  show e₁.stats.attemptsRefused + 1 = _
  rw [hrefused]

/-- A persisted decision, behind which its counter is incremented. -/
theorem Level.persisted {e e₀ e' : CreditEngine (Observed J)} (h : e.Level) {r : CreditRequest}
    {o : CreditOutcome} {a : AccountState} {c : Bool}
    (hok : (e₀.persistLocked r o a c).1.ok = true) (hjournal : e₀.journal = e.journal)
    (hstats : e₀.stats = e.stats)
    (hafter : e'.journal = (e₀.persistLocked r o a c).2.journal)
    (hnone : ∀ t ∈ appendedRecords e'.journal.log, t.kind ≠ .snapshot)
    (written : (e₀.durableAttempt r o a c).Written) (decided : o.decided = true)
    (hcounts : Counts o e e') : e'.Level := by
  unfold Level at h ⊢
  rw [hafter] at hnone ⊢
  rw [persistLocked_records hok hnone, hjournal]
  have hrequest : (e₀.intentRecord r).payload =
      encodeRequestMessage (e₀.durableAttempt r o a c).request := rfl
  have hpayload : (e₀.attemptRecord r o a c).payload =
      encodeDurableAttempt (e₀.durableAttempt r o a c) := rfl
  have happlied : (e₀.durableAttempt r o a c).engineAppliedAttempts = e.stats.attemptsApplied :=
    congrArg EngineStats.attemptsApplied hstats
  have hrefused : (e₀.durableAttempt r o a c).engineRefusedAttempts = e.stats.attemptsRefused :=
    congrArg EngineStats.attemptsRefused hstats
  have hnext := h.next rfl rfl hrequest hpayload written decided happlied hrefused
  have houtcome : (e₀.durableAttempt r o a c).outcome = o := rfl
  rw [houtcome] at hnext
  rcases hcounts with ⟨ho, hn, hm⟩ | ⟨ho, hn, hm⟩
  · rw [hn, hm]
    simpa only [ho, if_true] using hnext
  · rw [hn, hm]
    simpa only [ho, Bool.false_eq_true, if_false] using hnext

/-- **One call.**  Without a failure and without a snapshot the counters go on to count the
    records. -/
theorem Level.apply {e : CreditEngine (Observed J)} (h : e.Level) (r : CreditRequest)
    (hhealthy : (e.apply r).2.journalFailed = false)
    (hnone : ∀ t ∈ appendedRecords (e.apply r).2.journal.log, t.kind ≠ .snapshot) :
    (e.apply r).2.Level := by
  have heffect := apply_effect e r
  generalize (e.apply r).1 = o at heffect
  generalize (e.apply r).2 = e' at heffect hhealthy hnone ⊢
  cases heffect with
  | answered => exact h
  | absorbed => exact h
  | rejected => exact h
  -- the three answers that journal count themselves once
  | opened hopens hok =>
    have hframe := persistLocked_frame (e.opening r) r (e.openOutcome r)
      (openedAccount e.limits r) true
    have hwritten : ((e.opening r).durableAttempt r (e.openOutcome r)
        (openedAccount e.limits r) true).Written :=
      durableAttempt_written _ r _ (quarantined_computeView _ _) fun _ => rfl
    exact h.persisted hok rfl rfl rfl hnone hwritten rfl
      (counts_publishApplied rfl rfl hframe _ _ r)
  | refused a hadmitted s a' hd hok =>
    have hframe := persistLocked_frame (e.refusing r a') r (refusalOutcome a r s a')
      (countRefused a' r.authority.incarnation) false
    have hwritten : ((e.refusing r a').durableAttempt r (refusalOutcome a r s a')
        (countRefused a' r.authority.incarnation) false).Written :=
      durableAttempt_written _ r _ (quarantined_computeView _ _) nofun
    exact h.persisted hok rfl rfl rfl hnone hwritten rfl
      (counts_publishRefused rfl rfl hframe _ _ r)
  | applied a hadmitted a' hd hok =>
    have hframe := persistLocked_frame (e.applying r a') r (applicationOutcome a r a')
      (countCommitted a' r.authority.incarnation) false
    have hwritten : ((e.applying r a').durableAttempt r (applicationOutcome a r a')
        (countCommitted a' r.authority.incarnation) false).Written :=
      durableAttempt_written _ r _ (quarantined_computeView _ _) fun _ => rfl
    exact h.persisted hok rfl rfl rfl hnone hwritten rfl
      (counts_publishApplied rfl rfl hframe _ _ r)
  | failed _ _ _ _ _ hlatched =>
    rw [hlatched] at hhealthy
    exact absurd hhealthy (by decide)

/-- **The live counters.**  In a run without a failure and without a snapshot they count the
    records. -/
theorem run_counted {e : CreditEngine (Observed J)} (h : e.Level) (rs : List CreditRequest)
    (hhealthy : (e.run rs).journalFailed = false)
    (hnone : ∀ t ∈ appendedRecords (e.run rs).journal.log, t.kind ≠ .snapshot) :
    (e.run rs).Level := by
  -- induction on the number of calls; the log only grows
  induction rs using List.reverseRecOn with
  | nil => exact h
  | append_singleton rs r ih =>
    rw [run_concat] at hhealthy hnone ⊢
    obtain ⟨events, hlog, -⟩ := apply_appendsFew (e.run rs) r
    refine (ih (healthy_of_apply hhealthy) fun t ht => hnone t ?_).apply r hhealthy hnone
    rw [hlog, appendedRecords_append]
    exact List.mem_append_left _ ht

/-! ### The recovered counters -/

omit [Journal J] in
/-- A replayed attempt installs the counters of its record. -/
private theorem replayAttempt_counters {e e' : CreditEngine J} {d : DurableAttempt} {s : Status}
    (h : e.replayAttempt d = (s, e')) (hs : s.ok = true) :
    e'.stats.attemptsApplied = d.engineAppliedAttempts ∧
      e'.stats.attemptsRefused = d.engineRefusedAttempts := by
  -- a replay that is Ok takes the counters from the record
  have hfinish : ∀ (e₁ : CreditEngine J) (x : AccountState), e₁.finishReplay x d = (s, e') →
      e'.stats.attemptsApplied = d.engineAppliedAttempts ∧
        e'.stats.attemptsRefused = d.engineRefusedAttempts := by
    intro e₁ x hfinished
    unfold finishReplay at hfinished
    simp only at hfinished
    split_ifs at hfinished with hverify
    · obtain ⟨rfl, -⟩ := Prod.mk.inj hfinished
      rw [hs] at hverify
      exact absurd hverify (by decide)
    · rw [← (Prod.mk.inj hfinished).2]
      exact ⟨rfl, rfl⟩
    · rw [← (Prod.mk.inj hfinished).2]
      exact ⟨rfl, rfl⟩
  unfold replayAttempt at h
  simp only at h
  split_ifs at h with hcreated hknown
  · obtain ⟨rfl, -⟩ := Prod.mk.inj h
    exact absurd hs (by decide)
  · exact hfinish _ _ h
  · cases hfound : e.accounts[d.request.authority.account]? with
    | none =>
      rw [hfound] at h
      obtain ⟨rfl, -⟩ := Prod.mk.inj h
      exact absurd hs (by decide)
    | some a =>
      simp only [hfound] at h
      split_ifs at h with hdecision
      · obtain ⟨rfl, -⟩ := Prod.mk.inj h
        rw [hs] at hdecision
        exact absurd hdecision (by decide)
      · exact hfinish _ _ h

omit [Journal J] in
/-- A replayed Attempt record is read by its decoder and installs its counters. -/
theorem replayRecord_counters {e e' : CreditEngine J} {t : JournalRecord} {s : Status}
    (hkind : t.kind = .attempt) (h : e.replayRecord none t = (s, e')) (hs : s.ok = true) :
    ∃ d, decodeDurableAttempt t.payload = .ok d ∧
      e'.stats.attemptsApplied = d.engineAppliedAttempts ∧
      e'.stats.attemptsRefused = d.engineRefusedAttempts := by
  unfold replayRecord at h
  rw [if_neg (by simp), hkind] at h
  unfold replayAttemptRecord at h
  cases hdecode : decodeDurableAttempt t.payload with
  | error s' =>
    simp only [hdecode] at h
    obtain ⟨rfl, -⟩ := Prod.mk.inj h
    exact absurd hs (by decide)
  | ok d =>
    simp only [hdecode] at h
    split_ifs at h with hchain hreplayed
    · obtain ⟨rfl, -⟩ := Prod.mk.inj h
      exact absurd hs Bool.false_ne_true
    · obtain ⟨rfl, -⟩ := Prod.mk.inj h
      rw [hs] at hreplayed
      exact absurd hreplayed (by decide)
    · have hok : (e.replayAttempt d).1.ok = true := by
        cases hflag : (e.replayAttempt d).1.ok with
        | true => rfl
        | false => exact absurd (by rw [hflag]; rfl) hreplayed
      have hcounters := replayAttempt_counters (Prod.mk.eta (p := e.replayAttempt d)).symm hok
      rw [← (Prod.mk.inj h).2]
      exact ⟨d, rfl, hcounters⟩

omit [Journal J] in
/-- An intent that replayed was one that decodes. -/
private theorem replayRecord_intentRead {e e' : CreditEngine J} {t : JournalRecord} {s : Status}
    (hkind : t.kind = .intent) (h : e.replayRecord none t = (s, e')) (hs : s.ok = true) :
    ∃ r, decodeRequestMessage t.payload e.limits.maxNoteBytes = .ok r := by
  unfold replayRecord at h
  rw [if_neg (by simp), hkind] at h
  unfold replayIntent at h
  cases hdecode : decodeRequestMessage t.payload e.limits.maxNoteBytes with
  | ok r => exact ⟨r, rfl⟩
  | error s' =>
    simp only [hdecode] at h
    obtain ⟨rfl, -⟩ := Prod.mk.inj h
    exact absurd hs (by decide)

omit [Journal J] in
/-- What a replay has read was decoded. -/
theorem ReplaysTo.allDecode {e e' : CreditEngine J} {recs : List JournalRecord}
    (h : ReplaysTo none e recs e') : AllDecode e.limits.maxNoteBytes recs := by
  induction h with
  | done => exact fun t ht => absurd ht List.not_mem_nil
  | @next e e₁ e' t rest j s hrecord hs tail ih =>
    have hframe := replayRecord_untouched { e with journal := j } none t
    rw [hrecord] at hframe
    have hlimits : e₁.limits = e.limits := hframe.limits
    rw [hlimits] at ih
    intro t' ht'
    rcases List.mem_cons.mp ht' with rfl | htail
    · refine ⟨fun hkind =>
        replayRecord_intentRead (e := { e with journal := j }) hkind hrecord hs, fun hkind => ?_⟩
      obtain ⟨d, hdecode, -⟩ := replayRecord_counters hkind hrecord hs
      exact ⟨d, hdecode⟩
    · exact ih t' htail

end CreditEngine

/-- The decision behind such records is read back whole. -/
theorem decodes_of_all {maxNoteBytes : Nat} {recs : List JournalRecord}
    {intent attempt : JournalRecord} {d : DurableAttempt}
    (h : AllDecode maxNoteBytes (recs ++ [intent, attempt])) (intentKind : intent.kind = .intent)
    (intentPayload : intent.payload = encodeRequestMessage d.request)
    (attemptPayload : attempt.payload = encodeDurableAttempt d) (written : d.Written) :
    decodeDurableAttempt attempt.payload = .ok d := by
  have hmem : intent ∈ recs ++ [intent, attempt] :=
    List.mem_append_right _ List.mem_cons_self
  obtain ⟨r, hdecode⟩ := (h intent hmem).1 intentKind
  rw [intentPayload] at hdecode
  rw [attemptPayload]
  exact decodeDurableAttempt_encode written (note_le_of_decoded hdecode)

/-- **The numbers of the records.**  The counters behind such records are the numbers of
    Attempt records with an applied outcome and with a decided one that is not applied. -/
theorem Counted.numbers {recs : List JournalRecord} {n m : UInt64} (h : Counted recs n m)
    {maxNoteBytes : Nat} (hdecodes : AllDecode maxNoteBytes recs) :
    n = UInt64.ofNat (attemptsWith (fun o => o.applied) recs) ∧
      m = UInt64.ofNat (attemptsWith (fun o => o.decided && !o.applied) recs) := by
  induction h with
  | none => exact ⟨rfl, rfl⟩
  | @next recs n m h intent attempt d intentKind attemptKind intentPayload attemptPayload written
      decided applied refused ih =>
    obtain ⟨hn, hm⟩ := ih fun t ht => hdecodes t (List.mem_append_left _ ht)
    have hdecode := decodes_of_all hdecodes intentKind intentPayload attemptPayload written
    -- the Intent counts for nothing, the Attempt for its outcome
    have hpair : ∀ test, attemptsWith test (recs ++ [intent, attempt]) =
        attemptsWith test recs + if test d.outcome then 1 else 0 := by
      intro test
      unfold attemptsWith
      rw [List.countP_append, List.countP_cons, List.countP_singleton]
      simp [intentKind, attemptKind, hdecode]
    rw [hpair, hpair, decided]
    cases d.outcome.applied with
    | true =>
      refine ⟨?_, ?_⟩
      · simp only [if_true]
        rw [UInt64.ofNat_add, ← hn]
        rfl
      · simpa using hm
    | false =>
      refine ⟨?_, ?_⟩
      · simpa using hn
      · simp only [Bool.not_false, Bool.and_self, if_true, Bool.false_eq_true, if_false]
        rw [UInt64.ofNat_add, ← hm]
        rfl

namespace CreditEngine

variable {J : Type} [Journal J]

omit [Journal J] in
/-- **The pair of the last record.**  It does not count the attempt it was written for. -/
theorem replays_last {recs : List JournalRecord} {n m : UInt64} (h : Counted recs n m)
    {e e' : CreditEngine J} (hreplays : ReplaysTo none e recs e') :
    recs = [] ∧ e'.stats = e.stats ∨ attemptRecords recs ≠ [] ∧
      ¬ (e'.stats.attemptsApplied = n ∧ e'.stats.attemptsRefused = m) := by
  have hdecodes := ReplaysTo.allDecode hreplays
  cases h with
  | none =>
    cases hreplays with
    | done => exact .inl ⟨rfl, rfl⟩
  | @next recs n m h intent attempt d intentKind attemptKind intentPayload attemptPayload written
      decided applied refused =>
    have hdecode := decodes_of_all hdecodes intentKind intentPayload attemptPayload written
    have hsplit : recs ++ [intent, attempt] = (recs ++ [intent]) ++ [attempt] := by simp
    rw [hsplit] at hreplays
    obtain ⟨e₁, e₂, j, j', s, -, hrecord, hs, rfl⟩ := ReplaysTo.concat hreplays
    obtain ⟨d', hdecode', hn, hm⟩ := replayRecord_counters attemptKind hrecord hs
    obtain rfl : d = d' := Except.ok.inj (hdecode.symm.trans hdecode')
    refine .inr ⟨?_, ?_⟩
    · intro hnil
      have hmem : attempt ∈ attemptRecords (recs ++ [intent, attempt]) :=
        List.mem_filter.mpr ⟨List.mem_append_right _ (by simp), by simp [attemptKind]⟩
      rw [hnil] at hmem
      exact absurd hmem List.not_mem_nil
    · rintro ⟨hn', hm'⟩
      change e₂.stats.attemptsApplied = _ at hn'
      change e₂.stats.attemptsRefused = _ at hm'
      rw [hn, applied] at hn'
      rw [hm, refused] at hm'
      -- one of the two counters was incremented behind the record
      cases happlied : d.outcome.applied with
      | true =>
        rw [happlied, if_pos rfl] at hn'
        exact absurd hn' (by simp)
      | false =>
        rw [happlied, if_neg Bool.false_ne_true] at hm'
        exact absurd hm' (by simp)

/-- The counters that a recovery without an image leaves are those of its replay, which begins
    with the counters from before. -/
theorem recover_replays {e : CreditEngine J} {recs : List JournalRecord} {j' : J}
    (hyields : Yields e.journal none recs j') (hok : e.recover.1.ok = true) :
    ∃ e₁ e₂ : CreditEngine J, ReplaysTo none e₁ recs e₂ ∧ e₁.stats = e.stats ∧
      e.recover.2.stats.attemptsApplied = e₂.stats.attemptsApplied ∧
      e.recover.2.stats.attemptsRefused = e₂.stats.attemptsRefused := by
  obtain ⟨j, s, e₁, e₂, hload, -, hreplays, heq⟩ := recover_inv hyields hok
  have hstart : { e with journal := j }.reset = e₁ := congrArg Prod.snd hload
  refine ⟨e₁, e₂, hreplays, ?_, ?_, ?_⟩
  · rw [← hstart]
    rfl
  · rw [heq]
    rfl
  · rw [heq]
    rfl

/-- A boot from an empty journal has counted nothing. -/
private theorem boot_level (limits : EngineLimits) (j : J) (operator : Incarnation)
    (nonce : Digest128) {o' : Observed J} (hempty : Yields (Observed.mk j []) none [] o') :
    (boot limits (Observed.mk j []) operator nonce).Level := by
  obtain ⟨e', hrecover, -⟩ :=
    recover_of_empty (e := make limits (Observed.mk j []) operator nonce) hempty
  have hok : (make limits (Observed.mk j []) operator nonce).recover.1.ok = true := by
    rw [hrecover]
    rfl
  obtain ⟨e₁, e₂, hreplays, hstats, happlied, hrefused⟩ :=
    recover_replays (e := make limits (Observed.mk j []) operator nonce) hempty hok
  have hlog : appendedRecords (boot limits (Observed.mk j []) operator nonce).journal.log = [] := by
    obtain ⟨events, hevents, hreads⟩ :=
      recover_readsOn (make limits (Observed.mk j []) operator nonce)
    unfold boot
    rw [hevents]
    exact appendedRecords_of_isRead hreads
  have hsame : e₂.stats = e₁.stats := by
    cases hreplays with
    | done => rfl
  unfold Level
  rw [hlog]
  unfold boot
  rw [happlied, hrefused, hsame, hstats]
  exact .none

/-- **The statistics survive.**  After a run of one boot from an empty journal without a journal
    failure and without a snapshot the live counters are the numbers of Attempt records with an
    applied and with a refused outcome; and a new engine that recovers from the records has
    these counters exactly when there is no Attempt record. -/
theorem statistics_survive_iff (limits : EngineLimits) (j : J) (operator : Incarnation)
    (nonce : Digest128) {o' : Observed J} (hempty : Yields (Observed.mk j []) none [] o')
    (rs : List CreditRequest)
    (hhealthy : ((boot limits (Observed.mk j []) operator nonce).run rs).journalFailed = false)
    (hnone : ∀ t ∈ appendedRecords
      ((boot limits (Observed.mk j []) operator nonce).run rs).journal.log, t.kind ≠ .snapshot)
    (limits' : EngineLimits) {J' : Type} [Journal J'] {j' j'' : J'}
    (hyields : Yields j' none (appendedRecords
      ((boot limits (Observed.mk j []) operator nonce).run rs).journal.log) j'')
    (operator' : Incarnation) (nonce' : Digest128)
    (hok : (make limits' j' operator' nonce').recover.1.ok = true) :
    let live := ((boot limits (Observed.mk j []) operator nonce).run rs).stats
    let recs := appendedRecords
      ((boot limits (Observed.mk j []) operator nonce).run rs).journal.log
    let recovered := (make limits' j' operator' nonce').recover.2.stats
    (live.attemptsApplied = UInt64.ofNat (attemptsWith (fun o => o.applied) recs) ∧
      live.attemptsRefused =
        UInt64.ofNat (attemptsWith (fun o => o.decided && !o.applied) recs)) ∧
    (recovered.attemptsApplied = live.attemptsApplied ∧
        recovered.attemptsRefused = live.attemptsRefused ↔ attemptRecords recs = []) := by
  intro live recs recovered
  have hlevel : Counted recs live.attemptsApplied live.attemptsRefused :=
    run_counted (boot_level limits j operator nonce hempty) rs hhealthy hnone
  obtain ⟨e₁, e₂, hreplays, hstats, happlied, hrefused⟩ := recover_replays hyields hok
  refine ⟨hlevel.numbers (ReplaysTo.allDecode hreplays), ?_⟩
  change recovered.attemptsApplied = _ at happlied
  change recovered.attemptsRefused = _ at hrefused
  rw [happlied, hrefused]
  -- no attempt was replayed, or the last one set the counters
  rcases replays_last hlevel hreplays with ⟨hnil, hsame⟩ | ⟨hsome, hdiffer⟩
  · change recs = [] at hnil
    rw [hnil] at hlevel ⊢
    obtain ⟨hn, hm⟩ := hlevel.numbers (fun t ht => absurd ht List.not_mem_nil : AllDecode 0 [])
    rw [hsame, hstats, hn, hm]
    exact ⟨fun _ => rfl, fun _ => ⟨rfl, rfl⟩⟩
  · exact ⟨fun h => absurd h hdiffer, fun hnil => absurd hnil hsome⟩

/-! ### One attempt -/

namespace OneAttempt

/-- The first boot behind some calls. -/
def live (rs : List CreditRequest) : CreditEngine (Observed InMemoryJournal) :=
  (boot {} (Observed.mk {} []) Fixture.me ⟨7, 7⟩).run rs

/-- What the first boot left on the disk. -/
def disk (rs : List CreditRequest) : Disk := { records := appendedRecords (live rs).journal.log }

/-- A new engine on the records of the first boot. -/
def second (rs : List CreditRequest) : CreditEngine (Observed InMemoryJournal) :=
  make {} (Observed.mk (disk rs).inMemory []) Fixture.me ⟨8, 8⟩

/-- An account is opened. -/
def asked : List CreditRequest := [Fixture.request ⟨7, 7⟩ Fixture.me .open_ 1]

/-- One attempt applied before the restart, none counted after it. -/
theorem evaluated : (live asked).journalFailed = false ∧
    (∀ t ∈ appendedRecords (live asked).journal.log, t.kind ≠ .snapshot) ∧
    (live asked).stats.attemptsApplied = 1 ∧ (second asked).recover.1.ok = true ∧
    (second asked).recover.2.stats.attemptsApplied = 0 := by
  decide +kernel

/-- The counters of the first boot are those of its one record, and are not recovered. -/
theorem asked_counted :
    ((live asked).stats.attemptsApplied = UInt64.ofNat
        (attemptsWith (fun o => o.applied) (appendedRecords (live asked).journal.log)) ∧
      (live asked).stats.attemptsRefused = UInt64.ofNat
        (attemptsWith (fun o => o.decided && !o.applied)
          (appendedRecords (live asked).journal.log))) ∧
    ((second asked).recover.2.stats.attemptsApplied = (live asked).stats.attemptsApplied ∧
        (second asked).recover.2.stats.attemptsRefused = (live asked).stats.attemptsRefused ↔
      attemptRecords (appendedRecords (live asked).journal.log) = []) := by
  obtain ⟨hhealthy, hnone, -, hok, -⟩ := evaluated
  -- from here on the calls do not matter
  generalize asked = rs at hhealthy hnone hok ⊢
  obtain ⟨o₁, hempty⟩ : ∃ o₁, Yields (Observed.mk ({} : InMemoryJournal) []) none [] o₁ :=
    Disk.yields_inMemory {}
  obtain ⟨o₂, hyields⟩ := (disk rs).yields_inMemory
  exact statistics_survive_iff {} ({} : InMemoryJournal) Fixture.me ⟨7, 7⟩ hempty rs hhealthy
    hnone {} hyields Fixture.me ⟨8, 8⟩ hok

/-- **A forgotten attempt.**  The first boot has applied one attempt; the second recovers its
    record and says that none was applied. -/
theorem asked_forgotten :
    (live asked).stats.attemptsApplied = 1 ∧
    (second asked).recover.2.stats.attemptsApplied = 0 ∧
    ¬ ∀ rs : List CreditRequest, (live rs).journalFailed = false →
      (∀ t ∈ appendedRecords (live rs).journal.log, t.kind ≠ .snapshot) →
      (second rs).recover.1.ok = true →
      (second rs).recover.2.stats.attemptsApplied = (live rs).stats.attemptsApplied ∧
        (second rs).recover.2.stats.attemptsRefused = (live rs).stats.attemptsRefused := by
  obtain ⟨hhealthy, hnone, hone, hok, hzero⟩ := evaluated
  refine ⟨hone, hzero, fun hclaim => ?_⟩
  have hsame := (hclaim asked hhealthy hnone hok).1
  rw [hone, hzero] at hsame
  exact absurd hsame (by decide)

end OneAttempt

end CreditEngine

end CreditFabric
