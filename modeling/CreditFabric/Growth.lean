import CreditFabric.Bounds
import CreditFabric.Sequences

namespace CreditFabric

/-!
# The length of the log

A commit appends two records and counts two; when the count reaches
`journal_records_per_snapshot` a snapshot empties the log and the count starts again.  A
recovery counts the Attempt records it replays, one for each commit in the log.

* `Disk.replayedAttempts` is the count behind a recovery (`Recovers.counts`).
* `Paired` relates the log at rest to the count: behind a restart that replayed `d` attempts
  the log is `d` records longer than the count, unfinished Intents apart.
* So the log stays within the bound of one boot while no restart replays more than one attempt,
  or two when the bound is even.
-/

/-- The number of records of one kind. -/
def ofKind (k : JournalRecordKind) (recs : List JournalRecord) : Nat :=
  recs.countP fun t => t.kind = k

/-- The Intent records that no Attempt record has followed up: a commit appends one of each. -/
def unfinished (recs : List JournalRecord) : Nat :=
  ofKind .intent recs - ofKind .attempt recs

/-- Records of a kind in two lists. -/
theorem ofKind_append (k : JournalRecordKind) (recs recs' : List JournalRecord) :
    ofKind k (recs ++ recs') = ofKind k recs + ofKind k recs' :=
  List.countP_append

/-- A log of Intents and Attempts only. -/
theorem length_of_kinds {recs : List JournalRecord}
    (h : ∀ t ∈ recs, t.kind = .intent ∨ t.kind = .attempt) :
    recs.length = ofKind .intent recs + ofKind .attempt recs := by
  induction recs with
  | nil => rfl
  | cons t recs ih =>
    have htail := ih fun t' ht' => h t' (List.mem_cons_of_mem t ht')
    unfold ofKind at htail ⊢
    rw [List.length_cons, List.countP_cons, List.countP_cons]
    rcases h t List.mem_cons_self with hkind | hkind
    · simp only [hkind, decide_true, reduceCtorEq, decide_false, if_true, Bool.false_eq_true,
        if_false]
      omega
    · simp only [hkind, decide_true, reduceCtorEq, decide_false, if_true, Bool.false_eq_true,
        if_false]
      omega

/-! ### The count behind a recovery -/

/-- The records of decisions that a replay behind `snap` applies. -/
def replayedIn (snap : Option UInt64) (recs : List JournalRecord) : Nat :=
  recs.countP fun t => t.kind = .attempt ∧ snap.any (t.sequence ≤ ·) = false

/-- The attempts a recovery of the storage replays. -/
def Disk.replayedAttempts (d : Disk) : Nat :=
  replayedIn (d.snapshot.map SnapshotImage.sequence) d.records

/-- Behind a snapshot that covers none of them all attempts of a log are replayed. -/
theorem Disk.replayedAttempts_of_uncovered {d : Disk}
    (h : ∀ t ∈ d.records, t.kind = .attempt →
      (d.snapshot.map SnapshotImage.sequence).any (t.sequence ≤ ·) = false) :
    d.replayedAttempts = ofKind .attempt d.records := by
  unfold replayedAttempts replayedIn ofKind
  refine List.countP_congr fun t ht => ?_
  simp only [decide_eq_true_eq]
  exact ⟨fun hboth => hboth.1, fun hkind => ⟨hkind, h t ht hkind⟩⟩

namespace CreditEngine

variable {J : Type}

/-- Restored accounts are no records of the log. -/
theorem restoreAccounts_counts (e : CreditEngine J) (l : List DurableAccount) :
    (e.restoreAccounts l).2.journalRecords = e.journalRecords := by
  induction l generalizing e with
  | nil => rfl
  | cons d rest ih =>
    unfold restoreAccounts
    simp only
    split_ifs
    · rfl
    · rfl
    · exact ih (e.put _ _)

/-- The last step of a replay does not count. -/
theorem finishReplay_counts (e : CreditEngine J) (a : AccountState) (d : DurableAttempt) :
    (e.finishReplay a d).2.journalRecords = e.journalRecords := by
  unfold finishReplay
  simp only
  split_ifs <;> rfl

/-- Nor does the replay of an Attempt, whose record the loop has counted. -/
theorem replayAttempt_counts (e : CreditEngine J) (d : DurableAttempt) :
    (e.replayAttempt d).2.journalRecords = e.journalRecords := by
  unfold replayAttempt
  simp only
  split_ifs
  · rfl
  · exact finishReplay_counts e _ d
  · cases e.accounts[d.request.authority.account]? with
    | none => rfl
    | some a =>
      simp only
      split_ifs
      · rfl
      · exact finishReplay_counts e _ d

/-- Nor does a mark. -/
private theorem markAmbiguous_counts (e : CreditEngine J) (r : CreditRequest) (seq : UInt64) :
    (e.markAmbiguous r seq).journalRecords = e.journalRecords := by
  unfold markAmbiguous
  cases e.accounts[r.authority.account]? with
  | none => rfl
  | some a =>
    simp only
    cases a.markAmbiguous e.limits.maxAmbiguousAttempts r seq with
    | none => rfl
    | some a' => rfl

/-- One record: only an Attempt that the snapshot does not cover is counted. -/
theorem replayRecord_counts {e e' : CreditEngine J} {snap : Option UInt64} {t : JournalRecord}
    {s : Status} (h : e.replayRecord snap t = (s, e')) (hs : s.ok = true) :
    e'.journalRecords = e.journalRecords + replayedIn snap [t] := by
  have hone : replayedIn snap [t] =
      if t.kind = .attempt ∧ snap.any (t.sequence ≤ ·) = false then 1 else 0 := by
    unfold replayedIn
    rw [List.countP_singleton]
    simp only [decide_eq_true_eq]
  rw [hone]
  unfold replayRecord at h
  split_ifs at h with hskip
  · obtain ⟨-, rfl⟩ := Prod.mk.inj h
    rw [if_neg (by rw [hskip]; simp)]
    rfl
  · rw [Bool.not_eq_true] at hskip
    cases hkind : t.kind with
    | unknown =>
      rw [hkind] at h
      obtain ⟨rfl, -⟩ := Prod.mk.inj h
      exact absurd hs (by decide)
    | intent =>
      rw [hkind] at h
      replace h : e.replayIntent t = (s, e') := h
      rw [if_neg (by simp)]
      unfold replayIntent at h
      split at h
      · obtain ⟨rfl, -⟩ := Prod.mk.inj h
        exact absurd hs (by decide)
      · obtain ⟨-, rfl⟩ := Prod.mk.inj h
        exact markAmbiguous_counts e _ _
    | snapshot =>
      rw [hkind] at h
      replace h : e.replaySnapshot t = (s, e') := h
      rw [if_neg (by simp)]
      unfold replaySnapshot at h
      split at h
      · obtain ⟨rfl, -⟩ := Prod.mk.inj h
        exact absurd hs (by decide)
      · rename_i restored
        simp only at h
        split_ifs at h with hsequence hrestored
        · obtain ⟨rfl, -⟩ := Prod.mk.inj h
          exact absurd hs (by decide)
        · obtain ⟨rfl, -⟩ := Prod.mk.inj h
          rw [hs] at hrestored
          exact absurd hrestored (by decide)
        · obtain ⟨-, rfl⟩ := Prod.mk.inj h
          exact restoreAccounts_counts _ _
    | attempt =>
      rw [hkind] at h
      replace h : e.replayAttemptRecord t = (s, e') := h
      rw [if_pos ⟨rfl, hskip⟩]
      unfold replayAttemptRecord at h
      split at h
      · obtain ⟨rfl, -⟩ := Prod.mk.inj h
        exact absurd hs (by decide)
      · rename_i attempt hdecode
        simp only at h
        split_ifs at h with hchain hreplayed
        · obtain ⟨rfl, -⟩ := Prod.mk.inj h
          exact absurd (show false = true from hs) (by decide)
        · obtain ⟨rfl, -⟩ := Prod.mk.inj h
          rw [hs] at hreplayed
          exact absurd hreplayed (by decide)
        · obtain ⟨-, rfl⟩ := Prod.mk.inj h
          show (e.replayAttempt attempt).2.journalRecords + 1 = _
          rw [replayAttempt_counts]

/-- **The count behind a replay.**  It is the number of Attempts that were replayed. -/
theorem ReplaysTo.counts {e e' : CreditEngine J} {snap : Option UInt64}
    {recs : List JournalRecord} (h : ReplaysTo snap e recs e') :
    e'.journalRecords = e.journalRecords + replayedIn snap recs := by
  induction h with
  | done => rfl
  | @next e e₁ e' t rest j s hrecord hs tail ih =>
    have hone := replayRecord_counts hrecord hs
    have hsplit : replayedIn snap ([t] ++ rest) = replayedIn snap [t] + replayedIn snap rest :=
      List.countP_append
    rw [List.singleton_append] at hsplit
    rw [ih, hone, hsplit, Nat.add_assoc]

/-- A snapshot is no record of the log. -/
theorem loadSnapshot_counts {e e' : CreditEngine J} {image : Option SnapshotImage} {s : Status}
    (h : e.loadSnapshot image = (s, e')) (hs : s.ok = true) :
    e'.journalRecords = e.journalRecords := by
  unfold loadSnapshot at h
  cases image with
  | none =>
    obtain ⟨-, rfl⟩ := Prod.mk.inj h
    rfl
  | some image =>
    simp only at h
    split at h
    · obtain ⟨rfl, -⟩ := Prod.mk.inj h
      exact absurd hs (by decide)
    · split_ifs at h with hsequence hrestored
      · obtain ⟨rfl, -⟩ := Prod.mk.inj h
        exact absurd hs (by decide)
      · obtain ⟨rfl, -⟩ := Prod.mk.inj h
        rw [hs] at hrestored
        exact absurd hrestored (by decide)
      · obtain ⟨-, rfl⟩ := Prod.mk.inj h
        exact restoreAccounts_counts _ _

/-- The count behind a recovery is read off the disk. -/
theorem recover_counts [Journal J] {e : CreditEngine (Observed J)} {d : Disk} {o : Observed J}
    (hyields : Yields e.journal d.snapshot d.records o) (hok : e.recover.1.ok = true) :
    e.recover.2.journalRecords = d.replayedAttempts ∧ e.recover.2.recovered = true := by
  obtain ⟨j, s, e₁, e₂, hload, hs, hreplays, heq⟩ := recover_inv hyields hok
  have hloaded : e₁.journalRecords = 0 := loadSnapshot_counts hload hs
  rw [heq]
  refine ⟨?_, rfl⟩
  show e₂.journalRecords = _
  rw [hreplays.counts, hloaded, Nat.zero_add]
  rfl

end CreditEngine

/-! ### The records of one call -/

/-- Whether a journal call appends. -/
def JournalEvent.appends : JournalEvent → Bool
  | .appended _ _ => true
  | _ => false

/-- A log grows by the appends at most. -/
theorem Disk.length_afterAll {d d' : Disk} {evs : List JournalEvent} (h : d' ∈ d.afterAll evs) :
    d'.records.length ≤ d.records.length + evs.countP JournalEvent.appends := by
  induction evs generalizing d with
  | nil =>
    rw [mem_afterAll_nil.mp h]
    exact Nat.le_add_right _ _
  | cons ev evs ih =>
    obtain ⟨d₁, hd₁, hrest⟩ := mem_afterAll_cons.mp h
    have hone : d₁.records.length ≤ d.records.length + if ev.appends then 1 else 0 := by
      cases ev with
      | appended t s =>
        rcases after_appended hd₁ with happended | ⟨rfl, -⟩
        · rw [happended.records, List.length_append]
          exact le_rfl
        · exact Nat.le_add_right _ _
      | wroteSnapshot i s =>
        rcases after_wroteSnapshot hd₁ with rfl | ⟨rfl, -⟩
        · exact le_rfl
        · exact le_rfl
      | rotated n s =>
        simp only [after] at hd₁
        have hfilter := List.length_filter_le (fun t => !(t.sequence ≤ n)) d.records
        split_ifs at hd₁
        · rw [List.mem_singleton.mp hd₁]
          exact hfilter
        · rcases List.mem_cons.mp hd₁ with rfl | hd₁
          · exact le_rfl
          · rw [List.mem_singleton.mp hd₁]
            exact hfilter
      | _ =>
        rw [List.mem_singleton.mp hd₁]
        exact le_rfl
    rw [List.countP_cons]
    have htail := ih hrest
    omega

namespace CreditEngine

variable {J : Type} [Journal J] {e e' : CreditEngine (Observed J)}

/-- A call appends an Intent, an Attempt and a Snapshot record at most. -/
def AppendsFew (e e' : CreditEngine (Observed J)) : Prop :=
  ∃ evs, e'.journal.log = e.journal.log ++ evs ∧ evs.countP JournalEvent.appends ≤ 3

omit [Journal J] in
/-- A snapshot appends one record at most. -/
theorem SnapshotTrace.few {s : Status} {evs : List JournalEvent} (h : SnapshotTrace e s evs) :
    evs.countP JournalEvent.appends ≤ 1 := by
  cases h <;> exact le_rfl

/-- A commit appends three at most. -/
theorem PersistTrace.few {r : CreditRequest} {o : CreditOutcome} {a : AccountState} {c : Bool}
    {s : Status} {evs : List JournalEvent} (h : PersistTrace e r o a c s evs) :
    evs.countP JournalEvent.appends ≤ 3 := by
  cases h with
  | intentFailed => exact Nat.le_add_left 1 2
  | attemptFailed => exact Nat.le_add_left 2 1
  | kept => exact Nat.le_add_left 2 1
  | rotated s₁ s₂ s more h₁ h₂ hsnap =>
    have hmore := hsnap.few
    rw [List.countP_cons, List.countP_cons]
    simp only [JournalEvent.appends, if_true]
    omega

omit [Journal J] in
/-- Without journal calls nothing is appended. -/
theorem appendsFew_quiet (h : e'.journal = e.journal) : AppendsFew e e' :=
  ⟨[], by rw [h, List.append_nil], Nat.zero_le _⟩

/-- What is settled is committed once at most. -/
theorem settle_appendsFew {r : CreditRequest} {o : CreditOutcome} {a : AccountState} {c : Bool}
    {f g : CreditEngine (Observed J) → CreditEngine (Observed J)}
    (hf : ∀ e', (f e').journal = e'.journal) (hg : ∀ e', (g e').journal = e'.journal) :
    AppendsFew e (e.settle r o a c f g).2 := by
  obtain ⟨evs, hlog, htrace⟩ := persistLocked_trace e r o a c
  refine ⟨evs, ?_, htrace.few⟩
  rw [← hlog]
  cases hok : (e.persistLocked r o a c).1.ok with
  | false =>
    rw [settle_of_failed hok]
    exact congrArg Observed.log (hf _)
  | true =>
    rw [settle_of_ok hok]
    exact congrArg Observed.log (hg _)

/-- A call appends three records at most. -/
theorem apply_appendsFew (e : CreditEngine (Observed J)) (r : CreditRequest) :
    AppendsFew e (e.apply r).2 := by
  have hcase := e.apply_cases r
  generalize e.apply r = result at hcase ⊢
  cases hcase with
  | answered => exact appendsFew_quiet rfl
  | absorbed => exact appendsFew_quiet rfl
  | opened => exact settle_appendsFew (e := e.opening r) (fun _ => rfl) fun _ => rfl
  | decided a hadmitted =>
    unfold settleDecision follow
    cases e.decision a r with
    | reject s a' => exact appendsFew_quiet rfl
    | refuse s a' =>
      exact settle_appendsFew (e := e.refusing r a') (fun _ => rfl) fun _ => rfl
    | proceed a' =>
      exact settle_appendsFew (e := e.applying r a') (fun _ => rfl) fun _ => rfl

/-- So does an explicit snapshot. -/
theorem snapshot_appendsFew (e : CreditEngine (Observed J)) : AppendsFew e e.snapshot.2 := by
  unfold snapshot
  split_ifs
  · exact appendsFew_quiet rfl
  · exact appendsFew_quiet rfl
  · obtain ⟨evs, hlog, htrace⟩ := (snapshotLocked_snapshotted e).trace
    exact ⟨evs, hlog, htrace.few.trans (by omega)⟩

/-- The records of a commit: an Intent and an Attempt with the next two sequence numbers. -/
structure Pair (e : CreditEngine (Observed J)) (t t' : JournalRecord) : Prop where
  intent : t.kind = .intent
  attempt : t'.kind = .attempt
  first : t.sequence = e.nextJournalSequence
  second : t'.sequence = e.nextJournalSequence + 1

/-- What one call that leaves the journal healthy does to the log and to the count. -/
inductive Grows (e e' : CreditEngine (Observed J)) : Prop
  | quiet (journal : e'.journal = e.journal) (count : e'.journalRecords = e.journalRecords)
  | kept (t t' : JournalRecord) (s s' : Status) (pair : Pair e t t') (hs : s.ok = true)
      (hs' : s'.ok = true)
      (log : e'.journal.log = e.journal.log ++ [.appended t s, .appended t' s'])
      (count : e'.journalRecords = e.journalRecords + 2)
      (early : e'.journalRecords < e.limits.journalRecordsPerSnapshot)
  | rotated (t t' t'' : JournalRecord) (i : SnapshotImage) (s s' s₁ s₂ s₃ : Status)
      (pair : Pair e t t') (hs : s.ok = true) (hs' : s'.ok = true) (h₁ : s₁.ok = true)
      (h₂ : s₂.ok = true) (h₃ : s₃.ok = true)
      (covered : t''.sequence = e.nextJournalSequence + 1 + 1)
      (log : e'.journal.log = e.journal.log ++ [.appended t s, .appended t' s',
        .appended t'' s₁, .wroteSnapshot i s₂, .rotated (e.nextJournalSequence + 1 + 1) s₃])
      (count : e'.journalRecords = 0)

/-- A commit that succeeds has counted what it has appended. -/
theorem Persisted.grows {r : CreditRequest} {o : CreditOutcome} {a : AccountState} {c : Bool}
    {s : Status} (h : Persisted e r o a c s e') (hok : s.ok = true) : Grows e e' := by
  have hpair : Pair e (e.intentRecord r) (e.attemptRecord r o a c) := ⟨rfl, rfl, rfl, rfl⟩
  cases h with
  | appendFailed h hs =>
    rw [hs] at hok
    exact absurd hok (by decide)
  | kept hi ha hrot =>
    refine .kept _ _ _ _ hpair hi ha (List.append_assoc _ _ _) rfl ?_
    exact Nat.lt_of_not_le (not_or.mp hrot).1
  | rotated hi ha hrot hsnap =>
    cases hsnap with
    | appendFailed hfailed =>
      rw [hfailed] at hok
      exact absurd hok (by decide)
    | writeFailed _ hfailed =>
      rw [hfailed] at hok
      exact absurd hok (by decide)
    | rotateFailed _ _ hfailed =>
      rw [hfailed] at hok
      exact absurd hok (by decide)
    | durable h₁ h₂ h₃ =>
      refine .rotated _ _ (e.afterDecision r o a c).snapshotRecord
        (e.afterDecision r o a c).snapshotImage _ _ _ _ _ hpair hi ha h₁ h₂ h₃ rfl ?_ rfl
      show ((((e.journal.log ++ [_]) ++ [_]) ++ [_]) ++ [_]) ++ [_] = _
      simp only [List.append_assoc, List.cons_append, List.nil_append]
      rfl

omit [Journal J] in
/-- What grows looks at the journal and the counters only. -/
theorem Grows.of_same (h : Grows e e') {e₀ e₁ : CreditEngine (Observed J)}
    (hjournal : e₀.journal = e.journal) (hcount : e₀.journalRecords = e.journalRecords)
    (hnext : e₀.nextJournalSequence = e.nextJournalSequence) (hlimits : e₀.limits = e.limits)
    (hjournal' : e₁.journal = e'.journal) (hcount' : e₁.journalRecords = e'.journalRecords) :
    Grows e₀ e₁ := by
  have hpair : ∀ {t t' : JournalRecord}, Pair e t t' → Pair e₀ t t' := fun hpair =>
    ⟨hpair.intent, hpair.attempt, by rw [hnext, hpair.first], by rw [hnext, hpair.second]⟩
  cases h with
  | quiet journal count =>
    exact .quiet (by rw [hjournal, hjournal', journal]) (by rw [hcount, hcount', count])
  | kept t t' s s' pair hs hs' log count early =>
    refine .kept t t' s s' (hpair pair) hs hs' ?_ (by rw [hcount, hcount', count]) ?_
    · rw [hjournal, hjournal', log]
    · rw [hcount', hlimits]
      exact early
  | rotated t t' t'' i s s' s₁ s₂ s₃ pair hs hs' h₁ h₂ h₃ covered log count =>
    refine .rotated t t' t'' i s s' s₁ s₂ s₃ (hpair pair) hs hs' h₁ h₂ h₃ (by rw [hnext, covered])
      ?_ (by rw [hcount', count])
    rw [hjournal, hjournal', hnext, log]

/-- **One call.** -/
theorem apply_grows (e : CreditEngine (Observed J)) (r : CreditRequest)
    (h : (e.apply r).2.journalFailed = false) : Grows e (e.apply r).2 := by
  have heffect := e.apply_effect r
  generalize e.apply r = result at h heffect ⊢
  obtain ⟨o, e'⟩ := result
  replace h : e'.journalFailed = false := h
  cases heffect with
  | answered => exact .quiet rfl rfl
  | absorbed => exact .quiet rfl rfl
  | rejected => exact .quiet rfl rfl
  | opened hopens hok =>
    exact ((persistLocked_persisted (e.opening r) _ _ _ _).grows hok).of_same rfl rfl rfl rfl rfl rfl
  | refused a hadmitted s a' hd hok =>
    exact ((persistLocked_persisted (e.refusing r a') _ _ _ _).grows hok).of_same rfl rfl rfl rfl
      rfl rfl
  | applied a hadmitted a' hd hok =>
    exact ((persistLocked_persisted (e.applying r a') _ _ _ _).grows hok).of_same rfl rfl rfl rfl
      rfl rfl
  | failed _ _ _ _ _ hlatched =>
    rw [hlatched] at h
    exact absurd h (by decide)

end CreditEngine

/-! ### The log and the count at rest -/

namespace Deployment

open CreditEngine

variable {J : Type} [Journal J] {w w' : Deployment J} {N n : Nat}

/-- No rotation in the call that the bytes of the journal cause. -/
def Unforced (e e' : CreditEngine (Observed J)) : Prop :=
  e.limits.journalRecordsPerSnapshot ≤ e.journalRecords + 2 ∨
    ∀ i s, .rotated i s ∉ events e e'

omit [Journal J] in
/-- Events without a rotation are not forced. -/
theorem unforced_of_all {e e' : CreditEngine (Observed J)}
    (h : (events e e').all (fun | .rotated _ _ => false | _ => true) = true) :
    Unforced e e' := by
  refine .inr fun i s hmem => ?_
  have hfalse := List.all_eq_true.mp h _ hmem
  exact absurd (show false = true from hfalse) (by decide)

/-- A call in which no journal call fails, or a restart with the same
    `journal_records_per_snapshot` that finds the log as it was or with one more Intent, and
    contents that meet `C`. -/
def Boots (N : Nat) (C : Disk → Prop) (w : Deployment J) (act : Act) (w' : Deployment J) : Prop :=
  match act with
  | .call r => w'.engine.journalFailed = false ∧ Unforced w.engine (w.engine.apply r).2
  | .snapshot => False
  | .restart => w'.engine.limits.journalRecordsPerSnapshot = N ∧ C w'.disk ∧
      (w'.disk = w.disk ∨ ∃ t, w.disk.Appended t w'.disk ∧ t.kind = .intent)

/-- Any number of such steps. -/
inductive RunBoots (N : Nat) (C : Disk → Prop) (w : Deployment J) : List Act → Deployment J → Prop
  | nil : RunBoots N C w [] w
  | concat {acts : List Act} {act : Act} {w₁ w₂ : Deployment J} (run : RunBoots N C w acts w₁)
      (step : Step w₁ act w₂) (boots : w₁.Boots N C act w₂) : RunBoots N C w (acts ++ [act]) w₂

/-- A call of a known engine that fails nowhere and forces no rotation. -/
theorem boots_call {N : Nat} {C : Disk → Prop} {e e' : CreditEngine (Observed J)}
    {r : CreditRequest} (he : w.engine = e) (he' : w'.engine = e') (hcalled : e' = e.run [r])
    (hhealthy : e'.journalFailed = false) (hunforced : Unforced e e') :
    w.Boots N C (.call r) w' := by
  subst he he'
  rw [hcalled] at hunforced
  exact ⟨hhealthy, hunforced⟩

/-- A run whose boots meet a condition is a run. -/
theorem RunBoots.run {C : Disk → Prop} {acts : List Act} (h : RunBoots N C w acts w') :
    Run w acts w' := by
  induction h with
  | nil => exact .nil
  | concat run step boots ih => exact ih.concat step

/-- A restart replays at most one attempt, or two when the bound is even. -/
def Few (N : Nat) (d : Disk) : Prop :=
  d.replayedAttempts ≤ 1 ∨ d.replayedAttempts = 2 ∧ Even N

/-- No bound of the engine rotates an empty log. -/
theorem clamp_rotates (limits : EngineLimits) : 0 < limits.clamp.journalRecordsPerSnapshot := by
  show 0 < if _ then _ else _
  split_ifs <;> omega

/-- The log at rest, and the count that goes with it. -/
structure Paired (N : Nat) (w : Deployment J) : Prop where
  healthy : w.engine.journalFailed = false
  kinds : ∀ t ∈ w.disk.records, t.kind = .intent ∨ t.kind = .attempt
  followed : ofKind .attempt w.disk.records ≤ ofKind .intent w.disk.records
  uncovered : ∀ t ∈ w.disk.records, t.kind = .attempt →
    (w.disk.snapshot.map SnapshotImage.sequence).any (t.sequence ≤ ·) = false
  fresh : w.engine.recovered = false → w.disk.records = []
  counted : w.engine.recovered = true → w.engine.limits.journalRecordsPerSnapshot = N ∧
    w.engine.journalRecords < N ∧ ∃ d ≤ ofKind .attempt w.disk.records,
      w.engine.journalRecords + d = 2 * ofKind .attempt w.disk.records ∧
        (d ≤ 1 ∨ d = 2 ∧ Even N)

omit [Journal J] in
/-- The log at rest. -/
theorem Paired.length_le (h : w.Paired N) :
    w.disk.records.length ≤ N + unfinished w.disk.records := by
  have hlength := length_of_kinds h.kinds
  have hfollowed := h.followed
  unfold unfinished
  cases hrecovered : w.engine.recovered with
  | false =>
    rw [h.fresh hrecovered]
    exact Nat.zero_le _
  | true =>
    obtain ⟨-, hbound, d, hd, hcount, hfew⟩ := h.counted hrecovered
    rcases hfew with hone | ⟨rfl, k, hk⟩
    · omega
    · omega

/-- What a crash in one more call leaves. -/
theorem Paired.crashed (h : w.Paired N) {d : Disk} (hcrash : w.Crashes d) :
    d.records.length ≤ N + 3 + unfinished w.disk.records := by
  have hrest := h.length_le
  obtain ⟨done, hd, hdone⟩ := hcrash
  have hfew : ∀ {e' : CreditEngine (Observed J)}, AppendsFew w.engine e' →
      done <+: events w.engine e' → done.countP JournalEvent.appends ≤ 3 := by
    rintro e' ⟨evs, hlog, hevs⟩ hprefix
    rw [events_of_append hlog] at hprefix
    exact hprefix.sublist.countP_le.trans hevs
  have hgrown := Disk.length_afterAll hd
  have hdone' : done.countP JournalEvent.appends ≤ 3 := by
    rcases hdone with ⟨r, hprefix⟩ | hprefix
    · exact hfew (apply_appendsFew w.engine r) hprefix
    · exact hfew (snapshot_appendsFew w.engine) hprefix
  omega

omit [Journal J] in
/-- A commit without a rotation: the log and the count move on by two. -/
theorem Paired.committed (h : w.Paired N) (hrecovered : w.engine.recovered = true)
    {e' : CreditEngine (Observed J)} {d d₁ : Disk} {t t' : JournalRecord}
    (hpair : Pair w.engine t t') (hbehind : Behind w.disk w.engine.nextJournalSequence.toNat)
    (hn : w.engine.nextJournalSequence.toNat + 1 < 2 ^ 64) (hd₁ : w.disk.Appended t d₁)
    (hd : d₁.Appended t' d) (hhealthy : e'.journalFailed = false)
    (hlimits : e'.limits = w.engine.limits) (hrecovered' : e'.recovered = w.engine.recovered)
    (hcount : e'.journalRecords = w.engine.journalRecords + 2)
    (hearly : e'.journalRecords < w.engine.limits.journalRecordsPerSnapshot)
    (calls : List (CreditRequest × CreditOutcome)) : Paired N ⟨e', d, calls⟩ := by
  obtain ⟨hN, -, x, hx, hsum, hfew⟩ := h.counted hrecovered
  -- one Intent and one Attempt more
  have hrecords : d.records = w.disk.records ++ [t, t'] := by
    rw [hd.records, hd₁.records, List.append_assoc]
    rfl
  have hintent : ofKind .intent d.records = ofKind .intent w.disk.records + 1 := by
    rw [hrecords, ofKind_append]
    simp [ofKind, hpair.intent, hpair.attempt]
  have hattempt : ofKind .attempt d.records = ofKind .attempt w.disk.records + 1 := by
    rw [hrecords, ofKind_append]
    simp [ofKind, hpair.intent, hpair.attempt]
  -- the kinds, the pairing, what the image covers, and the counter
  refine ⟨hhealthy, fun t₁ ht₁ => ?_, ?_, fun t₁ ht₁ hkind => ?_, fun hnot => ?_, fun _ => ?_⟩
  · show t₁.kind = .intent ∨ t₁.kind = .attempt
    rw [hrecords, List.mem_append] at ht₁
    rcases ht₁ with hold | hnew
    · exact h.kinds t₁ hold
    · rcases List.mem_cons.mp hnew with rfl | hnew
      · exact .inl hpair.intent
      · rw [List.mem_singleton.mp hnew]
        exact .inr hpair.attempt
  · show ofKind .attempt d.records ≤ ofKind .intent d.records
    have hfollowed := h.followed
    omega
  · show (d.snapshot.map _).any _ = false
    rw [hd.snapshot, hd₁.snapshot]
    rw [hrecords, List.mem_append] at ht₁
    rcases ht₁ with hold | hnew
    · exact h.uncovered t₁ hold hkind
    · rcases List.mem_cons.mp hnew with rfl | hnew
      · rw [hpair.intent] at hkind
        exact absurd hkind (by decide)
      · rw [List.mem_singleton.mp hnew]
        refine hbehind.uncovered ?_
        rw [hpair.second, toNat_add_one hn]
        exact Nat.le_succ _
  · have hrecovered'' : e'.recovered = false := hnot
    rw [hrecovered', hrecovered] at hrecovered''
    exact absurd hrecovered'' (by decide)
  · refine ⟨?_, ?_, x, ?_, ?_, hfew⟩
    · show e'.limits.journalRecordsPerSnapshot = N
      rw [hlimits, hN]
    · show e'.journalRecords < N
      rw [← hN]
      exact hearly
    · show x ≤ ofKind .attempt d.records
      omega
    · show e'.journalRecords + x = 2 * ofKind .attempt d.records
      omega

omit [Journal J] in
/-- An empty log behind a rotation. -/
private theorem paired_empty {e' : CreditEngine (Observed J)} {d : Disk} (hrecords : d.records = [])
    (hhealthy : e'.journalFailed = false) (hN : e'.limits.journalRecordsPerSnapshot = N)
    (hpositive : 0 < N) (hcount : e'.journalRecords = 0)
    (calls : List (CreditRequest × CreditOutcome)) : Paired N ⟨e', d, calls⟩ := by
  have hnone : ∀ t, t ∉ d.records := fun t => by
    rw [hrecords]
    exact List.not_mem_nil
  refine ⟨hhealthy, fun t ht => absurd ht (hnone t), ?_, fun t ht => absurd ht (hnone t),
    fun _ => hrecords, fun _ => ⟨hN, hcount.trans_lt hpositive, 0, Nat.zero_le _, ?_, .inl ?_⟩⟩
  · show ofKind .attempt d.records ≤ ofKind .intent d.records
    rw [hrecords]
    exact le_rfl
  · show e'.journalRecords + 0 = 2 * ofKind .attempt d.records
    rw [hcount, hrecords]
    rfl
  · exact Nat.zero_le 1

/-- A step of a run whose restarts replay few attempts. -/
theorem Paired.step (hkept : Kept (fun _ => True) n w) (hn : n < 2 ^ 60) (h : w.Paired N)
    {act : Act} (hstep : Step w act w') (hboots : w.Boots N (Few N) act w') :
    w'.Paired N := by
  cases hstep with
  | called r d durable =>
    have hhealthy : (w.engine.apply r).2.journalFailed = false := hboots.1
    have hconfig := apply_sameConfig w.engine r
    cases hrecovered : w.engine.recovered with
    | false =>
      have hsame := (events_of_silent (.inr hrecovered) r).1
      rw [hsame, events_self, Disk.mem_afterAll_nil] at durable
      rw [hsame, durable]
      exact ⟨h.healthy, h.kinds, h.followed, h.uncovered, h.fresh, h.counted⟩
    | true =>
      obtain ⟨hdurable, hbound⟩ := hkept.level h.healthy
      have hbehind := hdurable.behind
      have hone : (w.engine.nextJournalSequence + 1).toNat =
          w.engine.nextJournalSequence.toNat + 1 := toNat_add_one (by omega)
      have htwo : (w.engine.nextJournalSequence + 1 + 1).toNat =
          w.engine.nextJournalSequence.toNat + 2 := by rw [toNat_add_one (by omega), hone]
      cases apply_grows w.engine r hhealthy with
      | quiet journal count =>
        have hnone : events w.engine (w.engine.apply r).2 = [] :=
          events_of_append (by rw [journal, List.append_nil])
        rw [hnone, Disk.mem_afterAll_nil] at durable
        rw [durable]
        refine ⟨hhealthy, h.kinds, h.followed, h.uncovered, fun hnot => ?_, fun hrecovered' => ?_⟩
        · exact h.fresh (hconfig.recovered ▸ hnot)
        · rw [hconfig.recovered] at hrecovered'
          obtain ⟨hN, hless, hcount⟩ := h.counted hrecovered'
          show (w.engine.apply r).2.limits.journalRecordsPerSnapshot = N ∧ _ ∧ _
          rw [hconfig.limits, count]
          exact ⟨hN, hless, hcount⟩
      | kept t t' s s' pair hs hs' log count early =>
        rw [events_of_append log] at durable
        obtain ⟨d₁, hd₁, hrest⟩ := Disk.mem_afterAll_cons.mp durable
        obtain ⟨d₂, hd₂, hlast⟩ := Disk.mem_afterAll_cons.mp hrest
        rw [Disk.mem_afterAll_nil.mp hlast]
        exact h.committed hrecovered pair hbehind (by omega) (Disk.appended_of_ok hd₁ hs)
          (Disk.appended_of_ok hd₂ hs') hhealthy hconfig.limits hconfig.recovered count early _
      | rotated t t' t'' i s s' s₁ s₂ s₃ pair hs hs' h₁ h₂ h₃ covered log count =>
        rw [events_of_append log] at durable
        obtain ⟨d₁, hd₁, hrest⟩ := Disk.mem_afterAll_cons.mp durable
        obtain ⟨d₂, hd₂, hrest⟩ := Disk.mem_afterAll_cons.mp hrest
        obtain ⟨d₃, hd₃, hrest⟩ := Disk.mem_afterAll_cons.mp hrest
        obtain ⟨d₄, hd₄, hrest⟩ := Disk.mem_afterAll_cons.mp hrest
        obtain ⟨d₅, hd₅, hlast⟩ := Disk.mem_afterAll_cons.mp hrest
        rw [Disk.mem_afterAll_nil.mp hlast]
        have happended₁ := Disk.appended_of_ok hd₁ hs
        have happended₂ := Disk.appended_of_ok hd₂ hs'
        have happended₃ := Disk.appended_of_ok hd₃ h₁
        -- the rotation covers the whole log
        have hall : ∀ t₁ ∈ d₄.records, t₁.sequence.toNat ≤
            (w.engine.nextJournalSequence + 1 + 1).toNat := by
          have hrecords : d₄.records = d₃.records := by
            rcases Disk.after_wroteSnapshot hd₄ with rfl | ⟨rfl, -⟩
            · rfl
            · rfl
          have hfirst : Behind d₁ w.engine.nextJournalSequence.toNat :=
            hbehind.appended le_rfl happended₁ (by rw [pair.first])
          have hsecond : Behind d₂ (w.engine.nextJournalSequence.toNat + 1) :=
            hfirst.appended (Nat.le_succ _) happended₂ (by rw [pair.second, hone])
          have hthird : Behind d₃ (w.engine.nextJournalSequence.toNat + 2) :=
            hsecond.appended (Nat.le_succ _) happended₃ (by rw [covered, htwo])
          rw [hrecords, htwo]
          exact hthird.records
        have hempty : d₅.records = [] := by
          simp only [Disk.after, h₃, if_true, List.mem_singleton] at hd₅
          rw [hd₅]
          refine List.filter_eq_nil_iff.mpr fun t₁ ht₁ => ?_
          have hle : t₁.sequence ≤ w.engine.nextJournalSequence + 1 + 1 :=
            UInt64.le_iff_toNat_le.mpr (hall t₁ ht₁)
          rw [decide_eq_true hle]
          decide
        obtain ⟨hN, hless, -⟩ := h.counted hrecovered
        exact paired_empty hempty hhealthy (by rw [hconfig.limits, hN]) (Nat.zero_lt_of_lt hless)
          count _
  | snapshotted => exact hboots.elim
  | restarted limits journal operator nonce d o' crash addressable yields ok =>
    obtain ⟨hN, hfew, hfound⟩ := hboots
    obtain ⟨hlimits, hlatch⟩ := recover_limits yields ok
    have hpositive : 0 < N := by
      rw [← hN]
      show 0 <
        (make limits (Observed.mk journal []) operator nonce).recover.2.limits.journalRecordsPerSnapshot
      rw [hlimits]
      exact clamp_rotates limits
    have hlog : (∀ t ∈ d.records, t.kind = .intent ∨ t.kind = .attempt) ∧
        ofKind .attempt d.records = ofKind .attempt w.disk.records ∧
        ofKind .intent w.disk.records ≤ ofKind .intent d.records ∧
        ∀ t ∈ d.records, t.kind = .attempt →
          (d.snapshot.map SnapshotImage.sequence).any (t.sequence ≤ ·) = false := by
      rcases hfound with hsame | ⟨t, happended, hkind⟩
      · have hsame' : d = w.disk := hsame
        rw [hsame']
        exact ⟨h.kinds, rfl, le_rfl, h.uncovered⟩
      · have hrecords : d.records = w.disk.records ++ [t] := happended.records
        have hsnapshot : d.snapshot = w.disk.snapshot := happended.snapshot
        rw [hrecords, hsnapshot, ofKind_append, ofKind_append]
        refine ⟨fun t' ht' => ?_, ?_, Nat.le_add_right _ _, fun t' ht' hkind' => ?_⟩
        · rcases List.mem_append.mp ht' with hold | hnew
          · exact h.kinds t' hold
          · rw [List.mem_singleton.mp hnew]
            exact .inl hkind
        · simp [ofKind, hkind]
        · rcases List.mem_append.mp ht' with hold | hnew
          · exact h.uncovered t' hold hkind'
          · rw [List.mem_singleton.mp hnew, hkind] at hkind'
            exact absurd hkind' (by decide)
    obtain ⟨hkinds, hattempts, hintents, huncovered⟩ := hlog
    have hreplayed := Disk.replayedAttempts_of_uncovered huncovered
    obtain ⟨hcount, hrecovered⟩ := recover_counts yields ok
    have hbelow : ofKind .attempt d.records < N := by
      rw [hattempts]
      cases hrecovered : w.engine.recovered with
      | false =>
        rw [h.fresh hrecovered]
        exact hpositive
      | true =>
        obtain ⟨-, hless, x, hx, hsum, -⟩ := h.counted hrecovered
        omega
    have hfollowed := h.followed
    refine ⟨?_, hkinds, ?_, huncovered, fun hnot => ?_, fun _ => ⟨hN, ?_, ofKind .attempt d.records,
      le_rfl, ?_, ?_⟩⟩
    · exact hlatch
    · show ofKind .attempt d.records ≤ ofKind .intent d.records
      omega
    · exact absurd (hrecovered.symm.trans hnot) (by decide)
    · show (make limits (Observed.mk journal []) operator nonce).recover.2.journalRecords < N
      rw [hcount, hreplayed]
      exact hbelow
    · show (make limits (Observed.mk journal []) operator nonce).recover.2.journalRecords +
        ofKind .attempt d.records = 2 * ofKind .attempt d.records
      rw [hcount, hreplayed]
      omega
    · rw [← hreplayed]
      exact hfew

/-- **Run lemma.** -/
theorem RunBoots.paired {limits : EngineLimits} {journal : J} {operator : Incarnation}
    {nonce : Digest128} {acts : List Act}
    (hrun : RunBoots N (Few N) (start limits journal operator nonce) acts w)
    (hacts : acts.length ≤ 2 ^ 60) : w.Paired N := by
  induction hrun with
  | nil =>
    exact ⟨rfl, fun _ ht => absurd ht List.not_mem_nil, le_rfl,
      fun _ ht => absurd ht List.not_mem_nil, fun _ => rfl, fun hrecovered =>
        absurd (show false = true from hrecovered) (by decide)⟩
  | @concat acts act w₁ w₂ run step boots ih =>
    rw [List.length_append, List.length_singleton] at hacts
    exact (ih (by omega)).step (run.run.kept (by omega)) (by omega) step boots

/-- **The log is bounded.**  In every run over any number of boots whose restarts replay at most
    one attempt, or two when `N` is even, the log never has more than `N + 3` records on top of
    the unfinished Intents, not even inside a call. -/
theorem log_bounded {limits : EngineLimits} {journal : J} {operator : Incarnation}
    {nonce : Digest128} {acts : List Act}
    (hrun : RunBoots N (Few N) (start limits journal operator nonce) acts w)
    (hacts : acts.length < 2 ^ 60) :
    ∀ d, w.Crashes d → d.records.length ≤ N + 3 + unfinished w.disk.records :=
  fun _ hcrash => (hrun.paired hacts.le).crashed hcrash

end Deployment

/-! ### A count that starts too low -/

namespace CountedOnce

open CreditEngine Fixture

/-- The nonce of the first boot. -/
def nonce : Digest128 := ⟨0x34, 0x43⟩

/-- The nonce of the second boot. -/
def later : Digest128 := ⟨0x35, 0x53⟩

/-- A snapshot is due behind the fifth record. -/
def limits : EngineLimits := { journalRecordsPerSnapshot := 5 }

/-- The engine of the first boot. -/
def booted : CreditEngine (Observed InMemoryJournal) := Fixture.boot limits ⟨{}, []⟩ nonce

/-- The engine behind its Open. -/
def opened : CreditEngine (Observed InMemoryJournal) :=
  booted.run [request nonce me .open_ 1]

/-- The engine behind its Issue. -/
def issued : CreditEngine (Observed InMemoryJournal) :=
  opened.run [request nonce me .issue 2]

/-- What the Open leaves on the storage. -/
def one : Disk := ((({} : Disk).afterAll (Deployment.events booted opened)).head?).getD {}

/-- What the Issue leaves, four records that the engine has counted. -/
def two : Disk := ((one.afterAll (Deployment.events opened issued)).head?).getD {}

/-- The engine that recovers from them; it counts two. -/
def again : CreditEngine (Observed InMemoryJournal) :=
  Fixture.boot limits ⟨two.inMemory, []⟩ later

/-- The engine of the second boot behind its Reconcile. -/
def reconciled : CreditEngine (Observed InMemoryJournal) :=
  again.run [request later me .reconcile 3]

/-- Six records, of which four are counted. -/
def three : Disk := ((two.afterAll (Deployment.events again reconciled)).head?).getD {}

/-- The Intent, the Attempt and the Snapshot record of one more Issue. -/
def cut : List JournalEvent :=
  (Deployment.events reconciled (reconciled.apply (request later me .issue 4)).2).take 3

/-- The crash falls behind three of the journal calls. -/
theorem cut_prefix :
    cut <+: Deployment.events reconciled (reconciled.apply (request later me .issue 4)).2 :=
  List.take_prefix 3 _

/-- Nine records. -/
def full : Disk := ((three.afterAll cut).head?).getD {}

/-- The events between two engines have no rotation. -/
def unrotated (e e' : CreditEngine (Observed InMemoryJournal)) : Bool :=
  (Deployment.events e e').all fun | .rotated _ _ => false | _ => true

/-- The run, evaluated once. -/
theorem evaluated :
    (one ∈ ({} : Disk).afterAll (Deployment.events booted opened) ∧
      two ∈ one.afterAll (Deployment.events opened issued) ∧
      three ∈ two.afterAll (Deployment.events again reconciled) ∧
      full ∈ three.afterAll cut) ∧
    (two.records.all (fun t => t.payload.length < 2 ^ 64) = true ∧ two.snapshot = none ∧
      (make limits (Observed.mk two.inMemory []) me later).recover.1.ok = true) ∧
    (booted.limits.journalRecordsPerSnapshot = 5 ∧ again.limits.journalRecordsPerSnapshot = 5 ∧
      opened.journalFailed = false ∧ issued.journalFailed = false ∧
      reconciled.journalFailed = false) ∧
    (unrotated booted opened = true ∧ unrotated opened issued = true ∧
      unrotated again reconciled = true) ∧
    5 + 3 + unfinished three.records < full.records.length := by
  decide +kernel

/-! A run whose restarts replay at most one attempt. -/

/-- The nonce of the third boot. -/
def latest : Digest128 := ⟨0x36, 0x63⟩

/-- The engine that recovers from the Open; it counts one of its two records. -/
def second : CreditEngine (Observed InMemoryJournal) :=
  Fixture.boot limits ⟨one.inMemory, []⟩ later

/-- The engine of the second boot behind its Reconcile. -/
def joined : CreditEngine (Observed InMemoryJournal) :=
  second.run [request later me .reconcile 2]

/-- The storage behind the Reconcile. -/
def joint : Disk := ((one.afterAll (Deployment.events second joined)).head?).getD {}

/-- The Issue that counts up to five, and rotates. -/
def rotated : CreditEngine (Observed InMemoryJournal) :=
  joined.run [request later me .issue 3]

/-- The storage behind a rotation. -/
def cleared : Disk := ((joint.afterAll (Deployment.events joined rotated)).head?).getD {}

/-- The Issue that a crash cuts off. -/
def issuing : CreditRequest := request later me .issue 4

/-- The Intent of one more Issue. -/
def next : JournalRecord := rotated.intentRecord issuing

/-- What a crash leaves behind that record. -/
def hanging : Disk :=
  { cleared with records := cleared.records ++ [next], written := cleared.written ++ [next] }

/-- The engine of the third boot. -/
def third : CreditEngine (Observed InMemoryJournal) :=
  Fixture.boot limits ⟨hanging.inMemory, []⟩ latest

/-- The image of the rotation does not have the watermark of its own Issue. -/
def rejoined : CreditEngine (Observed InMemoryJournal) :=
  third.run [request latest me .reconcile 3]

/-- The storage at the end of the run. -/
def final : Disk := ((hanging.afterAll (Deployment.events third rejoined)).head?).getD {}

/-- The contents behind an append. -/
theorem appended_next (d : Disk) (t : JournalRecord) : d.Appended t
    { d with records := d.records ++ [t], written := d.written ++ [t] } := ⟨rfl, rfl, rfl⟩

/-- That run, evaluated once. -/
theorem evaluated_few :
    (joint ∈ one.afterAll (Deployment.events second joined) ∧
      cleared ∈ joint.afterAll (Deployment.events joined rotated) ∧
      hanging ∈ cleared.afterAll
        ((Deployment.events rotated (rotated.apply issuing).2).take 1) ∧
      final ∈ hanging.afterAll (Deployment.events third rejoined)) ∧
    (one.records.all (fun t => t.payload.length < 2 ^ 64) = true ∧
      one.snapshot.all (fun i => i.payload.length < 2 ^ 64) = true ∧
      (make limits (Observed.mk one.inMemory []) me later).recover.1.ok = true) ∧
    (hanging.records.all (fun t => t.payload.length < 2 ^ 64) = true ∧
      hanging.snapshot.all (fun i => i.payload.length < 2 ^ 64) = true ∧
      (make limits (Observed.mk hanging.inMemory []) me latest).recover.1.ok = true) ∧
    (second.limits.journalRecordsPerSnapshot = 5 ∧ third.limits.journalRecordsPerSnapshot = 5 ∧
      joined.limits.journalRecordsPerSnapshot ≤ joined.journalRecords + 2 ∧
      joined.journalFailed = false ∧ rotated.journalFailed = false ∧
      rejoined.journalFailed = false) ∧
    (unrotated second joined = true ∧ unrotated third rejoined = true) ∧
    (one.replayedAttempts = 1 ∧ hanging.replayedAttempts = 0) ∧
    (joint.records.length = 4 ∧ cleared.records = [] ∧ final.records.length = 3 ∧
      unfinished final.records = 1) := by
  decide +kernel

/-- Three boots with four commits, a rotation and an unfinished Intent. -/
theorem first_bounded : ∃ w acts, Deployment.RunBoots 5 (Deployment.Few 5)
      (Deployment.start limits ({} : InMemoryJournal) me nonce) acts w ∧ acts.length = 7 ∧
    w.disk.records.length = 3 ∧ unfinished w.disk.records = 1 ∧
    ∀ d, w.Crashes d → d.records.length ≤ 5 + 3 + unfinished w.disk.records := by
  obtain ⟨⟨hone, -⟩, -, ⟨hfive, -, hhealthy₁, -⟩, ⟨hunrotated₁, -⟩, -⟩ := evaluated
  obtain ⟨⟨hjoint, hcleared, hhanging, hfinal⟩, ⟨hsmall, himage, hok⟩, ⟨hsmall', himage', hok'⟩,
    ⟨hfive₂, hfive₃, hdue, hhealthy₂, hhealthy₃, hhealthy₄⟩, ⟨hunrotated₂, hunrotated₃⟩,
    ⟨hreplayed, hreplayed'⟩, -, -, hlength, hunfinished⟩ := evaluated_few
  obtain ⟨w₁, hfirst, hdisk₁, hengine₁⟩ := Deployment.exists_first limits nonce
  have hbooted : w₁.engine = booted := hengine₁
  obtain ⟨w₂, hopen, hopened, hdisk₂⟩ := Deployment.exists_call hbooted hdisk₁
    (request nonce me .open_ 1) one hone rfl
  have hcrash₂ : w₂.Crashes one :=
    ⟨[], Disk.mem_afterAll_nil.mpr hdisk₂.symm, .inr List.nil_prefix⟩
  obtain ⟨w₃, hrestart, hdisk₃, hengine₃⟩ := Deployment.exists_restart limits later hcrash₂
    (Disk.addressable_of_small hsmall himage) hok
  have hsecond : w₃.engine = second := hengine₃
  obtain ⟨w₄, hreconcile, hjoined, hdisk₄⟩ := Deployment.exists_call hsecond hdisk₃
    (request later me .reconcile 2) joint hjoint rfl
  obtain ⟨w₅, hissue, hrotated, hdisk₅⟩ := Deployment.exists_call hjoined hdisk₄
    (request later me .issue 3) cleared hcleared rfl
  -- the next Issue is cut off behind its Intent
  have hcrash₅ : w₅.Crashes hanging := by
    refine ⟨_, ?_, .inl ⟨issuing, List.take_prefix 1 _⟩⟩
    rw [hdisk₅, hrotated]
    exact hhanging
  obtain ⟨w₆, hrestart', hdisk₆, hengine₆⟩ := Deployment.exists_restart limits latest hcrash₅
    (Disk.addressable_of_small hsmall' himage') hok'
  have hthird : w₆.engine = third := hengine₆
  obtain ⟨w₇, hreconcile', hrejoined, hdisk₇⟩ := Deployment.exists_call hthird hdisk₆
    (request latest me .reconcile 3) final hfinal rfl
  have hboots₁ : (Deployment.start limits ({} : InMemoryJournal) me nonce).Boots 5
      (Deployment.Few 5) .restart w₁ := by
    refine ⟨?_, ?_, .inl ?_⟩
    · rw [hbooted, hfive]
    · rw [hdisk₁]
      exact .inl (by decide)
    · rw [hdisk₁]
      rfl
  have hboots₂ : w₁.Boots 5 (Deployment.Few 5) (.call (request nonce me .open_ 1)) w₂ :=
    Deployment.boots_call hbooted hopened rfl hhealthy₁ (Deployment.unforced_of_all hunrotated₁)
  have hboots₃ : w₂.Boots 5 (Deployment.Few 5) .restart w₃ := by
    refine ⟨?_, ?_, .inl ?_⟩
    · rw [hsecond, hfive₂]
    · rw [hdisk₃]
      exact .inl hreplayed.le
    · rw [hdisk₂, hdisk₃]
  have hboots₄ : w₃.Boots 5 (Deployment.Few 5) (.call (request later me .reconcile 2)) w₄ :=
    Deployment.boots_call hsecond hjoined rfl hhealthy₂ (Deployment.unforced_of_all hunrotated₂)
  have hboots₅ : w₄.Boots 5 (Deployment.Few 5) (.call (request later me .issue 3)) w₅ :=
    Deployment.boots_call hjoined hrotated rfl hhealthy₃ (.inl hdue)
  have hboots₆ : w₅.Boots 5 (Deployment.Few 5) .restart w₆ := by
    refine ⟨?_, ?_, .inr ⟨next, ?_, rfl⟩⟩
    · rw [hthird, hfive₃]
    · rw [hdisk₆]
      exact .inl (by rw [hreplayed']; decide)
    · rw [hdisk₅, hdisk₆]
      exact appended_next cleared next
  have hboots₇ : w₆.Boots 5 (Deployment.Few 5) (.call (request latest me .reconcile 3)) w₇ :=
    Deployment.boots_call hthird hrejoined rfl hhealthy₄ (Deployment.unforced_of_all hunrotated₃)
  have hrun := Deployment.RunBoots.concat (.concat (.concat (.concat (.concat (.concat (.concat .nil
    hfirst hboots₁) hopen hboots₂) hrestart hboots₃) hreconcile hboots₄) hissue hboots₅) hrestart'
    hboots₆) hreconcile' hboots₇
  refine ⟨w₇, _, hrun, by simp, ?_, ?_, Deployment.log_bounded hrun (by decide)⟩
  · rw [hdisk₇, hlength]
  · rw [hdisk₇, hunfinished]

/-- Behind a restart the log grows past the bound. -/
theorem log_exceeds : ¬ ∀ (N : Nat) (limits : EngineLimits) (journal : InMemoryJournal)
    (operator : Incarnation) (nonce : Digest128) (acts : List Deployment.Act)
    (w : Deployment InMemoryJournal),
    Deployment.RunBoots N (fun _ => True) (Deployment.start limits journal operator nonce) acts w →
    ∀ d, w.Crashes d → d.records.length ≤ N + 3 + unfinished w.disk.records := by
  intro hclaim
  obtain ⟨⟨hone, htwo, hthree, hcut⟩, ⟨hsmall, hnone, hok⟩, ⟨hfive, hfive', hhealthy₂, hhealthy₃,
    hhealthy₅⟩, ⟨hunrotated₂, hunrotated₃, hunrotated₅⟩, hexceeds⟩ := evaluated
  -- the five steps of the run, with the engine and the disk behind each
  obtain ⟨w₁, hfirst, hdisk₁, hengine₁⟩ := Deployment.exists_first limits nonce
  have hbooted : w₁.engine = booted := hengine₁
  obtain ⟨w₂, hopen, hopened, hdisk₂⟩ := Deployment.exists_call hbooted hdisk₁
    (request nonce me .open_ 1) one hone rfl
  obtain ⟨w₃, hissue, hissued, hdisk₃⟩ := Deployment.exists_call hopened hdisk₂
    (request nonce me .issue 2) two htwo rfl
  have hcrash : w₃.Crashes two :=
    ⟨[], Disk.mem_afterAll_nil.mpr hdisk₃.symm, .inr List.nil_prefix⟩
  obtain ⟨w₄, hrestart, hdisk₄, hengine₄⟩ := Deployment.exists_restart limits later hcrash
    (Disk.addressable_of_small hsmall (by rw [hnone]; rfl)) hok
  have hagain : w₄.engine = again := hengine₄
  obtain ⟨w₅, hreconcile, hreconciled, hdisk₅⟩ := Deployment.exists_call hagain hdisk₄
    (request later me .reconcile 3) three hthree rfl
  -- each meets the condition: no failure, and no rotation due
  have hboots₁ : (Deployment.start limits ({} : InMemoryJournal) me nonce).Boots 5
      (fun _ => True) .restart w₁ := by
    refine ⟨?_, trivial, .inl ?_⟩
    · rw [hbooted, hfive]
    · rw [hdisk₁]
      rfl
  have hboots₂ : w₁.Boots 5 (fun _ => True) (.call (request nonce me .open_ 1)) w₂ :=
    Deployment.boots_call hbooted hopened rfl hhealthy₂ (Deployment.unforced_of_all hunrotated₂)
  have hboots₃ : w₂.Boots 5 (fun _ => True) (.call (request nonce me .issue 2)) w₃ :=
    Deployment.boots_call hopened hissued rfl hhealthy₃ (Deployment.unforced_of_all hunrotated₃)
  have hboots₄ : w₃.Boots 5 (fun _ => True) .restart w₄ := by
    refine ⟨?_, trivial, .inl ?_⟩
    · rw [hagain, hfive']
    · rw [hdisk₃, hdisk₄]
  have hboots₅ : w₄.Boots 5 (fun _ => True) (.call (request later me .reconcile 3)) w₅ :=
    Deployment.boots_call hagain hreconciled rfl hhealthy₅ (Deployment.unforced_of_all hunrotated₅)
  have hrun := Deployment.RunBoots.concat (.concat (.concat (.concat (.concat .nil hfirst hboots₁)
    hopen hboots₂) hissue hboots₃) hrestart hboots₄) hreconcile hboots₅
  -- a crash inside the next Issue leaves one record too many
  have hfull : w₅.Crashes full := by
    refine ⟨cut, ?_, .inl ⟨request later me .issue 4, ?_⟩⟩
    · rw [hdisk₅]
      exact hcut
    · rw [hreconciled]
      exact cut_prefix
  have hbound := hclaim 5 _ _ _ _ _ w₅ hrun full hfull
  rw [hdisk₅] at hbound
  exact absurd hbound (Nat.not_le_of_lt hexceeds)

end CountedOnce

end CreditFabric
