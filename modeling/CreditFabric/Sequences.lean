import CreditFabric.Tracking

namespace CreditFabric

open Std (ExtTreeMap)

/-!
# Sequence numbers of the journal

Every record the engine appends carries `next_journal_sequence_`, which then moves by one.  A
recovery rebuilds the counter from the log: Attempt and Snapshot records advance it, an Intent
record does not.

* `Disk.Ascending` says that the records ever written are in strict order below the counter.
* `Numbered` are the journal calls that number their records from a counter on;
  `Numbered.through` carries `Ascending` over them, wherever a crash cuts them off.
* A recovery continues behind every record of its log unless the log is `Orphaned`: an Intent
  was its last record, whose number is then used again.
-/

namespace Disk

/-- The records ever written are in strict order and below `n`; the log has those that no
    installed snapshot covers. -/
structure Ascending (d : Disk) (n : Nat) : Prop where
  ordered : d.written.Pairwise fun t t' => t.sequence < t'.sequence
  positive : ∀ t ∈ d.written, 0 < t.sequence.toNat
  below : ∀ t ∈ d.written, t.sequence.toNat < n
  installed : ∀ i, d.snapshot = some i → ∃ t ∈ d.written, i.sequence = t.sequence
  kept : d.records.Sublist d.written
  covered : ∀ t ∈ d.written, t ∈ d.records ∨
    ∃ i, d.snapshot = some i ∧ t.sequence ≤ i.sequence

/-- The last record of the log is an Intent that the snapshot does not cover. -/
def Orphaned (d : Disk) : Prop :=
  ∃ t, d.records.getLast? = some t ∧ t.kind = .intent ∧
    (d.snapshot.map SnapshotImage.sequence).any (t.sequence ≤ ·) = false

section Ascending

variable {d d' : Disk} {n : Nat}

/-- The empty disk is below every counter. -/
theorem ascending_empty (n : Nat) : Ascending {} n where
  ordered := .nil
  positive _ ht := absurd ht List.not_mem_nil
  below _ ht := absurd ht List.not_mem_nil
  installed _ hi := absurd hi (by simp)
  kept := .slnil
  covered _ ht := absurd ht List.not_mem_nil

/-- A new record at the counter. -/
theorem Ascending.appended (h : d.Ascending n) {t : JournalRecord}
    (happended : d.Appended t d') (hseq : t.sequence.toNat = n) (hn : 0 < n) :
    d'.Ascending (n + 1) := by
  refine ⟨?_, fun t' ht' => ?_, fun t' ht' => ?_, fun i hi => ?_, ?_, fun t' ht' => ?_⟩
  · rw [happended.written, List.pairwise_append]
    refine ⟨h.ordered, List.pairwise_singleton _ _, fun t₁ ht₁ t₂ ht₂ => ?_⟩
    rw [List.mem_singleton.mp ht₂, UInt64.lt_iff_toNat_lt, hseq]
    exact h.below t₁ ht₁
  · rw [happended.written, List.mem_append, List.mem_singleton] at ht'
    rcases ht' with hold | rfl
    · exact h.positive t' hold
    · rw [hseq]
      exact hn
  · rw [happended.written, List.mem_append, List.mem_singleton] at ht'
    rcases ht' with hold | rfl
    · exact (h.below t' hold).trans n.lt_succ_self
    · omega
  · rw [happended.snapshot] at hi
    obtain ⟨t', ht', heq⟩ := h.installed i hi
    rw [happended.written]
    exact ⟨t', List.mem_append_left _ ht', heq⟩
  · rw [happended.records, happended.written]
    exact h.kept.append (List.Sublist.refl _)
  · rw [happended.written, List.mem_append] at ht'
    rw [happended.records, happended.snapshot, List.mem_append]
    rcases ht' with hold | hnew
    · exact (h.covered t' hold).imp .inl id
    · exact .inl (.inr hnew)

/-- A snapshot behind its own record, which is the last one. -/
theorem Ascending.installing (h : d.Ascending n) {i : SnapshotImage}
    (hi : ∃ t ∈ d.written, i.sequence = t.sequence) (hseq : i.sequence.toNat + 1 = n) :
    { d with snapshot := some i }.Ascending n := by
  refine ⟨h.ordered, h.positive, h.below, fun i' hi' => ?_, h.kept, fun t ht => .inr ⟨i, rfl, ?_⟩⟩
  · rw [← Option.some.inj hi']
    exact hi
  · have hlt := h.below t ht
    rw [UInt64.le_iff_toNat_le]
    omega

/-- A rotation behind the snapshot it is for. -/
theorem Ascending.rotated (h : d.Ascending n) {i : SnapshotImage} (hi : d.snapshot = some i)
    {s : Status} (hd' : d' ∈ d.after (.rotated i.sequence s)) : d'.Ascending n := by
  have hcut : { d with records := d.records.filter fun t => !(t.sequence ≤ i.sequence) }.Ascending
      n := by
    refine ⟨h.ordered, h.positive, h.below, h.installed, (List.filter_sublist).trans h.kept,
      fun t ht => ?_⟩
    by_cases hle : t.sequence ≤ i.sequence
    · exact .inr ⟨i, hi, hle⟩
    · refine (h.covered t ht).imp_left fun hmem => List.mem_filter.mpr ⟨hmem, ?_⟩
      simpa using hle
  simp only [after] at hd'
  split_ifs at hd' with hs
  · rw [List.mem_singleton.mp hd']
    exact hcut
  · rcases List.mem_cons.mp hd' with rfl | hd'
    · exact h
    · rw [List.mem_singleton.mp hd']
      exact hcut

end Ascending

end Disk

/-! ### Journal calls in order -/

/-- Journal calls that number their records from `n` on, and the counter behind them.  Behind an
    append that did not return Ok there are no more, and the counter is unknown. -/
inductive Numbered : Nat → List JournalEvent → Option Nat → Prop
  | nil (n : Nat) : Numbered n [] (some n)
  | lost {n : Nat} {t : JournalRecord} {s : Status} (hseq : t.sequence.toNat = n)
      (hs : s.ok = false) : Numbered n [.appended t s] none
  | appended {n : Nat} {t : JournalRecord} {s : Status} {evs : List JournalEvent}
      {m : Option Nat} (hseq : t.sequence.toNat = n) (hs : s.ok = true)
      (rest : Numbered (n + 1) evs m) : Numbered n (.appended t s :: evs) m
  | recorded {n : Nat} {t : JournalRecord} {i : SnapshotImage} {s s' : Status}
      {evs : List JournalEvent} (hseq : t.sequence.toNat = n) (hs : s.ok = true)
      (hi : i.sequence = t.sequence)
      (hrest : evs = [] ∨ s'.ok = true ∧ ∃ s'', evs = [.rotated i.sequence s'']) :
      Numbered n (.appended t s :: .wroteSnapshot i s' :: evs) (some (n + 1))

/-- The counter moves on, by at most one for each call. -/
theorem Numbered.le {n k : Nat} {evs : List JournalEvent} {m : Option Nat}
    (h : Numbered n evs m) (hm : m = some k) : n ≤ k ∧ k ≤ n + evs.length := by
  induction h with
  | nil n =>
    obtain rfl := Option.some.inj hm
    exact ⟨le_rfl, n.le_add_right _⟩
  | lost => exact absurd hm (by simp)
  | appended hseq hs rest ih =>
    obtain ⟨hle, hle'⟩ := ih hm
    simp only [List.length_cons]
    omega
  | recorded hseq hs hi hrest =>
    obtain rfl := Option.some.inj hm
    simp only [List.length_cons]
    omega

/-- **Crash rule.**  Wherever a crash cuts the calls off, the records are in order, below a
    counter that has moved by at most one for each call. -/
theorem Numbered.through {n : Nat} {evs : List JournalEvent} {m : Option Nat}
    (h : Numbered n evs m) {d : Disk} (hd : d.Ascending n) (hn : 0 < n) :
    d.Through (fun d' => ∃ k ≤ n + evs.length, d'.Ascending k)
      (fun d' => ∀ k, m = some k → d'.Ascending k) evs := by
  -- induction on the events, for the disk each of them finds
  induction h generalizing d with
  | nil n =>
    refine .nil ⟨n, le_rfl, hd⟩ fun k hk => ?_
    rw [← Option.some.inj hk]
    exact hd
  | @lost n t s hseq hs =>
    refine .cons ⟨n, by omega, hd⟩ fun d' hd' => .nil ?_ fun k hk => absurd hk (by simp)
    rcases Disk.after_appended hd' with happended | ⟨rfl, -⟩
    · exact ⟨n + 1, by simp, hd.appended happended hseq hn⟩
    · exact ⟨n, by omega, hd⟩
  | @appended n t s evs m hseq hs rest ih =>
    refine .cons ⟨n, by omega, hd⟩ fun d' hd' => ?_
    refine (ih (hd.appended (Disk.appended_of_ok hd' hs) hseq hn) n.succ_pos).mono ?_ fun _ _ hR => hR
    rintro d'' ⟨k, hk, hd''⟩
    exact ⟨k, by simp only [List.length_cons]; omega, hd''⟩
  | @recorded n t i s s' evs hseq hs hi hrest =>
    refine .cons ⟨n, by omega, hd⟩ fun d₁ hd₁ => ?_
    have happended := Disk.appended_of_ok hd₁ hs
    have hd₁' := hd.appended happended hseq hn
    have hlength : n + 1 ≤ n + (JournalEvent.appended t s :: .wroteSnapshot i s' :: evs).length := by
      simp only [List.length_cons]
      omega
    have hmem : ∃ t' ∈ d₁.written, i.sequence = t'.sequence :=
      ⟨t, by rw [happended.written]; exact List.mem_append_right _ List.mem_cons_self, hi⟩
    have hinstalled : { d₁ with snapshot := some i }.Ascending (n + 1) :=
      hd₁'.installing hmem (by rw [hi, hseq])
    refine .cons ⟨n + 1, hlength, hd₁'⟩ fun d₂ hd₂ => ?_
    -- the image, and then perhaps the rotation of what it covers
    rcases hrest with rfl | ⟨hs', s'', rfl⟩
    · have hd₂' : d₂.Ascending (n + 1) := by
        rcases Disk.after_wroteSnapshot hd₂ with rfl | ⟨rfl, -⟩
        · exact hinstalled
        · exact hd₁'
      refine .nil ⟨n + 1, hlength, hd₂'⟩ fun k hk => ?_
      rw [← Option.some.inj hk]
      exact hd₂'
    · have hwrote : d₂ = { d₁ with snapshot := some i } := by
        refine (Disk.after_wroteSnapshot hd₂).resolve_right fun hfailed => ?_
        rw [hs'] at hfailed
        exact absurd hfailed.2 (by decide)
      refine .cons ⟨n + 1, hlength, hwrote ▸ hinstalled⟩ fun d₃ hd₃ => ?_
      have hd₃' : d₃.Ascending (n + 1) := by
        rw [hwrote] at hd₃
        exact hinstalled.rotated rfl hd₃
      refine .nil ⟨n + 1, hlength, hd₃'⟩ fun k hk => ?_
      rw [← Option.some.inj hk]
      exact hd₃'

namespace CreditEngine

variable {J : Type} [Journal J] {e e' : CreditEngine (Observed J)} {n : Nat}

/-- The calls of one engine step number their records from its counter on, and when no append
    has failed the counter is the one behind them. -/
def NumbersTo (e e' : CreditEngine (Observed J)) (persisted : Prop) : Prop :=
  ∃ evs m, e'.journal.log = e.journal.log ++ evs ∧
    Numbered e.nextJournalSequence.toNat evs m ∧ evs.length ≤ 5 ∧
    (persisted → m = some e'.nextJournalSequence.toNat)

/-- A snapshot numbers its own events, three at most. -/
theorem Snapshotted.numbered {s : Status} (h : Snapshotted e s e')
    (hn : e.nextJournalSequence.toNat + 1 < 2 ^ 64) :
    ∃ evs m, e'.journal.log = e.journal.log ++ evs ∧
      Numbered e.nextJournalSequence.toNat evs m ∧ evs.length ≤ 3 ∧
      (s.ok = true → m = some e'.nextJournalSequence.toNat) := by
  have hsucc : some (e.nextJournalSequence.toNat + 1) =
      some (e.nextJournalSequence + 1).toNat := by
    rw [toNat_add_one hn]
  cases h with
  | appendFailed h =>
    refine ⟨_, none, rfl, .lost rfl h, by simp, fun hok => ?_⟩
    rw [h] at hok
    exact absurd hok (by decide)
  | writeFailed ha h =>
    exact ⟨_, _, List.append_assoc _ _ _, .recorded rfl ha rfl (.inl rfl), by simp,
      fun _ => hsucc⟩
  | rotateFailed ha hw h =>
    exact ⟨_, _, (List.append_assoc _ _ _).trans (List.append_assoc _ _ _),
      .recorded rfl ha rfl (.inr ⟨hw, _, rfl⟩), by simp, fun _ => hsucc⟩
  | durable ha hw h =>
    exact ⟨_, _, (List.append_assoc _ _ _).trans (List.append_assoc _ _ _),
      .recorded rfl ha rfl (.inr ⟨hw, _, rfl⟩), by simp, fun _ => hsucc⟩

/-- So does what persists a decision, its snapshot included. -/
theorem Persisted.numbersTo {r : CreditRequest} {o : CreditOutcome} {a : AccountState} {c : Bool}
    {s : Status} (h : Persisted e r o a c s e')
    (hn : e.nextJournalSequence.toNat + 3 < 2 ^ 64) : NumbersTo e e' (s.ok = true) := by
  have hone : (e.nextJournalSequence + 1).toNat = e.nextJournalSequence.toNat + 1 :=
    toNat_add_one (by omega)
  have htwo : (e.nextJournalSequence + 1 + 1).toNat = e.nextJournalSequence.toNat + 2 := by
    rw [toNat_add_one (by omega), hone]
  have hattempt : (e.attemptRecord r o a c).sequence.toNat = e.nextJournalSequence.toNat + 1 :=
    hone
  -- where the journal calls stop, and the numbers they have used
  cases h with
  | appendFailed happended hs =>
    cases happended with
    | intentFailed hfailed =>
      exact ⟨_, none, rfl, .lost rfl hfailed, by simp, Status.never_ok hs⟩
    | attemptFailed hi hfailed =>
      exact ⟨_, none, List.append_assoc _ _ _, .appended rfl hi (.lost hattempt hfailed), by simp,
        Status.never_ok hs⟩
    | durable hi ha => exact absurd hs (by decide)
  | kept hi ha hrot =>
    exact ⟨_, _, List.append_assoc _ _ _, .appended rfl hi (.appended hattempt ha (.nil _)),
      by simp, fun _ => congrArg some htwo.symm⟩
  | rotated hi ha hrot hsnap =>
    have hnext : (e.afterDecision r o a c).nextJournalSequence.toNat =
        e.nextJournalSequence.toNat + 2 := htwo
    obtain ⟨more, m, hlog, hnumbered, hlength, hm⟩ := hsnap.numbered (by omega)
    rw [hnext] at hnumbered
    refine ⟨.appended (e.intentRecord r) (Journal.append e.journal (e.intentRecord r)).1 ::
      .appended (e.attemptRecord r o a c) (e.attemptAppend r o a c).1 :: more, m, ?_,
      .appended rfl hi (.appended hattempt ha hnumbered), ?_, hm⟩
    · rw [hlog]
      exact (List.append_assoc _ _ _).trans (List.append_assoc _ _ _)
    · simp only [List.length_cons]
      omega

omit [Journal J] in
/-- Journal calls that are not made. -/
theorem numbersTo_quiet {P : Prop} (hlog : e'.journal.log = e.journal.log)
    (hnext : e'.nextJournalSequence = e.nextJournalSequence) : NumbersTo e e' P := by
  refine ⟨[], _, ?_, .nil _, by simp, fun _ => ?_⟩
  · rw [hlog, List.append_nil]
  · rw [hnext]

/-- Neither rollback nor publication appends. -/
theorem settle_numbersTo {r : CreditRequest} {o : CreditOutcome} {a : AccountState} {c : Bool}
    {f g : CreditEngine (Observed J) → CreditEngine (Observed J)}
    (hf : ∀ e', (f e').journal = e'.journal)
    (hg : ∀ e', (g e').journal = e'.journal ∧
      (g e').nextJournalSequence = e'.nextJournalSequence)
    (hn : e.nextJournalSequence.toNat + 3 < 2 ^ 64) :
    NumbersTo e (e.settle r o a c f g).2 ((e.settle r o a c f g).2.journalFailed = false) := by
  obtain ⟨evs, m, hlog, hnumbered, hlength, hm⟩ := (persistLocked_persisted e r o a c).numbersTo hn
  cases hok : (e.persistLocked r o a c).1.ok with
  | false =>
    rw [settle_of_failed hok]
    refine ⟨evs, m, ?_, hnumbered, hlength, fun hhealthy => absurd hhealthy (by simp)⟩
    rw [← hlog]
    exact congrArg Observed.log (hf _)
  | true =>
    rw [settle_of_ok hok]
    obtain ⟨hjournal, hnext⟩ := hg (e.persistLocked r o a c).2
    refine ⟨evs, m, by rw [hjournal, hlog], hnumbered, hlength, fun _ => ?_⟩
    rw [hnext]
    exact hm hok

/-- **One call.** -/
theorem apply_numbersTo (e : CreditEngine (Observed J)) (r : CreditRequest)
    (hn : e.nextJournalSequence.toNat + 3 < 2 ^ 64) :
    NumbersTo e (e.apply r).2 ((e.apply r).2.journalFailed = false) := by
  have hcase := e.apply_cases r
  generalize e.apply r = result at hcase ⊢
  cases hcase with
  | answered => exact numbersTo_quiet rfl rfl
  | absorbed => exact numbersTo_quiet rfl rfl
  | opened hopens =>
    exact settle_numbersTo (e := e.opening r) (fun _ => rfl) (fun _ => ⟨rfl, rfl⟩) hn
  | decided a hadmitted =>
    unfold settleDecision follow
    cases e.decision a r with
    | reject s a' => exact numbersTo_quiet rfl rfl
    | refuse s a' =>
      exact settle_numbersTo (e := e.refusing r a') (fun _ => rfl) (fun _ => ⟨rfl, rfl⟩) hn
    | proceed a' =>
      exact settle_numbersTo (e := e.applying r a') (fun _ => rfl) (fun _ => ⟨rfl, rfl⟩) hn

/-- **One snapshot.** -/
theorem snapshot_numbersTo (e : CreditEngine (Observed J))
    (hn : e.nextJournalSequence.toNat + 3 < 2 ^ 64) :
    NumbersTo e e.snapshot.2 (e.snapshot.1.ok = true) := by
  unfold snapshot
  split_ifs
  · exact numbersTo_quiet rfl rfl
  · exact numbersTo_quiet rfl rfl
  · obtain ⟨evs, m, hlog, hnumbered, hlength, hm⟩ :=
      (snapshotLocked_snapshotted e).numbered (by omega)
    exact ⟨evs, m, hlog, hnumbered, by omega, hm⟩

end CreditEngine

/-! ### What a recovery continues with -/

namespace CreditEngine

variable {J : Type}

/-- The counter one replayed record leaves. -/
theorem RecordReplay.next {e e' : CreditEngine J} {snap : Option UInt64} {t : JournalRecord}
    (h : RecordReplay e snap t e') :
    e'.nextJournalSequence = Disk.nextBehind snap e.nextJournalSequence t := by
  unfold Disk.nextBehind
  cases h with
  | skipped hskip => rw [if_pos hskip]
  | intent hskip kind pending =>
    rw [if_neg (by rw [hskip]; decide), if_pos kind]
    exact markAmbiguous_next e pending t.sequence
  | snapshot hskip kind =>
    rw [if_neg (by rw [hskip]; decide), if_neg (by rw [kind]; decide)]
  | attempt hskip kind =>
    rw [if_neg (by rw [hskip]; decide), if_neg (by rw [kind]; decide)]

/-- The counter a whole replay leaves. -/
theorem ReplaysTo.counter {e e' : CreditEngine J} {snap : Option UInt64}
    {recs : List JournalRecord} (h : ReplaysTo snap e recs e') :
    e'.nextJournalSequence = recs.foldl (Disk.nextBehind snap) e.nextJournalSequence := by
  induction h with
  | done => rfl
  | next j hrecord hs tail ih =>
    rw [ih, (replayRecord_inv hrecord hs).next]
    rfl

/-- The counter behind a recovery is read off the disk. -/
theorem Recovers.next {d : Disk} {e : CreditEngine J} (h : Recovers d e) :
    e.nextJournalSequence = d.next := by
  obtain ⟨-, e₀, e₁, hloaded, hreplays⟩ := h
  rw [hreplays.counter]
  unfold Disk.next
  generalize d.snapshot = image at hloaded
  cases hloaded <;> rfl

end CreditEngine

namespace Disk

variable {d : Disk} {n : Nat}

/-- Payloads below the wire's limit are addressable. -/
theorem addressable_of_small (h : d.records.all (fun t => t.payload.length < 2 ^ 64) = true)
    (h' : d.snapshot.all (fun i => i.payload.length < 2 ^ 64) = true) : d.Addressable := by
  refine ⟨fun t ht => of_decide_eq_true (List.all_eq_true.mp h t ht), fun i hi => ?_⟩
  rw [hi] at h'
  exact of_decide_eq_true h'

/-- Records that the snapshot covers move no counter. -/
theorem foldl_nextBehind_skipped {snap : Option UInt64} {next : UInt64}
    {recs : List JournalRecord} (h : ∀ t ∈ recs, snap.any (t.sequence ≤ ·) = true) :
    recs.foldl (nextBehind snap) next = next := by
  induction recs with
  | nil => rfl
  | cons t recs ih =>
    rw [List.foldl_cons, nextBehind, if_pos (h t List.mem_cons_self)]
    exact ih fun t' ht' => h t' (List.mem_cons_of_mem t ht')

/-- A log ends before `t`, or all its records are in front of its last one. -/
theorem Ascending.le_last (h : d.Ascending n) {recs : List JournalRecord} {t : JournalRecord}
    (hrecords : d.records = recs ++ [t]) : ∀ t' ∈ d.records, t'.sequence ≤ t.sequence := by
  have hordered : d.records.Pairwise fun t t' => t.sequence < t'.sequence :=
    h.ordered.sublist h.kept
  rw [hrecords] at hordered ⊢
  intro t' ht'
  rcases List.mem_append.mp ht' with hold | hnew
  · exact UInt64.le_of_lt ((List.pairwise_append.mp hordered).2.2 t' hold t List.mem_cons_self)
  · rw [List.mem_singleton.mp hnew]
    exact UInt64.le_refl _

/-- **Recovery.**  Behind a log that is not orphaned the counter is ahead of everything that was
    ever written. -/
theorem Ascending.recovered (h : d.Ascending n) (hn : n < 2 ^ 64) (hclean : ¬ d.Orphaned) :
    d.Ascending d.next.toNat ∧ 0 < d.next.toNat ∧ d.next.toNat ≤ n + 1 := by
  have hmove : ∀ {m : Nat}, (∀ t ∈ d.written, t.sequence.toNat < m) → d.Ascending m :=
    fun hm => ⟨h.ordered, h.positive, hm, h.installed, h.kept, h.covered⟩
  have himage : ∀ i, d.snapshot = some i → i.sequence.toNat < n := by
    intro i hi
    obtain ⟨t, ht, heq⟩ := h.installed i hi
    rw [heq]
    exact h.below t ht
  -- a counter behind a record that everything written is at or below
  have hbehind : ∀ {s : UInt64}, d.next = s + 1 → s.toNat < n →
      (∀ t ∈ d.written, t.sequence ≤ s) →
      d.Ascending d.next.toNat ∧ 0 < d.next.toNat ∧ d.next.toNat ≤ n + 1 := by
    intro s hnext hs hall
    have hsucc : d.next.toNat = s.toNat + 1 := by
      rw [hnext]
      exact toNat_add_one (by omega)
    refine ⟨hmove fun t ht => ?_, by omega, by omega⟩
    have hle := UInt64.le_iff_toNat_le.mp (hall t ht)
    omega
  -- every record is covered, or the log is empty
  have hcovered : (∀ t ∈ d.records, (d.snapshot.map SnapshotImage.sequence).any
      (t.sequence ≤ ·) = true) →
      d.Ascending d.next.toNat ∧ 0 < d.next.toNat ∧ d.next.toNat ≤ n + 1 := by
    intro hskipped
    have hnext : d.next = _ := foldl_nextBehind_skipped hskipped
    cases hsnapshot : d.snapshot with
    | none =>
      have hnone : d.written = [] := by
        refine List.eq_nil_iff_forall_not_mem.mpr fun t ht => ?_
        rcases h.covered t ht with hmem | ⟨i, hi, -⟩
        · have hskip := hskipped t hmem
          rw [hsnapshot] at hskip
          exact absurd (show false = true from hskip) (by decide)
        · rw [hsnapshot] at hi
          exact absurd hi (by simp)
      rw [hsnapshot] at hnext
      rw [hnext]
      refine ⟨hmove fun t ht => ?_, Nat.one_pos, by show 1 ≤ n + 1; omega⟩
      rw [hnone] at ht
      exact absurd ht List.not_mem_nil
    | some i =>
      rw [hsnapshot] at hnext
      refine hbehind hnext (himage i hsnapshot) fun t ht => ?_
      rcases h.covered t ht with hmem | ⟨i', hi', hle⟩
      · have hskip := hskipped t hmem
        rw [hsnapshot] at hskip
        exact of_decide_eq_true hskip
      · rw [hsnapshot] at hi'
        rw [Option.some.inj hi']
        exact hle
  rcases List.eq_nil_or_concat d.records with hnil | ⟨recs, t, hrecords⟩
  · refine hcovered fun t ht => ?_
    rw [hnil] at ht
    exact absurd ht List.not_mem_nil
  rw [List.concat_eq_append] at hrecords
  have hlast := h.le_last hrecords
  have hmem : t ∈ d.records := by
    rw [hrecords]
    exact List.mem_append_right _ List.mem_cons_self
  cases hskip : (d.snapshot.map SnapshotImage.sequence).any (t.sequence ≤ ·) with
  | true =>
    refine hcovered fun t' ht' => ?_
    have hle := hlast t' ht'
    cases hsnapshot : d.snapshot with
    | none =>
      rw [hsnapshot] at hskip
      exact absurd (show false = true from hskip) (by decide)
    | some i =>
      rw [hsnapshot] at hskip
      exact decide_eq_true (UInt64.le_trans hle (of_decide_eq_true hskip))
  | false =>
    have hkind : t.kind ≠ .intent := by
      intro hkind
      exact hclean ⟨t, by rw [hrecords, List.getLast?_concat], hkind, hskip⟩
    have hnext : d.next = t.sequence + 1 := by
      unfold next
      rw [hrecords, List.foldl_append, List.foldl_cons, List.foldl_nil]
      unfold nextBehind
      rw [if_neg (by rw [hskip]; decide), if_neg hkind]
    refine hbehind hnext (h.below t (h.kept.subset hmem)) fun t' ht' => ?_
    rcases h.covered t' ht' with hmem' | ⟨i, hi, hle⟩
    · exact hlast t' hmem'
    · rw [hi] at hskip
      have hahead : ¬ t.sequence ≤ i.sequence := of_decide_eq_false hskip
      exact UInt64.le_trans hle (UInt64.le_of_lt (UInt64.not_le.mp hahead))

/-- Behind an orphaned log the number of its last record is used again. -/
theorem Ascending.reused (h : d.Ascending n) (horphaned : d.Orphaned) :
    ∃ t ∈ d.records, d.next ≤ t.sequence := by
  obtain ⟨t, hlast, hkind, hskip⟩ := horphaned
  obtain ⟨recs, hrecords⟩ := List.getLast?_eq_some_iff.mp hlast
  have hmem : t ∈ d.records := by
    rw [hrecords]
    exact List.mem_append_right _ List.mem_cons_self
  refine ⟨t, hmem, ?_⟩
  have hordered : (recs ++ [t]).Pairwise fun t t' => t.sequence < t'.sequence := by
    rw [← hrecords]
    exact h.ordered.sublist h.kept
  have hahead : ∀ t' ∈ recs, t'.sequence < t.sequence := fun t' ht' =>
    (List.pairwise_append.mp hordered).2.2 t' ht' t List.mem_cons_self
  have hsucc : ∀ {s : UInt64}, s < t.sequence → s + 1 ≤ t.sequence := by
    intro s hs
    have hlt := t.sequence.toNat_lt
    rw [UInt64.lt_iff_toNat_lt] at hs
    rw [UInt64.le_iff_toNat_le, toNat_add_one (by omega)]
    omega
  -- the fold never passes the last record
  have hfold : ∀ (l : List JournalRecord) (next : UInt64), (∀ t' ∈ l, t'.sequence < t.sequence) →
      next ≤ t.sequence →
      l.foldl (nextBehind (d.snapshot.map SnapshotImage.sequence)) next ≤ t.sequence := by
    intro l
    induction l with
    | nil => exact fun next _ hnext => hnext
    | cons t' l ih =>
      intro next hall hnext
      refine ih _ (fun t₁ ht₁ => hall t₁ (List.mem_cons_of_mem t' ht₁)) ?_
      unfold nextBehind
      split_ifs
      · exact hnext
      · exact hnext
      · exact hsucc (hall t' List.mem_cons_self)
  unfold next
  rw [hrecords, List.foldl_append, List.foldl_cons, List.foldl_nil]
  unfold nextBehind
  rw [if_neg (by rw [hskip]; decide), if_pos hkind]
  refine hfold recs _ hahead ?_
  cases hsnapshot : d.snapshot with
  | none =>
    have hpositive := h.positive t (h.kept.subset hmem)
    rw [UInt64.le_iff_toNat_le]
    exact hpositive
  | some i =>
    rw [hsnapshot] at hskip
    exact hsucc (UInt64.not_le.mp (of_decide_eq_false hskip))

end Disk

/-! ### Deployments -/

namespace Deployment

open CreditEngine

variable {J : Type} [Journal J] {w w' : Deployment J} {n : Nat}

/-- An explicit snapshot returned Ok, and a restart finds a log that is not orphaned. -/
def Clean (w : Deployment J) (act : Act) (w' : Deployment J) : Prop :=
  match act with
  | .call _ => True
  | .snapshot => w.engine.snapshot.1.ok = true
  | .restart => ¬ w'.disk.Orphaned

/-- Any number of clean steps. -/
inductive RunClean (w : Deployment J) : List Act → Deployment J → Prop
  | nil : RunClean w [] w
  | concat {acts : List Act} {act : Act} {w₁ w₂ : Deployment J} (run : RunClean w acts w₁)
      (step : Step w₁ act w₂) (clean : w₁.Clean act w₂) : RunClean w (acts ++ [act]) w₂

/-- A call or a snapshot appends the record to a storage that holds `d` at that point. -/
def Appends (w : Deployment J) (d : Disk) (t : JournalRecord) : Prop :=
  ∃ before s after, d ∈ w.disk.afterAll before ∧
    ((∃ r, events w.engine (w.engine.apply r).2 = before ++ .appended t s :: after) ∨
      events w.engine w.engine.snapshot.2 = before ++ .appended t s :: after)

/-- The records ever written are in order, and below the counter of an engine that may write. -/
structure Fresh (n : Nat) (w : Deployment J) : Prop where
  stored : ∃ k ≤ 8 * n + 1, w.disk.Ascending k
  level : w.engine.journalFailed = false → w.engine.recovered = true →
    w.disk.Ascending w.engine.nextJournalSequence.toNat ∧
      0 < w.engine.nextJournalSequence.toNat ∧
      w.engine.nextJournalSequence.toNat ≤ 8 * n + 1

/-- An engine that may not write makes no journal calls. -/
theorem events_of_silent {e : CreditEngine (Observed J)}
    (h : e.journalFailed = true ∨ e.recovered = false) (r : CreditRequest) :
    (e.apply r).2 = e ∧ e.snapshot.2 = e := by
  rcases h with hfailed | hrecovered
  · exact ⟨journalFailed_apply hfailed r, (events_of_failed hfailed r).2.1⟩
  · refine ⟨?_, ?_⟩
    · unfold apply
      simp only [hrecovered, Bool.not_false, if_true]
    · unfold snapshot
      simp only [hrecovered, Bool.not_false, if_true]

omit [Journal J] in
/-- The calls from an engine to itself. -/
theorem events_self (e : CreditEngine (Observed J)) : events e e = [] :=
  events_of_append (List.append_nil _).symm

omit [Journal J] in
/-- What journal calls in order leave, cut off anywhere or made in full. -/
theorem Fresh.numbered (h : Fresh n w) (hhealthy : w.engine.journalFailed = false)
    (hrecovered : w.engine.recovered = true) {e' : CreditEngine (Observed J)} {P : Prop}
    (hnumbers : NumbersTo w.engine e' P) :
    (∀ done d, done <+: events w.engine e' → d ∈ w.disk.afterAll done →
      ∃ k ≤ 8 * n + 6, d.Ascending k) ∧
    ∀ d ∈ w.disk.afterAll (events w.engine e'), P →
      d.Ascending e'.nextJournalSequence.toNat ∧ 0 < e'.nextJournalSequence.toNat ∧
        e'.nextJournalSequence.toNat ≤ 8 * n + 6 := by
  obtain ⟨hascending, hpositive, hbound⟩ := h.level hhealthy hrecovered
  obtain ⟨evs, m, hlog, hnumbered, hlength, hm⟩ := hnumbers
  have hthrough := hnumbered.through hascending hpositive
  rw [events_of_append hlog]
  refine ⟨fun done d hprefix hd => ?_, fun d hd hP => ?_⟩
  · obtain ⟨k, hk, hd⟩ := hthrough.always.of_prefix hprefix hd
    exact ⟨k, by omega, hd⟩
  · obtain ⟨hle, hle'⟩ := hnumbered.le (hm hP)
    exact ⟨hthrough.after d hd _ (hm hP), by omega, by omega⟩

/-- What a crash leaves. -/
theorem Fresh.crashed (hn : n < 2 ^ 60) (h : Fresh n w) {d : Disk} (hcrash : w.Crashes d) :
    ∃ k ≤ 8 * n + 6, d.Ascending k := by
  obtain ⟨done, hd, hdone⟩ := hcrash
  by_cases hsilent : w.engine.journalFailed = true ∨ w.engine.recovered = false
  · have hnone : done = [] := by
      rcases hdone with ⟨r, hprefix⟩ | hprefix
      · rw [(events_of_silent hsilent r).1, events_self] at hprefix
        exact List.prefix_nil.mp hprefix
      · rw [(events_of_silent hsilent {}).2, events_self] at hprefix
        exact List.prefix_nil.mp hprefix
    rw [hnone, Disk.mem_afterAll_nil] at hd
    obtain ⟨k, hk, hascending⟩ := h.stored
    rw [hd]
    exact ⟨k, by omega, hascending⟩
  · obtain ⟨hhealthy, hrecovered⟩ := not_or.mp hsilent
    rw [Bool.not_eq_true] at hhealthy
    rw [Bool.not_eq_false] at hrecovered
    obtain ⟨-, -, hbound⟩ := h.level hhealthy hrecovered
    rcases hdone with ⟨r, hprefix⟩ | hprefix
    · exact (h.numbered hhealthy hrecovered (apply_numbersTo w.engine r (by omega))).1 done d
        hprefix hd
    · exact (h.numbered hhealthy hrecovered (snapshot_numbersTo w.engine (by omega))).1 done d
        hprefix hd

/-- **Step lemma.** -/
theorem Fresh.step (hn : n < 2 ^ 60) (h : Fresh n w) {act : Act} (hstep : Step w act w')
    (hclean : w.Clean act w') : Fresh (n + 1) w' := by
  obtain ⟨k₀, hk₀, hstored⟩ := h.stored
  cases hstep with
  | called r d durable =>
    have hconfig := apply_sameConfig w.engine r
    -- an engine that is latched or not recovered makes no journal call
    by_cases hsilent : w.engine.journalFailed = true ∨ w.engine.recovered = false
    · have hsame := (events_of_silent hsilent r).1
      rw [hsame, events_self, Disk.mem_afterAll_nil] at durable
      rw [hsame, durable]
      exact ⟨⟨k₀, by omega, hstored⟩, fun hhealthy hrecovered => absurd hsilent
        (by rw [not_or, hrecovered]; exact ⟨by simpa using hhealthy, by decide⟩)⟩
    · obtain ⟨hhealthy, hrecovered⟩ := not_or.mp hsilent
      rw [Bool.not_eq_true] at hhealthy
      rw [Bool.not_eq_false] at hrecovered
      obtain ⟨-, -, hbound⟩ := h.level hhealthy hrecovered
      obtain ⟨hcrash, hafter⟩ := h.numbered hhealthy hrecovered
        (apply_numbersTo w.engine r (by omega))
      obtain ⟨k, hk, hd⟩ := hcrash _ d (List.prefix_refl _) durable
      refine ⟨⟨k, by omega, hd⟩, fun hlate _ => ?_⟩
      obtain ⟨hascending, hpositive, hle⟩ := hafter d durable hlate
      exact ⟨hascending, hpositive, hle.trans (by omega)⟩
  | snapshotted d durable =>
    by_cases hsilent : w.engine.journalFailed = true ∨ w.engine.recovered = false
    · have hsame := (events_of_silent hsilent {}).2
      rw [hsame, events_self, Disk.mem_afterAll_nil] at durable
      rw [hsame, durable]
      exact ⟨⟨k₀, by omega, hstored⟩, fun hhealthy hrecovered => absurd hsilent
        (by rw [not_or, hrecovered]; exact ⟨by simpa using hhealthy, by decide⟩)⟩
    · obtain ⟨hhealthy, hrecovered⟩ := not_or.mp hsilent
      rw [Bool.not_eq_true] at hhealthy
      rw [Bool.not_eq_false] at hrecovered
      obtain ⟨-, -, hbound⟩ := h.level hhealthy hrecovered
      obtain ⟨hcrash, hafter⟩ := h.numbered hhealthy hrecovered
        (snapshot_numbersTo w.engine (by omega))
      obtain ⟨k, hk, hd⟩ := hcrash _ d (List.prefix_refl _) durable
      refine ⟨⟨k, by omega, hd⟩, fun _ _ => ?_⟩
      obtain ⟨hascending, hpositive, hle⟩ := hafter d durable hclean
      exact ⟨hascending, hpositive, hle.trans (by omega)⟩
  -- a recovery counts from behind what it read
  | restarted limits journal operator nonce d o' crash addressable yields ok =>
    obtain ⟨k, hk, hd⟩ := h.crashed hn crash
    obtain ⟨q, hq, -, hnext, -⟩ := recover_recovers addressable yields ok
    obtain ⟨hascending, hpositive, hle⟩ := hd.recovered (by omega) hclean
    have hcounter :
        (make limits (Observed.mk journal []) operator nonce).recover.2.nextJournalSequence =
          d.next := by rw [hnext, hq.next]
    refine ⟨⟨k, by omega, hd⟩, fun _ _ => ?_⟩
    show d.Ascending (_ : UInt64).toNat ∧ 0 < (_ : UInt64).toNat ∧ (_ : UInt64).toNat ≤ _
    rw [hcounter]
    exact ⟨hascending, hpositive, by omega⟩

/-- **Run lemma.** -/
theorem RunClean.fresh {limits : EngineLimits} {journal : J} {operator : Incarnation}
    {nonce : Digest128} {acts : List Act}
    (hrun : RunClean (start limits journal operator nonce) acts w) (hacts : acts.length ≤ 2 ^ 60) :
    Fresh acts.length w := by
  induction hrun with
  | nil =>
    exact ⟨⟨1, le_rfl, Disk.ascending_empty 1⟩, fun _ hrecovered =>
      absurd (show false = true from hrecovered) (by decide)⟩
  | @concat acts act w₁ w₂ run step clean ih =>
    rw [List.length_append, List.length_singleton] at hacts ⊢
    exact (ih (by omega)).step (by omega) step clean

/-- The calls in front of an append and the append itself are calls a crash can end with. -/
theorem Appends.crashes {d : Disk} {t : JournalRecord} (h : w.Appends d t) :
    w.Crashes d ∧ w.Crashes { d with records := d.records ++ [t], written := d.written ++ [t] } := by
  obtain ⟨before, s, after, hd, hevents⟩ := h
  have hprefix : ∀ {evs : List JournalEvent}, evs = before ++ .appended t s :: after →
      before <+: evs ∧ before ++ [.appended t s] <+: evs := by
    rintro evs rfl
    exact ⟨List.prefix_append _ _, ⟨after, by simp⟩⟩
  have hafter : { d with records := d.records ++ [t], written := d.written ++ [t] } ∈
      w.disk.afterAll (before ++ [.appended t s]) := by
    refine Disk.mem_afterAll_append.mpr ⟨d, hd, Disk.mem_afterAll_cons.mpr ⟨_, ?_,
      Disk.mem_afterAll_nil.mpr rfl⟩⟩
    simp only [Disk.after]
    split_ifs
    · exact List.mem_cons_self
    · exact List.mem_cons_of_mem _ List.mem_cons_self
  rcases hevents with ⟨r, hevents⟩ | hevents
  · obtain ⟨hbefore, hwith⟩ := hprefix hevents
    exact ⟨⟨before, hd, .inl ⟨r, hbefore⟩⟩, ⟨_, hafter, .inl ⟨r, hwith⟩⟩⟩
  · obtain ⟨hbefore, hwith⟩ := hprefix hevents
    exact ⟨⟨before, hd, .inr hbefore⟩, ⟨_, hafter, .inr hwith⟩⟩

/-- The record is ahead of every record ever written and of the installed snapshot. -/
def AheadOf (t : JournalRecord) (d : Disk) : Prop :=
  (∀ t' ∈ d.written, t'.sequence < t.sequence) ∧
    ∀ i, d.snapshot = some i → i.sequence < t.sequence

/-- A record that keeps the disk ascending is ahead of it. -/
theorem aheadOf_of_ascending {d : Disk} {t : JournalRecord} {k k' : Nat} (hd : d.Ascending k)
    (hafter : Disk.Ascending
      { d with records := d.records ++ [t], written := d.written ++ [t] } k') : AheadOf t d := by
  have hordered : ∀ t' ∈ d.written, t'.sequence < t.sequence := fun t' ht' =>
    (List.pairwise_append.mp hafter.ordered).2.2 t' ht' t List.mem_cons_self
  refine ⟨hordered, fun i hi => ?_⟩
  obtain ⟨t', ht', heq⟩ := hd.installed i hi
  rw [heq]
  exact hordered t' ht'

/-- **Sequence numbers do not repeat.**  In every run over any number of boots whose explicit
    snapshots returned Ok and whose restarts do not find an orphaned log, every appended record
    is ahead of every record before it and of the installed snapshot; and the counter behind one
    more restart is ahead of every record in the log if and only if that log is not orphaned. -/
theorem sequences_ahead {limits : EngineLimits} {journal : J} {operator : Incarnation}
    {nonce : Digest128} {acts : List Act}
    (hrun : RunClean (start limits journal operator nonce) acts w)
    (hacts : acts.length < 2 ^ 60) :
    (∀ d t, w.Appends d t → AheadOf t d) ∧
      ∀ w', Step w .restart w' →
        ((∀ t ∈ w'.disk.records, t.sequence < w'.engine.nextJournalSequence) ↔
          ¬ w'.disk.Orphaned) := by
  have hfresh := hrun.fresh hacts.le
  refine ⟨fun d t happends => ?_, fun w' hstep => ?_⟩
  · obtain ⟨hcrash, hcrash'⟩ := happends.crashes
    obtain ⟨k, -, hd⟩ := hfresh.crashed hacts hcrash
    obtain ⟨k', -, hd'⟩ := hfresh.crashed hacts hcrash'
    exact aheadOf_of_ascending hd hd'
  · cases hstep with
    | restarted limits journal operator nonce d o' crash addressable yields ok =>
    obtain ⟨k, hk, hd⟩ := hfresh.crashed hacts crash
    obtain ⟨q, hq, -, hnext, -⟩ := recover_recovers addressable yields ok
    show (∀ t ∈ d.records, t.sequence < _) ↔ ¬ d.Orphaned
    rw [hnext, hq.next]
    constructor
    · intro hahead horphaned
      obtain ⟨t, ht, hle⟩ := hd.reused horphaned
      exact UInt64.not_lt.mpr hle (hahead t ht)
    · intro hclean t ht
      obtain ⟨hascending, -, -⟩ := hd.recovered (by omega) hclean
      rw [UInt64.lt_iff_toNat_lt]
      exact hascending.below t (hascending.kept.subset ht)

/-- A call of a known engine on a known storage. -/
theorem exists_call {e e' : CreditEngine (Observed J)} {d : Disk} (he : w.engine = e)
    (hd : w.disk = d) (r : CreditRequest) (d' : Disk) (hafter : d' ∈ d.afterAll (events e e'))
    (hcalled : e' = e.run [r]) : ∃ w', Step w (.call r) w' ∧ w'.engine = e' ∧ w'.disk = d' := by
  subst he hd hcalled
  exact ⟨_, .called r d' hafter, rfl, rfl⟩

/-- A snapshot is a step to every disk its events may leave. -/
theorem exists_snapshot {e e' : CreditEngine (Observed J)} {d : Disk} (he : w.engine = e)
    (hd : w.disk = d) (d' : Disk) (hafter : d' ∈ d.afterAll (events e e'))
    (hsaved : e' = e.saved) : ∃ w', Step w .snapshot w' ∧ w'.engine = e' ∧ w'.disk = d' := by
  subst he hd hsaved
  exact ⟨_, .snapshotted d' hafter, rfl, rfl⟩

end Deployment

/-! ### An Intent without its Attempt -/

namespace OrphanedIntent

open CreditEngine Fixture

/-- The nonce of the first boot. -/
def nonce : Digest128 := ⟨0x39, 0x93⟩

/-- The nonce of the boot after the crash. -/
def later : Digest128 := ⟨0x40, 0x04⟩

/-- An engine over an empty disk. -/
def booted : CreditEngine (Observed InMemoryJournal) := Fixture.boot {} ⟨{}, []⟩ nonce

/-- The same engine after an Open. -/
def opened : CreditEngine (Observed InMemoryJournal) :=
  booted.run [request nonce me .open_ 1]

/-- What the Open leaves on the storage. -/
def disk : Disk :=
  ((({} : Disk).afterAll (Deployment.events booted opened)).head?).getD {}

/-- The first journal call of an Issue. -/
def cut : List JournalEvent :=
  (Deployment.events opened (opened.apply (request nonce me .issue 2)).2).take 1

/-- What reached the disk is a prefix of what the Issue appended. -/
theorem cut_prefix :
    cut <+: Deployment.events opened (opened.apply (request nonce me .issue 2)).2 :=
  List.take_prefix 1 _

/-- What a crash leaves between the two records of the Issue. -/
def orphaned : Disk := ((disk.afterAll cut).head?).getD {}

/-- The engine that recovers from it. -/
def again : CreditEngine (Observed InMemoryJournal) :=
  Fixture.boot {} ⟨orphaned.inMemory, []⟩ later

/-- The two records of the Issue, which a crash leaves although the call has not returned. -/
def whole : List JournalEvent :=
  (Deployment.events opened (opened.apply (request nonce me .issue 2)).2).take 2

/-- The disk had the whole Issue reached it. -/
def unanswered : Disk := ((disk.afterAll whole).head?).getD {}

/-- The engine that recovers from them. -/
def informed : CreditEngine (Observed InMemoryJournal) :=
  Fixture.boot {} ⟨unanswered.inMemory, []⟩ later

/-- The engine of the second boot, reconciled. -/
def rejoined : CreditEngine (Observed InMemoryJournal) :=
  informed.run [request later me .reconcile 3]

/-- The disk it leaves. -/
def rest : Disk :=
  ((unanswered.afterAll (Deployment.events informed rejoined)).head?).getD {}

/-- The Issue the second boot serves. -/
def issuing : CreditRequest := request later me .issue 4

/-- The first record of one more Issue. -/
def next : JournalRecord := rejoined.intentRecord issuing

/-- What a crash leaves behind that record. -/
def dangling : Disk :=
  { rest with records := rest.records ++ [next], written := rest.written ++ [next] }

/-- A run over two boots, evaluated once. -/
theorem evaluated_boots :
    (disk ∈ ({} : Disk).afterAll (Deployment.events booted opened) ∧
      unanswered ∈ disk.afterAll whole ∧
      rest ∈ unanswered.afterAll (Deployment.events informed rejoined)) ∧
    (unanswered.records.all (fun t => t.payload.length < 2 ^ 64) = true ∧
      unanswered.snapshot.all (fun i => i.payload.length < 2 ^ 64) = true ∧
      (make {} (Observed.mk unanswered.inMemory []) me later).recover.1.ok = true) ∧
    (rest.records.all (fun t => t.payload.length < 2 ^ 64) = true ∧
      rest.snapshot.all (fun i => i.payload.length < 2 ^ 64) = true ∧
      (make {} (Observed.mk rest.inMemory []) me later).recover.1.ok = true) ∧
    (dangling.records.all (fun t => t.payload.length < 2 ^ 64) = true ∧
      dangling.snapshot.all (fun i => i.payload.length < 2 ^ 64) = true ∧
      (make {} (Observed.mk dangling.inMemory []) me later).recover.1.ok = true) ∧
    (unanswered.records.getLast?.map JournalRecord.kind = some .attempt ∧
      rest.records.getLast?.map JournalRecord.kind = some .attempt ∧ dangling.snapshot = none) ∧
    Deployment.events rejoined (rejoined.apply issuing).2 =
      .appended next .success :: (Deployment.events rejoined (rejoined.apply issuing).2).tail := by
  decide +kernel

/-- A log that ends with an Attempt is not orphaned. -/
theorem not_orphaned {d : Disk} (h : d.records.getLast?.map JournalRecord.kind = some .attempt) :
    ¬ d.Orphaned := by
  rintro ⟨t, ht, hkind, -⟩
  rw [ht, Option.map_some, hkind] at h
  exact absurd h (by decide)

/-- Behind a crash in the Issue and a second boot the next record is ahead of all others; a restart
    in front of it continues behind every record, and one behind it does not. -/
theorem first_ahead : ∃ w w₁ w₂, Deployment.RunClean
      (Deployment.start {} ({} : InMemoryJournal) me nonce)
      [.restart, .call (request nonce me .open_ 1), .restart, .call (request later me .reconcile 3)]
      w ∧
    (w.Appends rest next ∧ Deployment.AheadOf next rest) ∧
    (Deployment.Step w .restart w₁ ∧
      ∀ t ∈ w₁.disk.records, t.sequence < w₁.engine.nextJournalSequence) ∧
    Deployment.Step w .restart w₂ ∧
      ¬ ∀ t ∈ w₂.disk.records, t.sequence < w₂.engine.nextJournalSequence := by
  obtain ⟨⟨hdisk, hunanswered, hrest⟩, ⟨hsmall, himage, hok⟩, ⟨hsmall₁, himage₁, hok₁⟩,
    ⟨hsmall₂, himage₂, hok₂⟩, ⟨hlast, hlast₁, hnone⟩, hevents⟩ := evaluated_boots
  obtain ⟨v₁, hfirst, hdisk₁, hengine₁⟩ := Deployment.exists_first {} nonce
  have hbooted : v₁.engine = booted := hengine₁
  obtain ⟨v₂, hcall, hopened, hdisk₂⟩ := Deployment.exists_call hbooted hdisk₁
    (request nonce me .open_ 1) disk hdisk rfl
  -- the Issue is cut off behind its second record
  have hcrash : v₂.Crashes unanswered := by
    refine ⟨whole, ?_, .inl ⟨request nonce me .issue 2, ?_⟩⟩
    · rw [hdisk₂]
      exact hunanswered
    · rw [hopened]
      exact List.take_prefix 2 _
  obtain ⟨v₃, hrestart, hdisk₃, hengine₃⟩ := Deployment.exists_restart {} later hcrash
    (Disk.addressable_of_small hsmall himage) hok
  have hinformed : v₃.engine = informed := hengine₃
  obtain ⟨w, hreconcile, hrejoined, hdisk'⟩ := Deployment.exists_call hinformed hdisk₃
    (request later me .reconcile 3) rest hrest rfl
  have hclean₁ : ¬ v₁.disk.Orphaned := by
    rintro ⟨t, ht, -⟩
    rw [hdisk₁] at ht
    exact absurd ht (by simp)
  have hclean₃ : ¬ v₃.disk.Orphaned := by
    rw [hdisk₃]
    exact not_orphaned hlast
  have hrun := Deployment.RunClean.concat (.concat (.concat (.concat .nil hfirst hclean₁) hcall
    trivial) hrestart hclean₃) hreconcile trivial
  have happends : w.Appends rest next := by
    refine ⟨[], .success, (Deployment.events rejoined (rejoined.apply issuing).2).tail,
      Disk.mem_afterAll_nil.mpr hdisk'.symm, .inl ⟨issuing, ?_⟩⟩
    rw [hrejoined]
    exact hevents
  obtain ⟨hbefore, hbehind⟩ := happends.crashes
  obtain ⟨w₁, hrestart₁, hdisk₁', -⟩ := Deployment.exists_restart {} later hbefore
    (Disk.addressable_of_small hsmall₁ himage₁) hok₁
  obtain ⟨w₂, hrestart₂, hdisk₂', -⟩ := Deployment.exists_restart {} later
    (show w.Crashes dangling from hbehind) (Disk.addressable_of_small hsmall₂ himage₂) hok₂
  obtain ⟨hahead, hiff⟩ := Deployment.sequences_ahead hrun (by decide)
  refine ⟨w, w₁, w₂, hrun, ⟨happends, hahead rest next happends⟩, ⟨hrestart₁, ?_⟩, hrestart₂, ?_⟩
  · refine (hiff w₁ hrestart₁).mpr ?_
    rw [hdisk₁']
    exact not_orphaned hlast₁
  · rw [hiff w₂ hrestart₂, not_not, hdisk₂']
    refine ⟨next, List.getLast?_concat, rfl, ?_⟩
    rw [hnone]
    rfl

/-- The Reconcile before it. -/
def reconcile : CreditRequest := request later me .reconcile 2

/-- Its first record. -/
def repeated : JournalRecord := again.intentRecord reconcile

/-- The run behind the first record, evaluated once. -/
theorem evaluated :
    (disk ∈ ({} : Disk).afterAll (Deployment.events booted opened) ∧
      orphaned ∈ disk.afterAll cut) ∧
    (orphaned.records.all (fun t => t.payload.length < 2 ^ 64) = true ∧
      orphaned.snapshot.all (fun i => i.payload.length < 2 ^ 64) = true ∧
      (make {} (Observed.mk orphaned.inMemory []) me later).recover.1.ok = true) ∧
    Deployment.events again (again.apply reconcile).2 = .appended repeated .success ::
      (Deployment.events again (again.apply reconcile).2).tail ∧
    ∃ t ∈ orphaned.written, ¬ t.sequence < repeated.sequence := by
  decide +kernel

/-- The next Intent has the number of the one that was left behind. -/
theorem intent_repeated : ¬ ∀ (limits : EngineLimits) (journal : InMemoryJournal)
    (operator : Incarnation) (nonce : Digest128) (acts : List Deployment.Act)
    (w : Deployment InMemoryJournal),
    Deployment.Run (Deployment.start limits journal operator nonce) acts w →
    ∀ d t, w.Appends d t → Deployment.AheadOf t d := by
  intro hclaim
  obtain ⟨⟨hdisk, horphaned⟩, ⟨hsmall, himage, hok⟩, hevents, t, ht, hbehind⟩ := evaluated
  obtain ⟨w₁, hfirst, hdisk₁, hengine₁⟩ := Deployment.exists_first {} nonce
  have hbooted : w₁.engine = booted := hengine₁
  obtain ⟨w₂, hcall, hopened, hdisk₂⟩ := Deployment.exists_call hbooted hdisk₁
    (request nonce me .open_ 1) disk hdisk rfl
  -- the Issue is cut off behind its first record
  have hcrash : w₂.Crashes orphaned := by
    refine ⟨cut, ?_, .inl ⟨request nonce me .issue 2, ?_⟩⟩
    · rw [hdisk₂]
      exact horphaned
    · rw [hopened]
      exact cut_prefix
  obtain ⟨w₃, hrestart, hdisk₃, hengine₃⟩ := Deployment.exists_restart {} later
    hcrash (Disk.addressable_of_small hsmall himage) hok
  have hrun := Deployment.Run.concat (.concat (.concat .nil hfirst) hcall) hrestart
  have hagain : w₃.engine = again := hengine₃
  have happends : w₃.Appends orphaned repeated := by
    refine ⟨[], .success, (Deployment.events again (again.apply reconcile).2).tail,
      Disk.mem_afterAll_nil.mpr hdisk₃.symm, .inl ⟨reconcile, ?_⟩⟩
    rw [hagain]
    exact hevents
  exact hbehind ((hclaim _ _ _ _ _ w₃ hrun orphaned repeated happends).1 t ht)

end OrphanedIntent

end CreditFabric
