import CreditFabric.Replay
import CreditFabric.Trace

namespace CreditFabric

open Std (ExtTreeMap)

/-!
# What a journal keeps

The contract of `journal.hpp` on the storage behind a journal: a record is durable when its
append returned Ok, a snapshot replaces the one before it, a rotation discards the records at
or below the snapshot's sequence.  A call that did not return Ok may have taken effect or not,
so `Disk.after` is a list of possibilities.  A crash leaves the effect of a prefix of the calls.
Which journals keep the contract, and how long, is said in the modules on stored journals.

`recover_inv` is the other direction of `recover_rule`: a recovery that returned Ok has loaded
the snapshot and replayed every record it read.
-/

/-- The durable contents behind a journal: the newest snapshot, the log, and for the record
    everything that was ever durable in the log. -/
structure Disk where
  snapshot : Option SnapshotImage := none
  records : List JournalRecord := []
  written : List JournalRecord := []
deriving DecidableEq, Repr

namespace Disk

/-- The contents a journal call can leave behind, by the contract.  A `StoredJournal` keeps it:
    an in-memory journal always, a file journal up to its first call that did not return Ok, so
    in all the runs whose explicit snapshots returned Ok (`Process.RunAnswered.deployed`).  Behind
    a rotation that failed a file journal has lost its place, and what it then acknowledges need
    not be read back. -/
def after (d : Disk) : JournalEvent → List Disk
  | .appended t s =>
    let d' := { d with records := d.records ++ [t], written := d.written ++ [t] }
    if s.ok then [d'] else [d, d']
  | .wroteSnapshot i s =>
    let d' := { d with snapshot := some i }
    if s.ok then [d'] else [d, d']
  | .rotated n s =>
    let d' := { d with records := d.records.filter fun t => !(t.sequence ≤ n) }
    if s.ok then [d'] else [d, d']
  | _ => [d]

/-- The contents a sequence of journal calls can leave behind. -/
def afterAll (d : Disk) : List JournalEvent → List Disk
  | [] => [d]
  | ev :: evs => (d.after ev).flatMap fun d' => d'.afterAll evs

/-- The contents behind an append that took effect. -/
structure Appended (d : Disk) (t : JournalRecord) (d' : Disk) : Prop where
  snapshot : d'.snapshot = d.snapshot
  records : d'.records = d.records ++ [t]
  written : d'.written = d.written ++ [t]

/-- An append took effect, or it did not return Ok. -/
theorem after_appended {d d' : Disk} {t : JournalRecord} {s : Status}
    (h : d' ∈ d.after (.appended t s)) : d.Appended t d' ∨ d' = d ∧ s.ok = false := by
  simp only [after] at h
  cases hs : s.ok with
  | true =>
    rw [hs, if_pos rfl, List.mem_singleton] at h
    rw [h]
    exact .inl ⟨rfl, rfl, rfl⟩
  | false =>
    rw [hs, if_neg (by decide), List.mem_cons, List.mem_singleton] at h
    rcases h with rfl | rfl
    · exact .inr ⟨rfl, rfl⟩
    · exact .inl ⟨rfl, rfl, rfl⟩

/-- An append that returned Ok took effect. -/
theorem appended_of_ok {d d' : Disk} {t : JournalRecord} {s : Status}
    (h : d' ∈ d.after (.appended t s)) (hs : s.ok = true) : d.Appended t d' := by
  refine (after_appended h).resolve_right fun hfailed => ?_
  rw [hs] at hfailed
  exact absurd hfailed.2 (by decide)

/-- A snapshot was installed, or its call did not return Ok. -/
theorem after_wroteSnapshot {d d' : Disk} {i : SnapshotImage} {s : Status}
    (h : d' ∈ d.after (.wroteSnapshot i s)) :
    d' = { d with snapshot := some i } ∨ d' = d ∧ s.ok = false := by
  simp only [after] at h
  cases hs : s.ok with
  | true =>
    rw [hs, if_pos rfl, List.mem_singleton] at h
    exact .inl h
  | false =>
    rw [hs, if_neg (by decide), List.mem_cons, List.mem_singleton] at h
    rcases h with h | h
    · exact .inr ⟨h, rfl⟩
    · exact .inl h

/-- A rotation may have discarded records, and discards nothing else. -/
theorem after_rotated {d d' : Disk} {n : UInt64} {s : Status} (h : d' ∈ d.after (.rotated n s)) :
    d'.snapshot = d.snapshot ∧ d'.written = d.written ∧ ∀ t ∈ d'.records, t ∈ d.records := by
  simp only [after] at h
  have hfiltered : ∀ t ∈ d.records.filter (fun t => !(t.sequence ≤ n)), t ∈ d.records :=
    fun t ht => (List.mem_filter.mp ht).1
  cases hs : s.ok with
  | true =>
    rw [hs, if_pos rfl, List.mem_singleton] at h
    rw [h]
    exact ⟨rfl, rfl, hfiltered⟩
  | false =>
    rw [hs, if_neg (by decide), List.mem_cons, List.mem_singleton] at h
    rcases h with rfl | rfl
    · exact ⟨rfl, rfl, fun t ht => ht⟩
    · exact ⟨rfl, rfl, hfiltered⟩

/-- A payload is a vector, whose size is a 64-bit word. -/
def Addressable (d : Disk) : Prop :=
  (∀ t ∈ d.records, t.payload.length < 2 ^ 64) ∧
    ∀ i, d.snapshot = some i → i.payload.length < 2 ^ 64

/-- The next sequence number behind one replayed record. -/
def nextBehind (snap : Option UInt64) (next : UInt64) (t : JournalRecord) : UInt64 :=
  if snap.any (t.sequence ≤ ·) then next else if t.kind = .intent then next else t.sequence + 1

/-- The sequence number a recovery continues with. -/
def next (d : Disk) : UInt64 :=
  d.records.foldl (nextBehind (d.snapshot.map SnapshotImage.sequence))
    (match d.snapshot with
      | none => 1
      | some i => i.sequence + 1)

/-- No calls leave the contents alone. -/
theorem mem_afterAll_nil {d d' : Disk} : d' ∈ d.afterAll [] ↔ d' = d := by
  simp [afterAll]

/-- The first call and then the others. -/
theorem mem_afterAll_cons {d d' : Disk} {ev : JournalEvent} {evs : List JournalEvent} :
    d' ∈ d.afterAll (ev :: evs) ↔ ∃ d₁ ∈ d.after ev, d' ∈ d₁.afterAll evs := by
  simp [afterAll]

/-- Some calls and then the others. -/
theorem mem_afterAll_append {d d' : Disk} {evs evs' : List JournalEvent} :
    d' ∈ d.afterAll (evs ++ evs') ↔ ∃ d₁ ∈ d.afterAll evs, d' ∈ d₁.afterAll evs' := by
  induction evs generalizing d with
  | nil => simp [afterAll]
  | cons ev evs ih =>
    simp only [List.cons_append, mem_afterAll_cons, ih]
    grind

end Disk

namespace CreditEngine

variable {J : Type}

/-- From `e` the records replay without a failure and leave `e'`; between two records the
    journal may move on. -/
inductive ReplaysTo (snap : Option UInt64) :
    CreditEngine J → List JournalRecord → CreditEngine J → Prop
  | done (e : CreditEngine J) (j : J) : ReplaysTo snap e [] { e with journal := j }
  | next {e e₁ e' : CreditEngine J} {t : JournalRecord} {rest : List JournalRecord} (j : J)
      {s : Status} (h : { e with journal := j }.replayRecord snap t = (s, e₁))
      (hs : s.ok = true) (tail : ReplaysTo snap e₁ rest e') : ReplaysTo snap e (t :: rest) e'

/-- What every replayed record keeps and no journal shows, a replay keeps. -/
theorem ReplaysTo.keeps {snap : Option UInt64} {e e' : CreditEngine J}
    {recs : List JournalRecord} (h : ReplaysTo snap e recs e') {P : CreditEngine J → Prop}
    (blind : Blind P)
    (hstep : ∀ (e₁ e₂ : CreditEngine J) (t : JournalRecord) (s : Status), t ∈ recs → P e₁ →
      e₁.replayRecord snap t = (s, e₂) → s.ok = true → P e₂) (he : P e) : P e' := by
  induction h with
  | done e j => exact blind e j he
  | @next e e₁ e' t rest j s hrecord hs tail ih =>
    refine ih (fun e₂ e₃ t' s' ht' => hstep e₂ e₃ t' s' (List.mem_cons_of_mem _ ht')) ?_
    exact hstep _ _ t s List.mem_cons_self (blind e j he) hrecord hs

/-- Where the journal stands in front of a replay does not matter. -/
theorem ReplaysTo.of_journal {snap : Option UInt64} {e e' : CreditEngine J} {j : J}
    {recs : List JournalRecord} (h : ReplaysTo snap { e with journal := j } recs e') :
    ReplaysTo snap e recs e' := by
  cases h with
  | done _ j' => exact .done e j'
  | next j' hrecord hs tail => exact .next j' hrecord hs tail

/-- A replay does not look at the journal. -/
theorem ReplaysTo.move {snap : Option UInt64} {e e' : CreditEngine J} {recs : List JournalRecord}
    (h : ReplaysTo snap e recs e') (j : J) : ReplaysTo snap e recs { e' with journal := j } := by
  induction h with
  | done e _ => exact .done e j
  | next j' hrecord hs _ ih => exact .next j' hrecord hs ih

/-- The last record of a replay. -/
theorem ReplaysTo.concat {snap : Option UInt64} {e e' : CreditEngine J}
    {recs : List JournalRecord} {t : JournalRecord} (h : ReplaysTo snap e (recs ++ [t]) e') :
    ∃ (e₁ e₂ : CreditEngine J) (j j' : J) (s : Status), ReplaysTo snap e recs e₁ ∧
      { e₁ with journal := j }.replayRecord snap t = (s, e₂) ∧ s.ok = true ∧
      e' = { e₂ with journal := j' } := by
  generalize hlist : recs ++ [t] = list at h
  induction h generalizing recs with
  | done e j => exact absurd hlist (by simp)
  | @next e e₁ e' t' rest j s hrecord hs tail ih =>
    cases recs with
    | nil =>
      obtain ⟨rfl, rfl⟩ : t = t' ∧ [] = rest := by simpa using hlist
      cases tail with
      | done _ j' => exact ⟨e, e₁, j, j', s, .done e e.journal, hrecord, hs, rfl⟩
    | cons t₁ recs =>
      obtain ⟨rfl, hrest⟩ : t₁ = t' ∧ recs ++ [t] = rest := by simpa using hlist
      obtain ⟨e₂, e₃, j₂, j₃, s₂, hreplays, hlast, hs₂, heq⟩ := ih hrest
      exact ⟨e₂, e₃, j₂, j₃, s₂, .next j hrecord hs hreplays, hlast, hs₂, heq⟩

/-! ### Recoveries that returned Ok -/

variable [Journal J]

/-- A loop that returned Ok has replayed all the records that its journal yields. -/
theorem replayLoop_inv {snap : Option UInt64} {j j' : J} {recs : List JournalRecord}
    (hreads : Reads j recs j') {e : CreditEngine J} (hj : e.journal = j) {fuel : Nat}
    (hok : (replayLoop snap fuel e).1.ok = true) :
    ∃ e', ReplaysTo snap e recs e' ∧ (replayLoop snap fuel e).2 = e' ∧ e'.journal = j' := by
  induction hreads generalizing e fuel with
  | @done j j' h =>
    cases fuel with
    | zero => exact absurd (show false = true from hok) (by decide)
    | succ fuel =>
      unfold replayLoop at hok ⊢
      simp only [hj, h, Status.ok_success, Bool.not_true, Bool.false_eq_true, if_false]
      exact ⟨_, .done e j', rfl, rfl⟩
  | @next j j₁ j' t recs h rest ih =>
    cases fuel with
    | zero => exact absurd (show false = true from hok) (by decide)
    | succ fuel =>
      unfold replayLoop at hok ⊢
      simp only [hj, h, Status.ok_success, Bool.not_true, Bool.false_eq_true, if_false] at hok ⊢
      cases hrecord : { e with journal := j₁ }.replayRecord snap t with
      | mk s e₁ =>
        simp only [hrecord] at hok ⊢
        cases hs : s.ok with
        | false =>
          simp only [hs, Bool.not_false, if_true] at hok
          exact absurd hok (by decide)
        | true =>
          simp only [hs, Bool.not_true, Bool.false_eq_true, if_false] at hok ⊢
          have hframe := replayRecord_untouched { e with journal := j₁ } snap t
          rw [hrecord] at hframe
          obtain ⟨e', hreplays, heq, hj'⟩ := ih hframe.journal hok
          exact ⟨e', .next j₁ hrecord hs hreplays, heq, hj'⟩

/-- **Inversion of a recovery.**  A recovery that returned Ok has loaded the snapshot that the
    journal yields and replayed its records. -/
theorem recover_inv {e : CreditEngine J} {image : Option SnapshotImage}
    {recs : List JournalRecord} {j' : J} (hyields : Yields e.journal image recs j')
    (hok : e.recover.1.ok = true) :
    ∃ (j : J) (s : Status) (e₁ e₂ : CreditEngine J),
      { e with journal := j }.reset.loadSnapshot image = (s, e₁) ∧ s.ok = true ∧
      ReplaysTo (image.map SnapshotImage.sequence) e₁ recs e₂ ∧
      e.recover.2 = { e₂ with journal := j' }.finishRecovery := by
  obtain ⟨j₁, j₂, j₃, j₄, hopen, hread, hbegin, hreads, hend⟩ := hyields
  have hunfold := hok
  -- the stages of the recovery, each of which was Ok
  unfold recover at hunfold ⊢
  simp only [hopen, hread, Status.ok_success, Bool.not_true, Bool.false_eq_true, if_false]
    at hunfold ⊢
  cases hload : { e with journal := j₂ }.reset.loadSnapshot image with
  | mk s e₁ =>
    have hframe := loadSnapshot_untouched { e with journal := j₂ }.reset image
    rw [hload] at hframe
    have hj₂ : e₁.journal = j₂ := hframe.journal
    simp only [hload] at hunfold ⊢
    cases hs : s.ok with
    | false =>
      simp only [hs, Bool.not_false, if_true] at hunfold
      exact absurd hunfold (by decide)
    | true =>
      simp only [hs, hj₂, hbegin, Status.ok_success, Bool.not_true, Bool.false_eq_true,
        if_false] at hunfold ⊢
      cases hloop : replayLoop (image.map SnapshotImage.sequence) (Journal.remaining j₃ + 1)
          { e₁ with journal := j₃ } with
      | mk s' e' =>
        simp only [hloop] at hunfold ⊢
        cases hs' : s'.ok with
        | false =>
          simp only [hs', Bool.not_false, if_true] at hunfold
          exact absurd hunfold (by decide)
        | true =>
          have hloopok : (replayLoop (image.map SnapshotImage.sequence)
              (Journal.remaining j₃ + 1) { e₁ with journal := j₃ }).1.ok = true := by
            rw [hloop]
            exact hs'
          obtain ⟨e₂, hreplays, heq, hj₄⟩ :=
            replayLoop_inv hreads (e := { e₁ with journal := j₃ }) rfl hloopok
          rw [hloop] at heq
          obtain rfl : e' = e₂ := heq
          simp only [hj₄, hend, Status.ok_success, Bool.not_true, Bool.false_eq_true,
            if_false]
          exact ⟨j₂, s, e₁, e', hload, hs, hreplays.of_journal, rfl⟩

end CreditEngine

end CreditFabric
