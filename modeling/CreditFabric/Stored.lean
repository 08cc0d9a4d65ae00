import CreditFabric.Sequences

namespace CreditFabric

/-!
# Journals that keep the contract

`Disk.after` is what `journal.hpp` promises about one journal call.  A `StoredJournal` keeps the
promise call after call, up to the first one that does not return Ok; what it owes behind a
failed call is only that the next process finds what that call has left.

* `Backs j d`: the storage behind `j` is `d`, and `j` writes on at its end.
* `Leaves j d`: a process that ends with `j` leaves the storage `d`.
* `Performs` are journal calls with their results; `apply_performs` and `snapshot_performs` say
  that the calls an observed engine has noted are those its journal has made.
* `Numbered.left`: the calls of one decision or snapshot leave what `Disk.after` allows.
-/

/-- A journal on a storage that outlives its process.  `Over j k` says that `k` is a journal that a
    new process makes over the storage of `j`. -/
class StoredJournal (J : Type) [Journal J] where
  Over : J → J → Prop
  Backs : J → Disk → Prop
  Leaves : J → Disk → Prop
  leaves_of_backs : ∀ {j d}, Backs j d → Leaves j d
  append_left : ∀ {j d} (t : JournalRecord), Backs j d → t.kind ≠ .unknown →
    ∃ d' ∈ d.after (.appended t (Journal.append j t).1), Leaves (Journal.append j t).2 d' ∧
      ((Journal.append j t).1.ok = true → Backs (Journal.append j t).2 d')
  writeSnapshot_left : ∀ {j d} (i : SnapshotImage), Backs j d →
    ∃ d' ∈ d.after (.wroteSnapshot i (Journal.writeSnapshot j i).1),
      Leaves (Journal.writeSnapshot j i).2 d' ∧
      ((Journal.writeSnapshot j i).1.ok = true → Backs (Journal.writeSnapshot j i).2 d')
  rotate_left : ∀ {j d} (n : UInt64), Backs j d → (∀ t ∈ d.records, t.sequence ≤ n) →
    ∃ d' ∈ d.after (.rotated n (Journal.rotate j n).1), Leaves (Journal.rotate j n).2 d' ∧
      ((Journal.rotate j n).1.ok = true → Backs (Journal.rotate j n).2 d')
  yields_left : ∀ {j k k' d snap recs}, Leaves j d → Over j k → Yields k snap recs k' →
    snap = d.snapshot ∧ recs = d.records ∧ Backs k' d
  addressable : ∀ {j d}, Leaves j d → d.Addressable

/-! ### Calls that are made -/

/-- The result of a journal call. -/
def JournalEvent.status : JournalEvent → Status
  | .opened s | .appended _ s | .replayBegun s | .read _ s | .replayEnded s | .rotated _ s
  | .wroteSnapshot _ s | .loadedSnapshot _ s => s

/-- From `j` on the writing calls are made one after the other, with the results that are noted,
    and they lead to the last journal. -/
inductive Performs {J : Type} [Journal J] : J → List JournalEvent → J → Prop
  | nil (j : J) : Performs j [] j
  | appended {j j' : J} (t : JournalRecord) {evs : List JournalEvent}
      (rest : Performs (Journal.append j t).2 evs j') :
      Performs j (.appended t (Journal.append j t).1 :: evs) j'
  | wroteSnapshot {j j' : J} (i : SnapshotImage) {evs : List JournalEvent}
      (rest : Performs (Journal.writeSnapshot j i).2 evs j') :
      Performs j (.wroteSnapshot i (Journal.writeSnapshot j i).1 :: evs) j'
  | rotated {j j' : J} (n : UInt64) {evs : List JournalEvent}
      (rest : Performs (Journal.rotate j n).2 evs j') :
      Performs j (.rotated n (Journal.rotate j n).1 :: evs) j'

section Performs

variable {J : Type} [Journal J] {j j' : J} {evs : List JournalEvent}

/-- Two lists of events performed, one after the other. -/
theorem Performs.append {j₁ : J} {evs' : List JournalEvent} (h : Performs j evs j₁)
    (h' : Performs j₁ evs' j') : Performs j (evs ++ evs') j' := by
  induction h with
  | nil => exact h'
  | appended t _ ih => exact .appended t (ih h')
  | wroteSnapshot i _ ih => exact .wroteSnapshot i (ih h')
  | rotated n _ ih => exact .rotated n (ih h')

variable [StoredJournal J]

open StoredJournal

/-- **Contract rule.**  Calls that number their records leave a storage that `Disk.after` allows,
    and behind calls that all returned Ok the journal writes on at its end. -/
theorem Numbered.left {n : Nat} {m : Option Nat} (hnumbered : Numbered n evs m) {d : Disk}
    (hbacks : Backs j d) (hbelow : ∀ t ∈ d.records, t.sequence.toNat ≤ n)
    (hperforms : Performs j evs j')
    (hknown : ∀ t s, JournalEvent.appended t s ∈ evs → t.kind ≠ .unknown) :
    ∃ d' ∈ d.afterAll evs, Leaves j' d' ∧ ((∀ ev ∈ evs, ev.status.ok = true) → Backs j' d') := by
  -- induction on the events: the journal follows the disk as long as each returned Ok
  induction hnumbered generalizing j d with
  | nil n =>
    cases hperforms
    exact ⟨d, Disk.mem_afterAll_nil.mpr rfl, leaves_of_backs hbacks, fun _ => hbacks⟩
  -- a lost append ends the list, whatever it left
  | @lost n t s hseq hs =>
    cases hperforms with
    | appended t rest =>
      cases rest
      obtain ⟨d', hd', hleaves, hok⟩ := append_left t hbacks (hknown t _ List.mem_cons_self)
      exact ⟨d', Disk.mem_afterAll_cons.mpr ⟨d', hd', Disk.mem_afterAll_nil.mpr rfl⟩, hleaves,
        fun hall => hok (hall _ List.mem_cons_self)⟩
  | @appended n t s evs m hseq hs rest ih =>
    cases hperforms with
    | appended t hrest =>
      obtain ⟨d₁, hd₁, -, hok⟩ := append_left t hbacks (hknown t _ List.mem_cons_self)
      have happended := Disk.appended_of_ok hd₁ hs
      have hbelow₁ : ∀ t' ∈ d₁.records, t'.sequence.toNat ≤ n + 1 := by
        intro t' ht'
        rw [happended.records, List.mem_append, List.mem_singleton] at ht'
        rcases ht' with hold | rfl
        · exact (hbelow t' hold).trans n.le_succ
        · omega
      obtain ⟨d', hd', hleaves, hback⟩ := ih (hok hs) hbelow₁ hrest
        fun t' s' ht' => hknown t' s' (List.mem_cons_of_mem _ ht')
      exact ⟨d', Disk.mem_afterAll_cons.mpr ⟨d₁, hd₁, hd'⟩, hleaves,
        fun hall => hback fun ev hev => hall ev (List.mem_cons_of_mem _ hev)⟩
  -- the snapshot's own record, its image and perhaps the rotation
  | @recorded n t i s s' evs hseq hs hi hrest =>
    cases hperforms with
    | appended t hrest₁ =>
    cases hrest₁ with
    | wroteSnapshot i hrest₂ =>
    obtain ⟨d₁, hd₁, -, hok₁⟩ := append_left t hbacks (hknown t _ List.mem_cons_self)
    have happended := Disk.appended_of_ok hd₁ hs
    obtain ⟨d₂, hd₂, hleaves₂, hok₂⟩ := writeSnapshot_left i (hok₁ hs)
    rcases hrest with rfl | ⟨hs', s'', rfl⟩
    · cases hrest₂
      exact ⟨d₂, Disk.mem_afterAll_cons.mpr ⟨d₁, hd₁, Disk.mem_afterAll_cons.mpr
        ⟨d₂, hd₂, Disk.mem_afterAll_nil.mpr rfl⟩⟩, hleaves₂,
        fun hall => hok₂ (hall _ (List.mem_cons_of_mem _ List.mem_cons_self))⟩
    · -- the rotation finds only records that the snapshot covers
      cases hrest₂ with
      | rotated _ hrest₃ =>
      cases hrest₃
      have hrecords : d₂.records = d₁.records := by
        rcases Disk.after_wroteSnapshot hd₂ with rfl | ⟨rfl, -⟩ <;> rfl
      have hcovered : ∀ t' ∈ d₂.records, t'.sequence ≤ i.sequence := by
        intro t' ht'
        rw [hrecords, happended.records, List.mem_append, List.mem_singleton] at ht'
        rw [hi, UInt64.le_iff_toNat_le]
        rcases ht' with hold | rfl
        · rw [hseq]
          exact hbelow t' hold
        · exact le_rfl
      obtain ⟨d₃, hd₃, hleaves₃, hok₃⟩ := rotate_left i.sequence (hok₂ hs') hcovered
      exact ⟨d₃, Disk.mem_afterAll_cons.mpr ⟨d₁, hd₁, Disk.mem_afterAll_cons.mpr
        ⟨d₂, hd₂, Disk.mem_afterAll_cons.mpr ⟨d₃, hd₃, Disk.mem_afterAll_nil.mpr rfl⟩⟩⟩, hleaves₃,
        fun hall => hok₃ (hall _ (List.mem_cons_of_mem _ (List.mem_cons_of_mem _
          List.mem_cons_self)))⟩

end Performs

/-! ### The calls of an engine -/

namespace CreditEngine

variable {J : Type} [Journal J] {e e' : CreditEngine (Observed J)}

/-- The calls that have been noted between two engines are made by the journal, append records of
    known kinds, and have all returned Ok where the step has persisted. -/
def PerformsTo (e e' : CreditEngine (Observed J)) (persisted : Prop) : Prop :=
  ∃ evs, e'.journal.log = e.journal.log ++ evs ∧
    Performs e.journal.journal evs e'.journal.journal ∧
    (∀ t s, JournalEvent.appended t s ∈ evs → t.kind ≠ .unknown) ∧
    (persisted → ∀ ev ∈ evs, ev.status.ok = true)

/-- Journal calls that are not made. -/
theorem performsTo_quiet {P : Prop} (hjournal : e'.journal = e.journal) : PerformsTo e e' P := by
  refine ⟨[], ?_, ?_, fun _ _ h => absurd h List.not_mem_nil,
    fun _ _ h => absurd h List.not_mem_nil⟩
  · rw [hjournal, List.append_nil]
  · rw [hjournal]
    exact .nil _

/-- A snapshot performs the operations it is observed to make. -/
theorem Snapshotted.performsTo {s : Status} (h : Snapshotted e s e') :
    PerformsTo e e' (s.ok = true) := by
  obtain ⟨evs, hlog, htrace⟩ := h.trace
  have hknown : ∀ t s, JournalEvent.appended t s ∈ evs → t.kind ≠ .unknown := by
    intro t s ht
    rw [htrace.records t s ht]
    decide
  refine ⟨evs, hlog, ?_, hknown, ?_⟩
  · cases h with
    | appendFailed h =>
      obtain rfl := List.append_cancel_left hlog.symm
      exact .appended _ (.nil _)
    | writeFailed ha h =>
      obtain rfl := List.append_cancel_left (hlog.symm.trans (List.append_assoc _ _ _))
      exact .appended _ (.wroteSnapshot _ (.nil _))
    | rotateFailed ha hw h =>
      obtain rfl := List.append_cancel_left (hlog.symm.trans
        ((List.append_assoc _ _ _).trans (List.append_assoc _ _ _)))
      exact .appended _ (.wroteSnapshot _ (.rotated _ (.nil _)))
    | durable ha hw h =>
      obtain rfl := List.append_cancel_left (hlog.symm.trans
        ((List.append_assoc _ _ _).trans (List.append_assoc _ _ _)))
      exact .appended _ (.wroteSnapshot _ (.rotated _ (.nil _)))
  · cases htrace with
    | appendFailed _ hs => exact Status.never_ok hs
    | writeFailed _ _ _ hs => exact Status.never_ok hs
    | rotateFailed _ _ _ _ _ hs => exact Status.never_ok hs
    | durable s₁ s₂ s₃ h₁ h₂ h₃ =>
      intro _ ev hev
      rcases List.mem_cons.mp hev with rfl | hev
      · exact h₁
      rcases List.mem_cons.mp hev with rfl | hev
      · exact h₂
      · rw [List.mem_singleton.mp hev]
        exact h₃

/-- So does persisting a decision. -/
theorem Persisted.performsTo {r : CreditRequest} {o : CreditOutcome} {a : AccountState} {c : Bool}
    {s : Status} (h : Persisted e r o a c s e') : PerformsTo e e' (s.ok = true) := by
  have hintent : (e.intentRecord r).kind ≠ .unknown :=
    show JournalRecordKind.intent ≠ .unknown by decide
  have hattempt : (e.attemptRecord r o a c).kind ≠ .unknown :=
    show JournalRecordKind.attempt ≠ .unknown by decide
  have hboth : ∀ {more : List JournalEvent} {s₁ s₂ : Status},
      (∀ t s, JournalEvent.appended t s ∈ more → t.kind ≠ .unknown) →
      ∀ t s, JournalEvent.appended t s ∈ .appended (e.intentRecord r) s₁ ::
        .appended (e.attemptRecord r o a c) s₂ :: more → t.kind ≠ .unknown := by
    intro more s₁ s₂ hmore t s ht
    simp only [List.mem_cons, JournalEvent.appended.injEq] at ht
    rcases ht with ⟨rfl, -⟩ | ⟨rfl, -⟩ | ht
    · exact hintent
    · exact hattempt
    · exact hmore t s ht
  -- the traces of a decision, by where they stop
  cases h with
  | appendFailed happended hs =>
    cases happended with
    | intentFailed hfailed =>
      refine ⟨_, rfl, .appended _ (.nil _), fun t s ht => ?_, Status.never_ok hs⟩
      simp only [List.mem_singleton, JournalEvent.appended.injEq] at ht
      rw [ht.1]
      exact hintent
    | attemptFailed hi hfailed =>
      exact ⟨_, List.append_assoc _ _ _, .appended _ (.appended _ (.nil _)),
        hboth fun _ _ h => absurd h List.not_mem_nil, Status.never_ok hs⟩
    | durable hi ha => exact Status.never_ok hs rfl
  | kept hi ha hrot =>
    refine ⟨_, List.append_assoc _ _ _, .appended _ (.appended _ (.nil _)),
      hboth fun _ _ h => absurd h List.not_mem_nil, fun _ ev hev => ?_⟩
    rcases List.mem_cons.mp hev with rfl | hev
    · exact hi
    · rw [List.mem_singleton.mp hev]
      exact ha
  | rotated hi ha hrot hsnap =>
    obtain ⟨more, hlog, hperforms, hknown, hok⟩ := hsnap.performsTo
    refine ⟨.appended (e.intentRecord r) (Journal.append e.journal (e.intentRecord r)).1 ::
      .appended (e.attemptRecord r o a c) (e.attemptAppend r o a c).1 :: more, ?_,
      .appended _ (.appended _ hperforms), hboth hknown, fun hs ev hev => ?_⟩
    · rw [hlog]
      exact (List.append_assoc _ _ _).trans (List.append_assoc _ _ _)
    · rcases List.mem_cons.mp hev with rfl | hev
      · exact hi
      rcases List.mem_cons.mp hev with rfl | hev
      · exact ha
      · exact hok hs ev hev

/-- Neither rollback nor publication operates on the journal. -/
theorem settle_performsTo {r : CreditRequest} {o : CreditOutcome} {a : AccountState} {c : Bool}
    {f g : CreditEngine (Observed J) → CreditEngine (Observed J)}
    (hf : ∀ e', (f e').journal = e'.journal) (hg : ∀ e', (g e').journal = e'.journal) :
    PerformsTo e (e.settle r o a c f g).2 ((e.settle r o a c f g).2.journalFailed = false) := by
  obtain ⟨evs, hlog, hperforms, hknown, hall⟩ :=
    (persistLocked_persisted e r o a c).performsTo
  cases hok : (e.persistLocked r o a c).1.ok with
  | false =>
    rw [settle_of_failed hok]
    refine ⟨evs, ?_, ?_, hknown, fun hhealthy => absurd hhealthy (by simp)⟩
    · rw [← hlog]
      exact congrArg Observed.log (hf _)
    · exact (congrArg Observed.journal (hf _)).symm ▸ hperforms
  | true =>
    rw [settle_of_ok hok]
    refine ⟨evs, ?_, ?_, hknown, fun _ => hall hok⟩
    · rw [hg, hlog]
    · rw [hg]
      exact hperforms

/-- **One call.** -/
theorem apply_performs (e : CreditEngine (Observed J)) (r : CreditRequest) :
    PerformsTo e (e.apply r).2 ((e.apply r).2.journalFailed = false) := by
  have hcase := e.apply_cases r
  generalize e.apply r = result at hcase ⊢
  cases hcase with
  | answered => exact performsTo_quiet rfl
  | absorbed => exact performsTo_quiet rfl
  | opened hopens =>
    exact settle_performsTo (e := e.opening r) (fun _ => rfl) fun _ => rfl
  | decided a hadmitted =>
    unfold settleDecision follow
    cases e.decision a r with
    | reject s a' => exact performsTo_quiet rfl
    | refuse s a' =>
      exact settle_performsTo (e := e.refusing r a') (fun _ => rfl) fun _ => rfl
    | proceed a' =>
      exact settle_performsTo (e := e.applying r a') (fun _ => rfl) fun _ => rfl

/-- **One snapshot.** -/
theorem snapshot_performs (e : CreditEngine (Observed J)) :
    PerformsTo e e.snapshot.2 (e.snapshot.1.ok = true) := by
  unfold snapshot
  split_ifs
  · exact performsTo_quiet rfl
  · exact performsTo_quiet rfl
  · exact (snapshotLocked_snapshotted e).performsTo

end CreditEngine

/-! ### What a replay finds -/

section Yields

variable {J : Type} [Journal J]

/-- A journal yields one snapshot and one list of records. -/
theorem Yields.deterministic {j j₁ j₂ : J} {snap₁ snap₂ : Option SnapshotImage}
    {recs₁ recs₂ : List JournalRecord} (h₁ : Yields j snap₁ recs₁ j₁)
    (h₂ : Yields j snap₂ recs₂ j₂) : snap₁ = snap₂ ∧ recs₁ = recs₂ ∧ j₁ = j₂ := by
  obtain ⟨a₁, a₂, a₃, a₄, hopen, hread, hbegin, hreads, hend⟩ := h₁
  obtain ⟨b₁, b₂, b₃, b₄, hopen', hread', hbegin', hreads', hend'⟩ := h₂
  rw [hopen] at hopen'
  cases hopen'
  rw [hread] at hread'
  cases hread'
  rw [hbegin] at hbegin'
  cases hbegin'
  obtain ⟨rfl, rfl⟩ := hreads.deterministic hreads'
  rw [hend] at hend'
  cases hend'
  exact ⟨rfl, rfl, rfl⟩

/-- What the observed journal reads, the journal under it does. -/
theorem Reads.unobserved {o o' : Observed J} {recs : List JournalRecord} (h : Reads o recs o') :
    Reads o.journal recs o'.journal := by
  induction h with
  | done h =>
    obtain ⟨hstatus, hnone, hjournal⟩ := Prod.mk.inj h |>.imp id Prod.mk.inj
    refine .done (Prod.ext hstatus (Prod.ext hnone ?_))
    exact congrArg Observed.journal hjournal
  | next h _ ih =>
    obtain ⟨hstatus, hsome, hjournal⟩ := Prod.mk.inj h |>.imp id Prod.mk.inj
    refine .next (Prod.ext hstatus (Prod.ext hsome ?_)) ih
    exact congrArg Observed.journal hjournal

/-- What an observed journal yields, the journal itself yields. -/
theorem Yields.unobserved {o o' : Observed J} {snap : Option SnapshotImage}
    {recs : List JournalRecord} (h : Yields o snap recs o') :
    Yields o.journal snap recs o'.journal := by
  obtain ⟨o₁, o₂, o₃, o₄, hopen, hread, hbegin, hreads, hend⟩ := h
  -- a noted call has the status and the journal of the call itself
  obtain ⟨hopen₁, hopen₂⟩ := Prod.mk.inj hopen
  obtain ⟨hread₁, hread₂, hread₃⟩ := Prod.mk.inj hread |>.imp id Prod.mk.inj
  obtain ⟨hbegin₁, hbegin₂⟩ := Prod.mk.inj hbegin
  obtain ⟨hend₁, hend₂⟩ := Prod.mk.inj hend
  exact ⟨o₁.journal, o₂.journal, o₃.journal, o₄.journal,
    Prod.ext hopen₁ (congrArg Observed.journal hopen₂),
    Prod.ext hread₁ (Prod.ext hread₂ (congrArg Observed.journal hread₃)),
    Prod.ext hbegin₁ (congrArg Observed.journal hbegin₂), hreads.unobserved,
    Prod.ext hend₁ (congrArg Observed.journal hend₂)⟩

end Yields

/-! ### The in-memory journal keeps the contract -/

namespace InMemoryJournal

/-- The object holds the storage, of payloads that have a size. -/
structure Backs (j : InMemoryJournal) (d : Disk) : Prop where
  snapshot : j.snapshot = d.snapshot
  entries : j.entries = d.records.map fun t => { record := t }
  addressable : d.Addressable

variable {j : InMemoryJournal} {d : Disk}

/-- An append has its effect, or is refused and has none. -/
theorem append_backs (t : JournalRecord) (h : Backs j d) :
    ∃ d' ∈ d.after (.appended t (j.append t).1), Backs (j.append t).2 d' ∧
      ((j.append t).1.ok = true → Backs (j.append t).2 d') := by
  unfold append
  split_ifs with hreplaying
  · exact ⟨d, by simp [Disk.after], h, fun _ => h⟩
  · simp only
    split_ifs with hroom
    · exact ⟨d, by simp [Disk.after], h, fun _ => h⟩
    · -- the payload is below the size the journal was given
      have hlt := j.maxBytes.toNat_lt
      refine ⟨_, by simp only [Disk.after, Status.ok_success, if_true]; exact List.mem_cons_self,
        ?_, fun _ => ?_⟩ <;>
      · refine ⟨h.snapshot, ?_, fun t' ht' => ?_, h.addressable.2⟩
        · rw [List.map_append, ← h.entries]
          rfl
        · rcases List.mem_append.mp ht' with hold | hnew
          · exact h.addressable.1 t' hold
          · rw [List.mem_singleton.mp hnew]
            omega

/-- So does the write of an image. -/
theorem writeSnapshot_backs (i : SnapshotImage) (h : Backs j d) :
    ∃ d' ∈ d.after (.wroteSnapshot i (j.writeSnapshot i).1), Backs (j.writeSnapshot i).2 d' ∧
      ((j.writeSnapshot i).1.ok = true → Backs (j.writeSnapshot i).2 d') := by
  unfold writeSnapshot
  split_ifs with hroom
  · exact ⟨d, by simp [Disk.after], h, fun _ => h⟩
  · have hlt := j.maxBytes.toNat_lt
    refine ⟨_, by simp only [Disk.after, Status.ok_success, if_true]; exact List.mem_cons_self,
      ?_, fun _ => ?_⟩ <;>
    · refine ⟨rfl, h.entries, h.addressable.1, fun i' hi' => ?_⟩
      rw [← Option.some.inj hi']
      omega

/-- A rotation drops the records it covers. -/
theorem rotate_backs (n : UInt64) (h : Backs j d) :
    Backs (j.rotate n).2 { d with records := d.records.filter fun t => !(t.sequence ≤ n) } := by
  refine ⟨h.snapshot, ?_, fun t ht => h.addressable.1 t (List.mem_filter.mp ht).1,
    h.addressable.2⟩
  show j.entries.filter _ = _
  rw [h.entries, List.filter_map]
  rfl

/-- The next process reads what the storage holds. -/
theorem yields_backs {k' : InMemoryJournal} {snap : Option SnapshotImage}
    {recs : List JournalRecord} (h : Backs j d) (hyields : Yields j.restart snap recs k') :
    snap = d.snapshot ∧ recs = d.records ∧ Backs k' d := by
  have hholds : LawfulJournal.Holds j d.snapshot d.records := ⟨h.snapshot, h.entries⟩
  obtain ⟨j', hown, hheld⟩ := LawfulJournal.holds_restart hholds
  obtain ⟨hsnap, hrecs, hj⟩ := hyields.deterministic hown
  rw [hj]
  exact ⟨hsnap, hrecs, hheld.1, hheld.2, h.addressable⟩

/-- Every call has its effect, or is refused and has none. -/
instance : StoredJournal InMemoryJournal where
  Over j k := k = j.restart
  Backs := Backs
  Leaves := Backs
  leaves_of_backs h := h
  append_left t h _ := append_backs t h
  writeSnapshot_left i h := writeSnapshot_backs i h
  rotate_left n h _ := ⟨_, List.mem_cons_self, rotate_backs n h, fun _ => rotate_backs n h⟩
  yields_left h hover hyields := yields_backs h (hover ▸ hyields)
  addressable h := h.addressable

end InMemoryJournal

end CreditFabric
