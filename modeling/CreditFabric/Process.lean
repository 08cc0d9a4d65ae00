import CreditFabric.OnFile

namespace CreditFabric

/-!
# An engine over a journal that keeps the contract

A `Process` is an engine over its journal: no durable contents are assumed, a restart opens what
the process before it has left.  Over a file journal the schedule of each boot says which file
operations fail, so its runs are those of the code under any pattern of failures and crashes.

* `Answered`: an explicit snapshot returned Ok.  The engine goes on behind one that did not, on a
  journal that may have lost its place.
* `RunAnswered.deployed`: a run whose explicit snapshots returned Ok is a run of a `Deployment`, so
  what is proved of these holds of the engine over a file journal and over the in-memory journal.
-/

open StoredJournal

/-- An engine in its process, with the calls that were made to it. -/
structure Process (J : Type) where
  engine : CreditEngine (Observed J)
  calls : List (CreditRequest × CreditOutcome) := []

namespace Process

open CreditEngine

open Deployment (Act events)

variable {J : Type} [Journal J]

/-- An engine that has been made over a journal and has not recovered yet. -/
def start (limits : EngineLimits) (journal : J) (operator : Incarnation) (nonce : Digest128) :
    Process J where
  engine := make limits ⟨journal, []⟩ operator nonce

/-- The journal of a process that ends between two calls, or inside one more call or snapshot,
    behind the journal operation that it does not survive. -/
inductive Ends (v : Process J) : J → Prop
  | idle : Ends v v.engine.journal.journal
  | calling (r : CreditRequest) : Ends v (v.engine.apply r).2.journal.journal
  | snapshotting : Ends v v.engine.snapshot.2.journal.journal

section Step

variable [StoredJournal J]

/-- One step of a process, or the step to the next process over what it leaves. -/
inductive Step (v : Process J) : Act → Process J → Prop
  | called (r : CreditRequest) :
      Step v (.call r) { engine := (v.engine.apply r).2,
                         calls := v.calls ++ [(r, (v.engine.apply r).1)] }
  | snapshotted : Step v .snapshot { v with engine := v.engine.snapshot.2 }
  | restarted (limits : EngineLimits) (left journal : J) (operator : Incarnation)
      (nonce : Digest128) (ends : v.Ends left) (reopens : Over left journal)
      (snap : Option SnapshotImage) (recs : List JournalRecord) (o' : Observed J)
      (yields : Yields (Observed.mk journal []) snap recs o')
      (ok : (make limits (Observed.mk journal []) operator nonce).recover.1.ok = true) :
      Step v .restart
        { engine := (make limits (Observed.mk journal []) operator nonce).recover.2 }

/-- Any number of steps. -/
inductive Run (v : Process J) : List Act → Process J → Prop
  | nil : Run v [] v
  | concat {acts : List Act} {act : Act} {v₁ v₂ : Process J} (run : Run v acts v₁)
      (step : Step v₁ act v₂) : Run v (acts ++ [act]) v₂

omit [StoredJournal J] in
/-- An explicit snapshot returned Ok. -/
def Answered (v : Process J) (act : Act) : Prop :=
  act = .snapshot → v.engine.snapshot.1.ok = true

/-- Any number of steps whose explicit snapshots returned Ok. -/
inductive RunAnswered (v : Process J) : List Act → Process J → Prop
  | nil : RunAnswered v [] v
  | concat {acts : List Act} {act : Act} {v₁ v₂ : Process J} (run : RunAnswered v acts v₁)
      (step : Step v₁ act v₂) (answered : v₁.Answered act) : RunAnswered v (acts ++ [act]) v₂

/-- A run whose snapshots returned Ok is a run. -/
theorem RunAnswered.run {v v' : Process J} {acts : List Act} (h : RunAnswered v acts v') :
    Run v acts v' := by
  induction h with
  | nil => exact .nil
  | concat run step answered ih => exact ih.concat step

/-! ### The storage of a process -/

/-- The deployment has the engine and the calls of the process and the contents that its journal
    leaves; a journal that is still written to stands at their end. -/
structure Follows (w : Deployment J) (v : Process J) : Prop where
  engine : w.engine = v.engine
  calls : w.calls = v.calls
  leaves : Leaves v.engine.journal.journal w.disk
  backs : v.engine.recovered = true → v.engine.journalFailed = false →
    Backs v.engine.journal.journal w.disk

/-- **Call rule.**  The journal calls of one engine step, made on a journal that stands at the end
    of its storage, leave contents that `Disk.after` allows. -/
theorem left_by_calls {e e' : CreditEngine (Observed J)} {d : Disk} {P Q : Prop}
    (hbacks : Backs e.journal.journal d)
    (hbelow : ∀ t ∈ d.records, t.sequence.toNat ≤ e.nextJournalSequence.toNat)
    (hnumbers : NumbersTo e e' P) (hperforms : PerformsTo e e' Q) :
    ∃ d' ∈ d.afterAll (events e e'), Leaves e'.journal.journal d' ∧
      (Q → Backs e'.journal.journal d') := by
  obtain ⟨evs, m, hlog, hnumbered, -, -⟩ := hnumbers
  obtain ⟨evs', hlog', hmade, hknown, hok⟩ := hperforms
  obtain rfl : evs = evs' := List.append_cancel_left (hlog.symm.trans hlog')
  rw [Deployment.events_of_append hlog]
  obtain ⟨d', hd', hleaves, hback⟩ := hnumbered.left hbacks hbelow hmade hknown
  exact ⟨d', hd', hleaves, fun hQ => hback (hok hQ)⟩

variable {n : Nat} {w : Deployment J} {v v' : Process J}

/-- What one more call leaves. -/
theorem Follows.call (h : Follows w v) (hkept : Deployment.Kept (fun _ => True) n w)
    (hn : n < 2 ^ 60) (r : CreditRequest) :
    ∃ d ∈ w.disk.afterAll (events w.engine (w.engine.apply r).2),
      Leaves (v.engine.apply r).2.journal.journal d ∧
      ((v.engine.apply r).2.recovered = true → (v.engine.apply r).2.journalFailed = false →
        Backs (v.engine.apply r).2.journal.journal d) := by
  have hlevel := hkept.level
  rw [h.engine] at hlevel ⊢
  by_cases hsilent : v.engine.journalFailed = true ∨ v.engine.recovered = false
  · have hsame := (Deployment.events_of_silent hsilent r).1
    rw [hsame, Deployment.events_self]
    exact ⟨w.disk, Disk.mem_afterAll_nil.mpr rfl, h.leaves, h.backs⟩
  · obtain ⟨hhealthy, hrecovered⟩ := not_or.mp hsilent
    rw [Bool.not_eq_true] at hhealthy
    rw [Bool.not_eq_false] at hrecovered
    obtain ⟨hdurable, hbound⟩ := hlevel hhealthy
    obtain ⟨d, hd, hleaves, hback⟩ := left_by_calls (h.backs hrecovered hhealthy)
      hdurable.behind.records (apply_numbersTo v.engine r (by omega)) (apply_performs v.engine r)
    exact ⟨d, hd, hleaves, fun _ => hback⟩

/-- What one more snapshot leaves. -/
theorem Follows.snapshot (h : Follows w v) (hkept : Deployment.Kept (fun _ => True) n w)
    (hn : n < 2 ^ 60) :
    ∃ d ∈ w.disk.afterAll (events w.engine w.engine.snapshot.2),
      Leaves v.engine.snapshot.2.journal.journal d ∧
      (v.engine.snapshot.1.ok = true → Backs v.engine.snapshot.2.journal.journal d) := by
  have hlevel := hkept.level
  rw [h.engine] at hlevel ⊢
  by_cases hsilent : v.engine.journalFailed = true ∨ v.engine.recovered = false
  · have hsame := (Deployment.events_of_silent hsilent {}).2
    rw [hsame, Deployment.events_self]
    refine ⟨w.disk, Disk.mem_afterAll_nil.mpr rfl, h.leaves, fun hok => ?_⟩
    -- a snapshot that is not taken is refused
    have hrefused : v.engine.snapshot.1.ok = false := by
      unfold CreditEngine.snapshot
      rcases hsilent with hfailed | hrecovered
      · rw [if_pos hfailed]
        split_ifs <;> rfl
      · rw [hrecovered]
        rfl
    rw [hrefused] at hok
    exact absurd hok (by decide)
  · obtain ⟨hhealthy, hrecovered⟩ := not_or.mp hsilent
    rw [Bool.not_eq_true] at hhealthy
    rw [Bool.not_eq_false] at hrecovered
    obtain ⟨hdurable, hbound⟩ := hlevel hhealthy
    exact left_by_calls (h.backs hrecovered hhealthy) hdurable.behind.records
      (snapshot_numbersTo v.engine (by omega)) (snapshot_performs v.engine)

/-- What the process leaves when it ends, wherever that is. -/
theorem Follows.ends (h : Follows w v) (hkept : Deployment.Kept (fun _ => True) n w)
    (hn : n < 2 ^ 60) {left : J} (hends : v.Ends left) :
    ∃ d, w.Crashes d ∧ Leaves left d := by
  cases hends with
  | idle => exact ⟨w.disk, ⟨[], Disk.mem_afterAll_nil.mpr rfl, .inr List.nil_prefix⟩, h.leaves⟩
  | calling r =>
    obtain ⟨d, hd, hleaves, -⟩ := h.call hkept hn r
    exact ⟨d, ⟨_, hd, .inl ⟨r, List.prefix_rfl⟩⟩, hleaves⟩
  | snapshotting =>
    obtain ⟨d, hd, hleaves, -⟩ := h.snapshot hkept hn
    exact ⟨d, ⟨_, hd, .inr List.prefix_rfl⟩, hleaves⟩

omit [StoredJournal J] in
/-- A recovery that has succeeded leaves the journal behind its replay. -/
theorem journal_recovered {e : CreditEngine (Observed J)} {snap : Option SnapshotImage}
    {recs : List JournalRecord} {o' : Observed J} (hyields : Yields e.journal snap recs o')
    (hok : e.recover.1.ok = true) : e.recover.2.journal = o' := by
  obtain ⟨j, s, e₁, e₂, -, -, -, heq⟩ := recover_inv hyields hok
  rw [heq]
  rfl

/-- **Step lemma.**  The deployment makes the step of the process. -/
theorem Follows.step (h : Follows w v) (hkept : Deployment.Kept (fun _ => True) n w)
    (hn : n < 2 ^ 60) {act : Act} (hstep : Step v act v') (hanswered : v.Answered act) :
    ∃ w', Deployment.Step w act w' ∧ Follows w' v' := by
  cases hstep with
  | called r =>
    obtain ⟨d, hd, hleaves, hbacks⟩ := h.call hkept hn r
    refine ⟨_, .called r d hd, ?_, ?_, hleaves, hbacks⟩
    · exact congrArg (fun e => (CreditEngine.apply e r).2) h.engine
    · show w.calls ++ [(r, (w.engine.apply r).1)] = _
      rw [h.calls, h.engine]
  | snapshotted =>
    obtain ⟨d, hd, hleaves, hbacks⟩ := h.snapshot hkept hn
    refine ⟨_, .snapshotted d hd, ?_, h.calls, hleaves, fun _ _ => hbacks (hanswered rfl)⟩
    exact congrArg (fun e => (CreditEngine.snapshot e).2) h.engine
  | restarted limits left journal operator nonce ends reopens snap recs o' yields ok =>
    -- the next process reads what the last one has left
    obtain ⟨d, hcrash, hleaves⟩ := h.ends hkept hn ends
    obtain ⟨rfl, rfl, hbacks⟩ := yields_left hleaves reopens yields.unobserved
    have hjournal := journal_recovered (e := make limits (Observed.mk journal []) operator nonce)
      yields ok
    rw [← hjournal] at hbacks
    exact ⟨_, .restarted limits journal operator nonce d o' hcrash (addressable hleaves) yields ok,
      rfl, rfl, leaves_of_backs hbacks, fun _ _ => hbacks⟩

/-- **Run lemma.**  The deployment goes wherever the process goes. -/
theorem RunAnswered.followed {acts : List Act} (hrun : RunAnswered v acts v')
    (h : Follows w v) (hkept : Deployment.Kept (fun _ => True) n w)
    (hn : n + acts.length ≤ 2 ^ 60) :
    ∃ w', Deployment.Run w acts w' ∧ Follows w' v' := by
  induction hrun with
  | nil => exact ⟨w, .nil, h⟩
  | @concat acts act v₁ v₂ run step answered ih =>
    rw [List.length_append, List.length_singleton] at hn
    obtain ⟨w₁, hrun₁, h₁⟩ := ih (by omega)
    have hkept₁ := hrun₁.anywhere.kept tracked_true hkept (by omega)
    obtain ⟨w₂, hstep, h₂⟩ := h₁.step hkept₁ (by omega) step answered
    exact ⟨w₂, hrun₁.concat hstep, h₂⟩

end Step

section Deployed

variable [StoredJournal J]

/-- **Processes are deployed.**  A process over an empty storage whose explicit snapshots returned
    Ok is the engine of a deployment, with the same calls. -/
theorem RunAnswered.deployed {limits : EngineLimits} {journal : J} {operator : Incarnation}
    {nonce : Digest128} {acts : List Act} {v : Process J}
    (hrun : RunAnswered (start limits journal operator nonce) acts v) (hempty : Leaves journal {})
    (hacts : acts.length ≤ 2 ^ 60) :
    ∃ w, Deployment.Run (Deployment.start limits journal operator nonce) acts w ∧
      Follows w v := by
  refine hrun.followed ⟨rfl, rfl, hempty, fun hrecovered => ?_⟩
    (Deployment.start_kept trivial limits journal operator nonce) (by omega)
  exact absurd (show false = true from hrecovered) (by decide)

/-- The deployment of a process, with the invariants of its accounts. -/
theorem RunAnswered.kept {limits : EngineLimits} {journal : J} {operator : Incarnation}
    {nonce : Digest128} {acts : List Act} {v : Process J}
    (hrun : RunAnswered (start limits journal operator nonce) acts v) (hempty : Leaves journal {})
    (hacts : acts.length ≤ 2 ^ 60) :
    ∃ w, Follows w v ∧ Deployment.Kept (fun _ => True) acts.length w := by
  obtain ⟨w, hdeployed, hfollows⟩ := hrun.deployed hempty hacts
  exact ⟨w, hfollows, hdeployed.kept hacts⟩

end Deployed

/-! ### Processes over files -/

/-- The records of a replay that ends within `fuel` steps. -/
def scanned : Nat → J → Option (List JournalRecord × J)
  | 0, _ => none
  | fuel + 1, j =>
    match Journal.nextRecord j with
    | (.success, none, j') => some ([], j')
    | (.success, some t, j') => (scanned fuel j').map fun rest => (t :: rest.1, rest.2)
    | _ => none

/-- What a scan has found is read. -/
theorem reads_of_scanned {fuel : Nat} {j j' : J} {recs : List JournalRecord}
    (h : scanned fuel j = some (recs, j')) : Reads j recs j' := by
  induction fuel generalizing j recs with
  | zero => exact absurd h (by simp [scanned])
  | succ fuel ih =>
    unfold scanned at h
    split at h
    · rename_i hnext
      cases h
      exact .done hnext
    · rename_i hnext
      obtain ⟨rest, hrest, heq⟩ := Option.map_eq_some_iff.mp h
      cases heq
      exact .next hnext (ih hrest)
    · exact absurd h (by simp)

/-- A replay of `j` succeeds within `fuel` steps. -/
def Replayable (fuel : Nat) (j : J) : Prop :=
  (Journal.open_ j).1 = .success ∧
  (Journal.readSnapshot (Journal.open_ j).2).1 = .success ∧
  (Journal.beginReplay (Journal.readSnapshot (Journal.open_ j).2).2.2).1 = .success ∧
  (scanned fuel (Journal.beginReplay (Journal.readSnapshot (Journal.open_ j).2).2.2).2).any
    (fun rest => (Journal.endReplay rest.2).1 = .success) = true

instance (fuel : Nat) (j : J) : Decidable (Replayable fuel j) :=
  inferInstanceAs (Decidable (_ ∧ _))

/-- What can be replayed is yielded. -/
theorem Replayable.yields {fuel : Nat} {j : J} (h : Replayable fuel j) :
    ∃ snap recs j', Yields j snap recs j' := by
  obtain ⟨hopen, hread, hbegin, hend⟩ := h
  obtain ⟨⟨recs, j'⟩, hscanned, hend⟩ := (Option.any_eq_true _ _).mp hend
  exact ⟨_, recs, _, _, _, _, j', Prod.ext hopen rfl, Prod.ext hread rfl, Prod.ext hbegin rfl,
    reads_of_scanned hscanned, Prod.ext (of_decide_eq_true hend) rfl⟩

section Steps

variable [StoredJournal J] {v : Process J} {e : CreditEngine (Observed J)}

/-- A call can be made. -/
theorem exists_call (he : v.engine = e) (r : CreditRequest) :
    ∃ v', Step v (.call r) v' ∧ v'.engine = e.run [r] := by
  subst he
  exact ⟨_, .called r, rfl⟩

/-- So can a snapshot. -/
theorem exists_snapshot (he : v.engine = e) :
    ∃ v', Step v .snapshot v' ∧ v'.engine = e.saved := by
  subst he
  exact ⟨_, .snapshotted, rfl⟩

/-- A new process over the storage of one that has ended between two calls. -/
theorem exists_restart (he : v.engine = e) (limits : EngineLimits) (journal : J)
    (nonce : Digest128) (hover : Over e.journal.journal journal) {fuel : Nat}
    (hreplayable : Replayable fuel journal)
    (hok : (make limits (Observed.mk journal []) Fixture.me nonce).recover.1.ok = true) :
    ∃ v', Step v .restart v' ∧ v'.engine = Fixture.boot limits ⟨journal, []⟩ nonce := by
  obtain ⟨snap, recs, j', hyields⟩ := hreplayable.yields
  obtain ⟨o', hyields⟩ := hyields.observed []
  rw [← he] at hover
  exact ⟨_, .restarted limits _ journal Fixture.me nonce .idle hover snap recs o' hyields hok, rfl⟩

end Steps

end Process

/-! ### A journal that has lost its place -/

namespace LostPlace

open Fixture CreditEngine Process

/-- The nonce of the first boot. -/
def nonce : Digest128 := ⟨0x12, 0x21⟩

/-- The nonce of the second boot. -/
def later : Digest128 := ⟨0x13, 0x31⟩

/-- The nonce of the third boot. -/
def last : Digest128 := ⟨0x14, 0x41⟩

/-- The Open of the first boot. -/
def opening : CreditRequest := request nonce me .open_ 1

/-- The six operations of the boot, the eight of the Open and fifteen of the snapshot succeed; the
    last flush of its rotation fails, behind the truncation. -/
def files : FileJournal := { faults := List.replicate 29 none ++ [some 0] }

/-- The files that an engine leaves, and no more failures. -/
def reopened (e : CreditEngine (Observed FileJournal)) : FileJournal :=
  { e.journal.journal.restart with faults := [] }

/-- The engine of the first boot. -/
def booted : CreditEngine (Observed FileJournal) := boot {} ⟨files, []⟩ nonce

/-- The engine behind its Open. -/
def opened : CreditEngine (Observed FileJournal) := booted.run [opening]

/-- The engine behind a snapshot whose last flush fails. -/
def unsaved : CreditEngine (Observed FileJournal) := opened.saved

/-- One more call, behind the snapshot that has failed. -/
def called (r : CreditRequest) : CreditEngine (Observed FileJournal) := unsaved.run [r]

/-- The engine of the second boot, behind a request that was acknowledged and lost. -/
def second (r : CreditRequest) : CreditEngine (Observed FileJournal) :=
  boot {} ⟨reopened (called r), []⟩ later

/-- The engine of the third boot. -/
def third (r : CreditRequest) : CreditEngine (Observed FileJournal) :=
  boot {} ⟨reopened (second r), []⟩ last

/-- The journals of the three boots can be replayed, and the boots succeed. -/
def Boots (r : CreditRequest) : Prop :=
  (Replayable 1 files ∧ (make {} (Observed.mk files []) me nonce).recover.1.ok = true) ∧
  (Replayable 1 (reopened (called r)) ∧
    (make {} (Observed.mk (reopened (called r)) []) me later).recover.1.ok = true) ∧
  Replayable 1 (reopened (second r)) ∧
    (make {} (Observed.mk (reopened (second r)) []) me last).recover.1.ok = true

instance (r : CreditRequest) : Decidable (Boots r) := inferInstanceAs (Decidable (_ ∧ _))

/-- A new process opens the same files. -/
theorem over_reopened (e : CreditEngine (Observed FileJournal)) :
    StoredJournal.Over e.journal.journal (reopened e) := ⟨rfl, rfl, rfl⟩

/-- The same files without failures. -/
def untouched : FileJournal := {}

/-- The files of the first boot are empty. -/
theorem files_empty : StoredJournal.Leaves files {} :=
  ⟨by decide, ⟨rfl, fun _ hi => absurd hi (by simp)⟩, fun _ ht => absurd ht List.not_mem_nil,
    .inr ⟨rfl, rfl⟩⟩

/-- So are those with no faults. -/
theorem untouched_empty : StoredJournal.Leaves untouched {} :=
  ⟨by decide, ⟨rfl, fun _ hi => absurd hi (by simp)⟩, fun _ ht => absurd ht List.not_mem_nil,
    .inr ⟨rfl, rfl⟩⟩

/-- A boot in which nothing fails. -/
def first : CreditEngine (Observed FileJournal) := boot {} ⟨untouched, []⟩ nonce

/-- The engine behind its Open. -/
def beforehand : CreditEngine (Observed FileJournal) := first.run [opening]

/-- The first boot over the files. -/
theorem exists_boot {files : FileJournal} (hreplayable : Replayable 1 files)
    (hok : (make {} (Observed.mk files []) me nonce).recover.1.ok = true) :
    ∃ v, Step (start {} files me nonce) .restart v ∧
      v.engine = boot {} ⟨files, []⟩ nonce :=
  exists_restart (v := start {} files me nonce) rfl {} files nonce
    (show StoredJournal.Over files files from ⟨rfl, rfl, rfl⟩) hreplayable hok

/-- Two restarts behind the call. -/
theorem runs {r : CreditRequest} (h : Boots r) : ∃ v v₁ v₂ : Process FileJournal,
    Run (start {} files me nonce) [.restart, .call opening, .snapshot] v ∧ v.engine = unsaved ∧
      Step v (.call r) v₁ ∧ v₁.engine = called r ∧ Run v₁ [.restart, .restart] v₂ ∧
      v₂.engine = third r := by
  obtain ⟨⟨hfirst, hfirst'⟩, ⟨hsecond, hsecond'⟩, hthird, hthird'⟩ := h
  obtain ⟨v₀, hboot, hbooted⟩ := exists_boot hfirst hfirst'
  obtain ⟨v₁, hopen, hopened⟩ := exists_call hbooted opening
  obtain ⟨v₂, hsnapshot, hunsaved⟩ := exists_snapshot hopened
  obtain ⟨v₃, hcall, hcalled⟩ := exists_call hunsaved r
  obtain ⟨v₄, hrestart, hsecondly⟩ := exists_restart hcalled {} (reopened (called r)) later
    (over_reopened _) hsecond hsecond'
  obtain ⟨v₅, hrestart', hthirdly⟩ := exists_restart hsecondly {} (reopened (second r)) last
    (over_reopened _) hthird hthird'
  exact ⟨v₂, v₃, v₅, .concat (.concat (.concat .nil hboot) hopen) hsnapshot, hunsaved, hcall,
    hcalled, .concat (.concat .nil hrestart) hrestart', hthirdly⟩

end LostPlace

end CreditFabric
