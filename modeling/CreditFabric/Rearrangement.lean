import CreditFabric.Lib.Chain
import CreditFabric.Tracking

namespace CreditFabric

open Lib (tip Chain Rigid)
open CreditEngine (expectedChain)

/-!
# Rearranged logs

The Attempt records of a log without snapshots are a chain: each carries the digest of the chain
value in front of it, its sequence number, its request and its outcome.  The Intent records
between them take no part in it.

* `Run.linked`: whatever calls, crashes and restarts have led there, the log of a deployment that
  has not written a snapshot is such a chain, and so is what a crash leaves of it.
* `ReplaysTo.linked`: a recovery that returns Ok has read such a chain, whoever wrote it.

By the library's rule the second one is a prefix of the first one when it is put together from
its records (`Deployment.rearranged_prefix`).
-/

/-- The Attempt records of a log, in order. -/
def attemptsOf (recs : List JournalRecord) : List JournalRecord :=
  recs.filter fun t => t.kind = .attempt

/-- The record has been written for the attempt, or is read as it. -/
def Spells (t : JournalRecord) (d : DurableAttempt) : Prop :=
  d.Written ∧ t.payload = encodeDurableAttempt d ∨ decodeDurableAttempt t.payload = .ok d

/-- The record carries the chain value of a decision behind `c`. -/
def Continues (c : Digest128) (t : JournalRecord) : Prop :=
  ∃ d, Spells t d ∧ expectedChain c t.sequence d = t.chain

/-- What is assumed of the digests of a log: over the chain values of the log, a digest of a
    decision gives the chain value in front of it away, and none is the initial value. -/
structure DigestsSeparate (recs : List JournalRecord) : Prop where
  separate : ∀ t ∈ attemptsOf recs, ∀ t' ∈ attemptsOf recs, ∀ d d', Spells t d → Spells t' d' →
    ∀ c ∈ {} :: (attemptsOf recs).map JournalRecord.chain,
    ∀ c' ∈ {} :: (attemptsOf recs).map JournalRecord.chain,
    expectedChain c t.sequence d = expectedChain c' t'.sequence d' → c = c'
  nonzero : ∀ t ∈ attemptsOf recs, t.chain ≠ {}

/-- Separate digests make the chain rigid. -/
theorem DigestsSeparate.rigid {recs : List JournalRecord} (h : DigestsSeparate recs) :
    Rigid JournalRecord.chain {} Continues (attemptsOf recs) := by
  refine ⟨fun t ht t' ht' c hc c' hc' hfits hfits' hsame => ?_, h.nonzero⟩
  obtain ⟨d, hd, hchain⟩ := hfits
  obtain ⟨d', hd', hchain'⟩ := hfits'
  exact h.separate t ht t' ht' d d' hd hd' c hc c' hc' (by rw [hchain, hchain', hsame])

/-- The log is a chain. -/
def LinkedLog (recs : List JournalRecord) : Prop :=
  Chain JournalRecord.chain {} Continues (attemptsOf recs)

/-- The chain value a log ends with. -/
def endOf (recs : List JournalRecord) : Digest128 :=
  tip JournalRecord.chain {} (attemptsOf recs)

section Log

variable {recs : List JournalRecord} {t : JournalRecord}

/-- A record of another kind is no Attempt. -/
theorem attemptsOf_concat_of_ne (hkind : t.kind ≠ .attempt) :
    attemptsOf (recs ++ [t]) = attemptsOf recs := by
  unfold attemptsOf
  rw [List.filter_append, List.filter_cons_of_neg (by simpa using hkind), List.filter_nil,
    List.append_nil]

/-- An Attempt is the last of the Attempts. -/
theorem attemptsOf_concat (hkind : t.kind = .attempt) :
    attemptsOf (recs ++ [t]) = attemptsOf recs ++ [t] := by
  unfold attemptsOf
  rw [List.filter_append, List.filter_cons_of_pos (by simpa using hkind), List.filter_nil]

/-- No records are linked. -/
theorem linkedLog_nil : LinkedLog [] := Lib.chain_nil

/-- A record that takes no part in the chain. -/
theorem LinkedLog.skip (h : LinkedLog recs) (hkind : t.kind ≠ .attempt) :
    LinkedLog (recs ++ [t]) ∧ endOf (recs ++ [t]) = endOf recs := by
  unfold LinkedLog endOf at *
  rw [attemptsOf_concat_of_ne hkind]
  exact ⟨h, rfl⟩

/-- One more decision. -/
theorem LinkedLog.concat (h : LinkedLog recs) (hkind : t.kind = .attempt)
    (ht : Continues (endOf recs) t) :
    LinkedLog (recs ++ [t]) ∧ endOf (recs ++ [t]) = t.chain := by
  unfold LinkedLog endOf at *
  rw [attemptsOf_concat hkind]
  exact ⟨h.concat ht, Lib.tip_concat _ _ _ _⟩

end Log

namespace CreditEngine

variable {J : Type}

/-! ### What a recovery reads -/

/-- A mark does not move the chain. -/
private theorem markAmbiguous_chain (e : CreditEngine J) (r : CreditRequest) (seq : UInt64) :
    (e.markAmbiguous r seq).chain = e.chain := by
  unfold markAmbiguous
  cases e.accounts[r.authority.account]? with
  | none => rfl
  | some a =>
    simp only
    cases a.markAmbiguous e.limits.maxAmbiguousAttempts r seq <;> rfl

/-- **Replays read chains.**  A log without snapshots that replays behind a chain is a chain. -/
theorem ReplaysTo.linked {e e' : CreditEngine J} {recs : List JournalRecord}
    (h : ReplaysTo none e recs e') (hkinds : ∀ t ∈ recs, t.kind ≠ .snapshot)
    {done : List JournalRecord} (hdone : LinkedLog done) (hchain : e.chain = endOf done) :
    LinkedLog (done ++ recs) ∧ e'.chain = endOf (done ++ recs) := by
  induction h generalizing done with
  | done e j =>
    rw [List.append_nil]
    exact ⟨hdone, hchain⟩
  | @next e e₁ e' t rest j s hrecord hs tail ih =>
    have hstep : LinkedLog (done ++ [t]) ∧ e₁.chain = endOf (done ++ [t]) := by
      cases replayRecord_inv hrecord hs with
      | skipped hskip => exact absurd hskip (by simp)
      | intent _ kind pending =>
        obtain ⟨hlinked, hend⟩ := hdone.skip (t := t) (by rw [kind]; decide)
        refine ⟨hlinked, ?_⟩
        rw [hend, ← hchain]
        exact markAmbiguous_chain { e with journal := j } pending t.sequence
      | snapshot _ kind => exact absurd kind (hkinds t List.mem_cons_self)
      | attempt _ kind d decoded chained =>
        obtain ⟨hlinked, hend⟩ := hdone.concat kind ⟨d, .inr decoded, by rw [← hchain]; exact chained⟩
        exact ⟨hlinked, hend.symm⟩
    have hrest := ih (fun t' ht' => hkinds t' (List.mem_cons_of_mem _ ht')) hstep.1 hstep.2
    rwa [List.append_assoc, List.singleton_append] at hrest

/-- A recovery that returned Ok over a log without snapshots has read a chain, and continues
    it. -/
theorem recover_linked [Journal J] {e : CreditEngine J} {recs : List JournalRecord} {j' : J}
    (hyields : Yields e.journal none recs j') (hok : e.recover.1.ok = true)
    (hkinds : ∀ t ∈ recs, t.kind ≠ .snapshot) :
    LinkedLog recs ∧ e.recover.2.chain = endOf recs := by
  obtain ⟨j, s, e₁, e₂, hload, hs, hreplays, heq⟩ := recover_inv hyields hok
  have hstart : e₁.chain = endOf [] := by
    cases loadSnapshot_inv hload hs with
    | none => rfl
  have hlinked := hreplays.linked hkinds linkedLog_nil hstart
  rw [heq]
  exact hlinked

end CreditEngine

/-! ### What a deployment writes -/

namespace Disk

/-- No Snapshot record has ever been durable. -/
def SnapshotFree (d : Disk) : Prop := ∀ t ∈ d.written, t.kind ≠ .snapshot

/-- Unless a snapshot has been taken the log is a chain, and there is nothing but the log. -/
def Linked (d : Disk) : Prop :=
  d.SnapshotFree → d.snapshot = none ∧ (∀ t ∈ d.records, t ∈ d.written) ∧ LinkedLog d.records

/-- Unless a snapshot has been taken the log ends with the chain value. -/
def EndsWith (d : Disk) (c : Digest128) : Prop := d.SnapshotFree → endOf d.records = c

/-- What was once durable stays on record. -/
private theorem written_after {d d' : Disk} {ev : JournalEvent} (h : d' ∈ d.after ev) :
    ∀ t ∈ d.written, t ∈ d'.written := by
  intro t ht
  cases ev with
  | appended t' s =>
    rcases after_appended h with happended | ⟨rfl, -⟩
    · rw [happended.written]
      exact List.mem_append_left _ ht
    · exact ht
  | wroteSnapshot i s =>
    rcases after_wroteSnapshot h with rfl | ⟨rfl, -⟩
    · exact ht
    · exact ht
  | rotated n s =>
    rw [(after_rotated h).2.1]
    exact ht
  | _ =>
    simp only [after, List.mem_singleton] at h
    rw [h]
    exact ht

/-- A storage that a snapshot has reached promises nothing, and neither does what follows. -/
theorem through_of_snapshot {d : Disk} (h : ¬ d.SnapshotFree) (c : Prop) (v : Digest128)
    (evs : List JournalEvent) : d.Through Linked (fun d' => c → d'.EndsWith v) evs := by
  induction evs generalizing d with
  | nil => exact .nil (fun hfree => absurd hfree h) fun _ hfree => absurd hfree h
  | cons ev evs ih =>
    refine .cons (fun hfree => absurd hfree h) fun d' hd' => ih fun hfree => h fun t ht => ?_
    exact hfree t (written_after hd' t ht)

section Appended

variable {d d' : Disk} {t : JournalRecord} {c : Digest128}

/-- Without Snapshot records behind an append there were none in front of it. -/
theorem Appended.free (h : d.Appended t d') (hfree : d'.SnapshotFree) :
    d.SnapshotFree ∧ t.kind ≠ .snapshot := by
  unfold SnapshotFree at hfree
  rw [h.written] at hfree
  exact ⟨fun t' ht' => hfree t' (List.mem_append_left _ ht'),
    hfree t (List.mem_append_right _ (List.mem_singleton_self t))⟩

/-- A record in the log was once durable. -/
theorem Appended.listed (h : d.Appended t d') (hlisted : ∀ t' ∈ d.records, t' ∈ d.written) :
    ∀ t' ∈ d'.records, t' ∈ d'.written := by
  intro t' ht'
  rw [h.records, List.mem_append] at ht'
  rw [h.written, List.mem_append]
  exact ht'.imp (hlisted t') id

/-- An Intent record behind the chain. -/
theorem Appended.intent (h : d.Appended t d') (hkind : t.kind = .intent) (hd : d.Linked)
    (hc : d.EndsWith c) : d'.Linked ∧ d'.EndsWith c := by
  have hne : t.kind ≠ .attempt := by
    rw [hkind]
    decide
  refine ⟨fun hfree => ?_, fun hfree => ?_⟩
  · obtain ⟨hsnapshot, hlisted, hlog⟩ := hd (h.free hfree).1
    refine ⟨h.snapshot.trans hsnapshot, h.listed hlisted, ?_⟩
    rw [h.records]
    exact (hlog.skip hne).1
  · obtain ⟨-, -, hlog⟩ := hd (h.free hfree).1
    rw [h.records, (hlog.skip hne).2]
    exact hc (h.free hfree).1

/-- An Attempt record that continues the chain. -/
theorem Appended.attempt (h : d.Appended t d') (hkind : t.kind = .attempt) (hd : d.Linked)
    (hc : d.EndsWith c) (ht : Continues c t) : d'.Linked ∧ d'.EndsWith t.chain := by
  refine ⟨fun hfree => ?_, fun hfree => ?_⟩
  · obtain ⟨hsnapshot, hlisted, hlog⟩ := hd (h.free hfree).1
    refine ⟨h.snapshot.trans hsnapshot, h.listed hlisted, ?_⟩
    rw [h.records]
    exact (hlog.concat hkind (by rw [hc (h.free hfree).1]; exact ht)).1
  · obtain ⟨-, -, hlog⟩ := hd (h.free hfree).1
    rw [h.records]
    exact (hlog.concat hkind (by rw [hc (h.free hfree).1]; exact ht)).2

end Appended

end Disk

namespace CreditEngine

open Disk

variable {J : Type} {e e' : CreditEngine (Observed J)} {d : Disk} {s : Status}
  {evs : List JournalEvent}

/-- The calls of a snapshot: the log is as it was, or a Snapshot record has reached it. -/
theorem SnapshotTrace.linked (h : SnapshotTrace e s evs) (hd : d.Linked) {v : Digest128}
    (hv : d.EndsWith v) (c : Prop) : d.Through Linked (fun d' => c → d'.EndsWith v) evs := by
  have hreached : ∀ {d' : Disk}, d.Appended e.snapshotRecord d' → ¬ d'.SnapshotFree :=
    fun happended hfree => (happended.free hfree).2 rfl
  have hfirst : ∀ {s' : Status} {d' : Disk} (rest : List JournalEvent), s'.ok = true →
      d' ∈ d.after (.appended e.snapshotRecord s') →
      d'.Through Linked (fun d'' => c → d''.EndsWith v) rest := by
    intro s' d' rest hs' hd'
    exact through_of_snapshot (hreached (appended_of_ok hd' hs')) c v rest
  cases h with
  | appendFailed =>
    refine .cons hd fun d' hd' => ?_
    rcases after_appended hd' with happended | ⟨rfl, -⟩
    · exact through_of_snapshot (hreached happended) c v []
    · exact .nil hd fun _ => hv
  | writeFailed _ _ h₁ => exact .cons hd fun d' hd' => hfirst _ h₁ hd'
  | rotateFailed _ _ _ h₁ => exact .cons hd fun d' hd' => hfirst _ h₁ hd'
  | durable _ _ _ h₁ => exact .cons hd fun d' hd' => hfirst _ h₁ hd'

variable [Journal J]

/-- The calls of a decision: its Attempt record continues the chain. -/
theorem PersistTrace.linked {r : CreditRequest} {o : CreditOutcome} {a : AccountState} {c : Bool}
    (h : PersistTrace e r o a c s evs) (hwritten : (e.durableAttempt r o a c).Written)
    (hd : d.Linked) (hv : d.EndsWith e.chain) : d.Through Linked
      (fun d' => s.ok = true → d'.EndsWith (e.attemptRecord r o a c).chain) evs := by
  have hcontinues : Continues e.chain (e.attemptRecord r o a c) := ⟨_, .inl ⟨hwritten, rfl⟩, rfl⟩
  -- the Intent leaves the chain where it was
  have hintent : ∀ {d' : Disk} {s' : Status}, d' ∈ d.after (.appended (e.intentRecord r) s') →
      d'.Linked ∧ d'.EndsWith e.chain := by
    intro d' s' hd'
    rcases after_appended hd' with happended | ⟨rfl, -⟩
    · exact happended.intent rfl hd hv
    · exact ⟨hd, hv⟩
  -- the Attempt continues it
  have hattempt : ∀ {d' d'' : Disk} {s' : Status}, d'.Linked ∧ d'.EndsWith e.chain →
      s'.ok = true → d'' ∈ d'.after (.appended (e.attemptRecord r o a c) s') →
      d''.Linked ∧ d''.EndsWith (e.attemptRecord r o a c).chain := by
    intro d' d'' s' hd' hs' hd''
    exact (appended_of_ok hd'' hs').attempt rfl hd'.1 hd'.2 hcontinues
  cases h with
  | intentFailed _ hs =>
    exact .cons hd fun d' hd' => .nil (hintent hd').1 (Status.never_ok hs)
  | attemptFailed _ _ _ hs =>
    refine .cons hd fun d' hd' => .cons (hintent hd').1 fun d'' hd'' => .nil ?_ (Status.never_ok hs)
    rcases after_appended hd'' with happended | ⟨rfl, -⟩
    · exact (happended.attempt rfl (hintent hd').1 (hintent hd').2 hcontinues).1
    · exact (hintent hd').1
  | kept _ _ _ h₂ =>
    refine .cons hd fun d' hd' => .cons (hintent hd').1 fun d'' hd'' => ?_
    obtain ⟨hlinked, hend⟩ := hattempt (hintent hd') h₂ hd''
    exact .nil hlinked fun _ => hend
  | rotated _ _ _ more _ h₂ hsnap =>
    refine .cons hd fun d' hd' => .cons (hintent hd').1 fun d'' hd'' => ?_
    obtain ⟨hlinked, hend⟩ := hattempt (hintent hd') h₂ hd''
    exact hsnap.linked hlinked hend _

/-- A snapshot does not move the chain. -/
theorem Snapshotted.chain (h : Snapshotted e s e') : e'.chain = e.chain := by
  cases h <;> rfl

/-- A persisted decision moves the engine to the chain value of its record. -/
theorem Persisted.chain_of_ok {r : CreditRequest} {o : CreditOutcome} {a : AccountState}
    {c : Bool} (h : Persisted e r o a c s e') (hok : s.ok = true) :
    e'.chain = (e.attemptRecord r o a c).chain := by
  cases h with
  | appendFailed _ hs =>
    rw [hs] at hok
    exact absurd hok (by decide)
  | kept => rfl
  | rotated _ _ _ hsnap => exact hsnap.chain

/-- The log is a chain at every point of the call and ends with the chain value of the engine
    behind it, unless the journal has failed. -/
def StaysLinked (e e' : CreditEngine (Observed J)) (d : Disk) : Prop :=
  ∃ evs, e'.journal.log = e.journal.log ++ evs ∧
    d.Through Linked (fun d' => e'.journalFailed = false → d'.EndsWith e'.chain) evs

omit [Journal J] in
/-- Without journal calls the log stays linked. -/
theorem StaysLinked.quiet (hjournal : e'.journal = e.journal) (hd : d.Linked)
    (hv : e'.journalFailed = false → d.EndsWith e'.chain) : StaysLinked e e' d :=
  ⟨[], by rw [hjournal, List.append_nil], .nil hd hv⟩

/-- One decision. -/
theorem settle_linked {r : CreditRequest} {o : CreditOutcome} {a : AccountState} {c : Bool}
    {f g : CreditEngine (Observed J) → CreditEngine (Observed J)}
    (hwritten : (e.durableAttempt r o a c).Written) (hd : d.Linked) (hv : d.EndsWith e.chain)
    (hf : ∀ e', (f e').journal = e'.journal)
    (hg : ∀ e', (g e').journal = e'.journal ∧ (g e').chain = e'.chain) :
    StaysLinked e (e.settle r o a c f g).2 d := by
  obtain ⟨evs, hlog, htrace⟩ := persistLocked_trace e r o a c
  have hthrough := htrace.linked hwritten hd hv
  have hchain := (persistLocked_persisted e r o a c).chain_of_ok
  unfold StaysLinked
  cases hok : (e.persistLocked r o a c).1.ok with
  | false =>
    rw [settle_of_failed hok]
    refine ⟨evs, ?_, hthrough.mono (fun _ h => h) fun _ _ _ hhealthy => ?_⟩
    · rw [← hlog]
      exact congrArg Observed.log (hf _)
    · exact absurd hhealthy (by simp)
  | true =>
    rw [settle_of_ok hok]
    refine ⟨evs, ?_, hthrough.mono (fun _ h => h) fun d' _ hend _ => ?_⟩
    · rw [← hlog]
      exact congrArg Observed.log (hg _).1
    · rw [(hg _).2, hchain hok]
      exact hend hok

/-- **One call.** -/
theorem apply_linked (e : CreditEngine (Observed J)) (r : CreditRequest) (hd : d.Linked)
    (hv : e.journalFailed = false → d.EndsWith e.chain) : StaysLinked e (e.apply r).2 d := by
  have hcase := e.apply_cases r
  generalize e.apply r = result at hcase ⊢
  cases hcase with
  | answered => exact .quiet rfl hd hv
  | absorbed => exact .quiet rfl hd hv
  | opened h =>
    exact settle_linked (e := e.opening r) (durableAttempt_written _ r _
      (quarantined_computeView _ _) fun _ => rfl) hd (hv h.healthy) (fun _ => rfl)
      fun _ => ⟨rfl, rfl⟩
  | decided a h =>
    unfold settleDecision follow
    cases e.decision a r with
    | reject s a' => exact .quiet rfl hd hv
    | refuse s a' =>
      exact settle_linked (e := e.refusing r a') (durableAttempt_written _ r _
        (quarantined_computeView _ _) nofun) hd (hv h.healthy) (fun _ => rfl)
        fun _ => ⟨rfl, rfl⟩
    | proceed a' =>
      exact settle_linked (e := e.applying r a') (durableAttempt_written _ r _
        (quarantined_computeView _ _) fun _ => rfl) hd (hv h.healthy) (fun _ => rfl)
        fun _ => ⟨rfl, rfl⟩

/-- **One snapshot.** -/
theorem snapshot_linked (e : CreditEngine (Observed J)) (hd : d.Linked)
    (hv : e.journalFailed = false → d.EndsWith e.chain) : StaysLinked e e.snapshot.2 d := by
  unfold snapshot
  split_ifs with hrecovered hfailed
  · exact .quiet rfl hd hv
  · exact .quiet rfl hd hv
  · have hsnap := snapshotLocked_snapshotted e
    obtain ⟨evs, hlog, htrace⟩ := hsnap.trace
    refine ⟨evs, hlog, ?_⟩
    rw [hsnap.chain]
    exact htrace.linked hd (hv (by simpa using hfailed)) _

end CreditEngine

namespace Deployment

open CreditEngine Disk

variable {J : Type} [Journal J] {w w' : Deployment J} {acts : List Act}

/-- The log is a chain that the engine continues. -/
structure Linked (w : Deployment J) : Prop where
  disk : w.disk.Linked
  engine : w.engine.journalFailed = false → w.disk.EndsWith w.engine.chain

/-- What a crash leaves is a chain as well. -/
theorem Linked.crashed (h : w.Linked) {disk : Disk} (hcrash : w.Crashes disk) : disk.Linked := by
  obtain ⟨done, hdisk, ⟨r, hdone⟩ | hdone⟩ := hcrash
  · obtain ⟨evs, hlog, hthrough⟩ := apply_linked w.engine r h.disk h.engine
    rw [events_of_append hlog] at hdone
    exact hthrough.always.of_prefix hdone hdisk
  · obtain ⟨evs, hlog, hthrough⟩ := snapshot_linked w.engine h.disk h.engine
    rw [events_of_append hlog] at hdone
    exact hthrough.always.of_prefix hdone hdisk

/-- **Step lemma.** -/
theorem Step.linked {act : Act} (hstep : Step w act w') (h : w.Linked) : w'.Linked := by
  cases hstep with
  | called r disk durable =>
    obtain ⟨evs, hlog, hthrough⟩ := apply_linked w.engine r h.disk h.engine
    rw [events_of_append hlog] at durable
    exact ⟨hthrough.always.of_prefix (List.prefix_refl evs) durable, hthrough.after disk durable⟩
  | snapshotted disk durable =>
    obtain ⟨evs, hlog, hthrough⟩ := snapshot_linked w.engine h.disk h.engine
    rw [events_of_append hlog] at durable
    exact ⟨hthrough.always.of_prefix (List.prefix_refl evs) durable, hthrough.after disk durable⟩
  | restarted limits journal operator nonce disk o' crash addressable yields ok =>
    have hdisk := h.crashed crash
    refine ⟨hdisk, fun _ hfree => ?_⟩
    obtain ⟨hsnapshot, hlisted, -⟩ := hdisk hfree
    rw [hsnapshot] at yields
    exact (recover_linked yields ok fun t ht => hfree t (hlisted t ht)).2.symm

/-- **Run lemma.** -/
theorem Run.linked {limits : EngineLimits} {journal : J} {operator : Incarnation}
    {nonce : Digest128} (hrun : Run (start limits journal operator nonce) acts w) :
    w.Linked := by
  have hstart : (start limits journal operator nonce).Linked := by
    refine ⟨fun _ => ⟨rfl, fun t ht => absurd ht List.not_mem_nil, linkedLog_nil⟩, fun _ _ => rfl⟩
  induction hrun with
  | nil => exact hstart
  | concat _ step ih => exact step.linked ih

/-- **Rearrangements are detected.**  Take the log a run has left that wrote no snapshot, at a
    crash at any point of a call, and any sequence of its records, reordered, repeated or left
    out.  If its digests are separate, a recovery from the sequence that returns Ok has read a
    prefix of its Attempt records. -/
theorem rearranged_prefix {limits limits' : EngineLimits} {journal journal' : J}
    {operator operator' : Incarnation} {nonce nonce' : Digest128}
    (hrun : Run (start limits journal operator nonce) acts w) {disk : Disk}
    (hcrash : w.Crashes disk) (hfree : disk.SnapshotFree)
    (hdigests : DigestsSeparate disk.records) {recs : List JournalRecord}
    (hbuilt : ∀ t ∈ recs, t ∈ disk.records) {o' : Observed J}
    (hyields : Yields (Observed.mk journal' []) none recs o')
    (hok : (make limits' (Observed.mk journal' []) operator' nonce').recover.1.ok = true) :
    attemptsOf recs <+: attemptsOf disk.records := by
  obtain ⟨-, hlisted, hlog⟩ := hrun.linked.crashed hcrash hfree
  have hread := recover_linked hyields hok fun t ht => hfree t (hlisted t (hbuilt t ht))
  refine hlog.prefix_of_subset hdigests.rigid hread.1 fun t ht => ?_
  obtain ⟨hmem, hkind⟩ := List.mem_filter.mp ht
  exact List.mem_filter.mpr ⟨hbuilt t hmem, hkind⟩

end Deployment

namespace SwappedIntents

open Fixture CreditEngine Deployment

/-- The nonce of the fixture's boot. -/
def nonce : Digest128 := ⟨0x18, 0x81⟩

/-- The Open of the fixture. -/
def opening : CreditRequest := request nonce me .open_ 1

/-- The Issue of the fixture. -/
def issuing : CreditRequest := request nonce me .issue 2

/-- The engine of the fixture. -/
def booted : CreditEngine (Observed InMemoryJournal) := boot {} ⟨{}, []⟩ nonce

/-- The journal calls of an Open and of an Issue behind it. -/
def openEvents : List JournalEvent := events booted (booted.apply opening).2

/-- The journal calls of the Issue. -/
def issueEvents : List JournalEvent :=
  events (booted.apply opening).2 ((booted.apply opening).2.apply issuing).2

/-- What the records stand for. -/
def readAs (t : JournalRecord) : DurableAttempt :=
  match decodeDurableAttempt t.payload with
  | .ok d => d
  | .error _ => {}

/-- Of four records the first one behind the third. -/
def swapped (recs : List JournalRecord) : List JournalRecord :=
  recs.rotateLeft.take 2 ++ recs.take 1 ++ recs.drop 3

/-- The run, evaluated once. -/
theorem evaluated : ∀ d₁ ∈ Disk.afterAll {} openEvents, ∀ d₂ ∈ d₁.afterAll issueEvents,
    d₂.SnapshotFree ∧
    (∀ t ∈ attemptsOf d₂.records, decodeDurableAttempt t.payload = .ok (readAs t) ∧
      (readAs t).account ≠ {} ∧ t.chain ≠ {}) ∧
    (∀ t ∈ attemptsOf d₂.records, ∀ t' ∈ attemptsOf d₂.records,
      ∀ c ∈ {} :: (attemptsOf d₂.records).map JournalRecord.chain,
      ∀ c' ∈ {} :: (attemptsOf d₂.records).map JournalRecord.chain,
      expectedChain c t.sequence (readAs t) = expectedChain c' t'.sequence (readAs t') → c = c') ∧
    (∀ t ∈ swapped d₂.records, t ∈ d₂.records) ∧
    (make {} (Observed.mk (Disk.inMemory { records := swapped d₂.records }) []) me
      nonce).recover.1.ok = true := by
  unfold Disk.SnapshotFree
  decide +kernel

/-- A record of the log stands for what is read from it. -/
theorem eq_readAs {t : JournalRecord} {d : DurableAttempt}
    (hread : decodeDurableAttempt t.payload = .ok (readAs t)) (himage : (readAs t).account ≠ {})
    (h : Spells t d) : d = readAs t := by
  rcases h with ⟨hwritten, hpayload⟩ | hdecoded
  · rw [hpayload] at hread
    rcases decodeDurableAttempt_cases hwritten hread with hsame | ⟨-, hnone⟩
    · exact hsame.symm
    · exact absurd hnone himage
  · rw [hread, Except.ok.injEq] at hdecoded
    exact hdecoded.symm

/-- The log of an Open and an Issue recovers with its Intents in another place, and its Attempt
    records are still a prefix. -/
theorem swapped_prefix : ∃ disk : Disk,
    (make {} (Observed.mk (Disk.inMemory { records := swapped disk.records }) []) me
      nonce).recover.1.ok = true ∧
    attemptsOf (swapped disk.records) <+: attemptsOf disk.records := by
  obtain ⟨w₁, hstep, hdisk, hengine⟩ := exists_first {} nonce
  obtain ⟨d₁, hd₁⟩ := exists_after w₁.disk (events w₁.engine (w₁.engine.apply opening).2)
  have hcalled := Step.called opening d₁ hd₁
  obtain ⟨d₂, hd₂⟩ := exists_after d₁
    (events (w₁.engine.apply opening).2 ((w₁.engine.apply opening).2.apply issuing).2)
  have hbooted : w₁.engine = booted := hengine
  obtain ⟨hfree, hread, hseparate, hbuilt, hok⟩ := evaluated d₁ (by rwa [hdisk, hbooted] at hd₁)
    d₂ (by rwa [hbooted] at hd₂)
  have hdigests : DigestsSeparate d₂.records := by
    refine ⟨fun t ht t' ht' d d' hd hd' => ?_, fun t ht => (hread t ht).2.2⟩
    rw [eq_readAs (hread t ht).1 (hread t ht).2.1 hd,
      eq_readAs (hread t' ht').1 (hread t' ht').2.1 hd']
    exact hseparate t ht t' ht'
  obtain ⟨o', hyields⟩ := Disk.yields_inMemory { records := swapped d₂.records }
  have hrun := (Run.nil.concat hstep).concat hcalled
  refine ⟨d₂, hok, rearranged_prefix hrun (show Crashes _ d₂ from ?_) hfree hdigests hbuilt
    hyields hok⟩
  exact ⟨_, hd₂, .inl ⟨issuing, List.prefix_refl _⟩⟩

end SwappedIntents

end CreditFabric
