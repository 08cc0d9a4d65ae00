import CreditFabric.DigestLanes
import CreditFabric.Retry
import CreditFabric.StateDigest
import CreditFabric.Tracking

namespace CreditFabric

open Std (ExtTreeMap)
open Function (Injective)

/-!
# What an outcome reports

An outcome is filled in behind the decision and in front of its publication.  Publishing moves
the caller's watermark, and the watermark is among the words of the account digest: the digest
in the outcome is that of an account that nobody sees any more (`committed_not_reported`).
The view is that of the account, the era unless the call itself has advanced it.

Two digests over words that differ in one place are different, whatever the other words are
(`digest_ne_of_change`): no step of the digest loses anything.
-/

/-! ### The digest keeps one changed word -/

namespace DigestBuilder

/-- Two builders stay apart, whatever word they absorb. -/
theorem u64_injective_builder (v : UInt64) : Injective fun b : DigestBuilder => b.u64 v := by
  intro b b' h
  have hlo : avalanch64 (b.lo ^^^ mix64 (v + 0x9E3779B97F4A7C15)) =
      avalanch64 (b'.lo ^^^ mix64 (v + 0x9E3779B97F4A7C15)) := congrArg lo h
  have hhi : avalanch64 (b.hi + mix64 (v ^^^ 0xD6E8FEB86659FD93)) =
      avalanch64 (b'.hi + mix64 (v ^^^ 0xD6E8FEB86659FD93)) := congrArg hi h
  have hlength : b.length + 1 = b'.length + 1 := congrArg length h
  cases b
  cases b'
  rw [mk.injEq]
  exact ⟨(UInt64.xor_left_inj _).mp (avalanch64_injective hlo),
    (UInt64.add_left_inj _).mp (avalanch64_injective hhi), (UInt64.add_left_inj _).mp hlength⟩

/-- A builder tells the words it absorbs apart. -/
theorem u64_injective_word (b : DigestBuilder) : Injective b.u64 := by
  intro v v' h
  have hlo : avalanch64 (b.lo ^^^ mix64 (v + 0x9E3779B97F4A7C15)) =
      avalanch64 (b.lo ^^^ mix64 (v' + 0x9E3779B97F4A7C15)) := congrArg lo h
  have hmixed := mix64_injective ((UInt64.xor_right_inj _).mp (avalanch64_injective hlo))
  exact (UInt64.add_left_inj _).mp hmixed

/-- Each word is counted. -/
theorem length_absorb (b : DigestBuilder) (words : List UInt64) :
    (b.absorb words).length = b.length + UInt64.ofNat words.length := by
  induction words generalizing b with
  | nil => simp [absorb]
  | cons w words ih =>
    show ((b.u64 w).absorb words).length = _
    rw [ih, List.length_cons, show (b.u64 w).length = b.length + 1 from rfl,
      UInt64.ofNat_add, UInt64.add_assoc, UInt64.add_comm 1]
    rfl

/-- A digest goes back to its builder, if the counts agree. -/
private theorem finish_inj {b b' : DigestBuilder} (hlength : b.length = b'.length)
    (h : b.finish = b'.finish) : b = b' := by
  have hlo : avalanch64 (b.lo ^^^ mix64 (b.length + 0x2545F4914F6CDD1D)) =
      avalanch64 (b'.lo ^^^ mix64 (b'.length + 0x2545F4914F6CDD1D)) := congrArg Digest128.lo h
  have hhi : avalanch64 (b.hi ^^^ mix64 (b.length + 0x14057B7EF767814F)) =
      avalanch64 (b'.hi ^^^ mix64 (b'.length + 0x14057B7EF767814F)) := congrArg Digest128.hi h
  rw [hlength] at hlo hhi
  cases b
  cases b'
  rw [mk.injEq]
  exact ⟨(UInt64.xor_left_inj _).mp (avalanch64_injective hlo),
    (UInt64.xor_left_inj _).mp (avalanch64_injective hhi), hlength⟩

/-- **One changed word.** -/
theorem finish_ne_of_change (b : DigestBuilder) {w w' : UInt64} (h : w ≠ w')
    (xs ys : List UInt64) :
    (b.absorb (xs ++ w :: ys)).finish ≠ (b.absorb (xs ++ w' :: ys)).finish := by
  intro heq
  have hlength : (b.absorb (xs ++ w :: ys)).length = (b.absorb (xs ++ w' :: ys)).length := by
    rw [length_absorb, length_absorb, List.length_append, List.length_append, List.length_cons,
      List.length_cons]
  exact Lib.foldl_ne_of_change u64_injective_builder u64_injective_word h b xs ys
    (finish_inj hlength heq)

end DigestBuilder

namespace AccountState

/-- **Watermarks are bound.**  Moving the watermark of one record changes the digest. -/
theorem digest_ne_of_change {a a' : AccountState} {i : IncarnationId} {b : IncarnationRecord}
    {sequence : UInt64} (hb : a.incarnations[i]? = some b)
    (hrecords : a'.incarnations = a.incarnations.insert i { b with lastSequence := sequence })
    (hhead : a'.headWords = a.headWords) (hfences : a'.fences = a.fences)
    (h : b.lastSequence ≠ sequence) : a.digest ≠ a'.digest := by
  obtain ⟨l₁, l₂, hlist, hlist'⟩ :=
    Lib.toList_insert_of_mem hb { b with lastSequence := sequence }
  -- in front of the moved word and behind it the sequences are the same
  obtain ⟨xs, ys, hwords, hwords'⟩ : ∃ xs ys,
      a.absorbedWords = xs ++ b.lastSequence :: ys ∧ a'.absorbedWords = xs ++ sequence :: ys := by
    refine ⟨a.headWords ++ UInt64.ofNat a.fences.length :: a.fences.flatMap FenceRecord.words ++
      UInt64.ofNat (l₁.length + (l₂.length + 1)) ::
        ((l₁.map Prod.snd).flatMap IncarnationRecord.words ++
          [b.id, b.publisher, b.boot, UInt64.ofNat b.state.code, b.reconciledEpoch,
            b.reconciledGeneration, b.producer, b.consumer, b.grant]),
      b.committedOps :: b.refusedOps :: (l₂.map Prod.snd).flatMap IncarnationRecord.words, ?_, ?_⟩
    · simp [absorbedWords, hlist, IncarnationRecord.words]
    · simp [absorbedWords, hrecords, hlist', hhead, hfences, IncarnationRecord.words]
  rw [digest_eq_absorb, digest_eq_absorb, hwords, hwords']
  exact DigestBuilder.finish_ne_of_change _ h xs ys

end AccountState

namespace CreditEngine

/-! ### Publishing -/

/-- What publishing makes of the account `d` the outcome was filled in from. -/
structure PublishedFrom (d : AccountState) (r : CreditRequest) (x : AccountState) : Prop where
  records : ∀ b, d.incarnations[r.authority.incarnation]? = some b →
    x.incarnations = d.incarnations.insert r.authority.incarnation
      { b with lastSequence := r.sequence }
  head : x.headWords = d.headWords
  fences : x.fences = d.fences
  view : x.view = d.view
  epoch : x.epoch = d.epoch
  generation : x.generation = d.generation

/-- A published entry is from its decision. -/
theorem publishWindow_from (d : AccountState) (r : CreditRequest) (o : CreditOutcome) :
    PublishedFrom d r (d.publishWindow r o) := by
  refine ⟨fun b hb => incarnations_publishWindow hb o, ?_, ?_, ?_, ?_, ?_⟩
  all_goals rw [AccountState.publishWindow_eq] <;> rfl

/-- Logging a refusal changes nothing of it. -/
theorem PublishedFrom.recordRefusal {d x : AccountState} {r : CreditRequest} (h : PublishedFrom d r x)
    (maxRefusalLog : Nat) (o : CreditOutcome) :
    PublishedFrom d r (x.recordRefusal maxRefusalLog r o) := by
  rw [AccountState.recordRefusal_eq]
  exact ⟨h.records, h.head, h.fences, h.view, h.epoch, h.generation⟩

/-- What an outcome of a committed call is filled in from. -/
structure FilledFrom (o : CreditOutcome) (r : CreditRequest) (d : AccountState) : Prop where
  view : o.view = d.view
  stateDigest : o.stateDigest = d.digest
  caller : ∃ b, d.incarnations[r.authority.incarnation]? = some b ∧
    b.lastSequence.toNat < r.sequence.toNat
  era : o.authority.epoch = d.epoch ∧ o.authority.generation = d.generation ↔
    ¬ (r.op = .advanceEpoch ∨ r.op = .rotate)

variable {J : Type}

/-- The outcome of an Open is filled from its account. -/
theorem openOutcome_filled {e : CreditEngine J} {r : CreditRequest} (h : Opens e r) :
    FilledFrom (e.openOutcome r) r (openedAccount e.limits r) := by
  refine ⟨rfl, rfl, ⟨_, ExtTreeMap.getElem?_insert_self, ?_⟩, ?_⟩
  · have haccepted := h.accepted
    unfold validateOpen at haccepted
    simp only at haccepted
    split_ifs at haccepted with _ _ _ _ _ _ _ _ hsequence
    rw [not_not.mp hsequence]
    show (0 : UInt64).toNat < (1 : UInt64).toNat
    decide
  · exact ⟨fun _ hop => by rw [h.op] at hop; exact absurd hop (by decide), fun _ => ⟨rfl, rfl⟩⟩

/-- The decided account, with whichever counter the bookkeeping moves. -/
theorem decided_filled {e : CreditEngine J} {r : CreditRequest} {a d : AccountState}
    (hadmitted : Admitted e r a) (hd : ∀ s a', e.decision a r ≠ .reject s a')
    {f : IncarnationRecord → IncarnationRecord} (hf : ∀ b, (f b).lastSequence = b.lastSequence)
    (hrecords : ∀ b, (e.decision a r).account.incarnations[r.authority.incarnation]? = some b →
      d.incarnations[r.authority.incarnation]? = some (f b))
    (hera : d.epoch = (e.decision a r).account.epoch ∧
      d.generation = (e.decision a r).account.generation) {o : CreditOutcome}
    (hview : o.view = d.view) (hdigest : o.stateDigest = d.digest)
    (hauthority : o.authority.epoch = a.epoch ∧ o.authority.generation = a.generation) :
    FilledFrom o r d := by
  refine ⟨hview, hdigest, ?_, ?_⟩
  · obtain ⟨b, hb⟩ := decision_caller_known hadmitted hd
    refine ⟨f b, hrecords b hb, ?_⟩
    have hlast := (decision_sameCounters e a r).records r.authority.incarnation
    have hsequence := sequence_of_admitted hadmitted.placed
    rw [AccountState.countersAt_of_some hb] at hlast
    rw [← hlast, show b.counters.last = b.lastSequence from rfl] at hsequence
    rw [hf, hsequence]
    exact Nat.lt_succ_self _
  · rw [hera.1, hera.2, hauthority.1, hauthority.2]
    constructor
    · rintro ⟨-, hgeneration⟩ hop
      obtain ⟨a', hproceed⟩ := decision_of_advance hop hd
      have hadvance := (decision_advance hproceed hop).2
      rw [hproceed, show (Decision.proceed a').account.generation = _ from
        (decision_advanced hproceed hop).2.1] at hgeneration
      rw [← hgeneration] at hadvance
      omega
    · intro hop
      have hheader := decision_header e a r
      generalize e.decision a r = decision at hheader ⊢
      cases hheader with
      | kept _ epoch generation => exact ⟨epoch.symm, generation.symm⟩
      | advanced _ op => exact absurd op hop
      | fenced _ _ _ epoch generation => exact ⟨epoch.symm, generation.symm⟩

variable [Journal J]

/-- A committed call fills in its outcome from one account and publishes another. -/
theorem Committed.filled {e : CreditEngine (Observed J)} {r : CreditRequest}
    (h : Committed e r) : ∃ d x, FilledFrom (e.apply r).1 r d ∧ PublishedFrom d r x ∧
      (e.apply r).2.accounts[r.authority.account]? = some x := by
  obtain ⟨hhealthy, hopens | ⟨a, hadmitted, hd⟩⟩ := h.placed
  -- an account opened now, or one that was there
  · rw [apply_of_opens hopens] at hhealthy ⊢
    obtain ⟨houtcome, hfound⟩ := settleOpen_of_healthy hopens hhealthy
    refine ⟨openedAccount e.limits r, e.publishedOpen r, ?_, publishWindow_from _ _ _, hfound⟩
    rw [houtcome]
    exact openOutcome_filled hopens
  rw [apply_of_admitted hadmitted] at hhealthy ⊢
  obtain ⟨houtcome, hfound⟩ := settleDecision_of_healthy hhealthy
  rw [houtcome, hfound]
  -- the caller's counter moves by one
  have hcounted : ∀ (a' : AccountState) (f : IncarnationRecord → IncarnationRecord)
      (b : IncarnationRecord), a'.incarnations[r.authority.incarnation]? = some b →
      (a'.updateIncarnation r.authority.incarnation f).incarnations[r.authority.incarnation]? =
        some (f b) := by
    intro a' f b hb
    rw [AccountState.getElem?_updateIncarnation, if_pos rfl, hb]
    rfl
  cases hdecision : e.decision a r with
  | reject s a' => exact absurd hdecision (hd s a')
  | refuse s a' =>
    refine ⟨countRefused a' r.authority.incarnation, _, decided_filled hadmitted hd
      (f := fun b => { b with refusedOps := b.refusedOps + 1 }) (fun _ => rfl) (fun b hb => ?_) ?_
      rfl rfl ⟨rfl, rfl⟩, (publishWindow_from _ _ _).recordRefusal _ _, rfl⟩
    · rw [hdecision] at hb
      exact hcounted _ _ b hb
    · rw [hdecision]
      unfold countRefused
      rw [AccountState.updateIncarnation_eq]
      exact ⟨rfl, rfl⟩
  | proceed a' =>
    refine ⟨countCommitted a' r.authority.incarnation, _, decided_filled hadmitted hd
      (f := fun b => { b with committedOps := b.committedOps + 1 }) (fun _ => rfl)
      (fun b hb => ?_) ?_ rfl rfl ⟨rfl, rfl⟩, publishWindow_from _ _ _, rfl⟩
    · rw [hdecision] at hb
      exact hcounted _ _ b hb
    · rw [hdecision]
      unfold countCommitted
      rw [AccountState.updateIncarnation_eq]
      exact ⟨rfl, rfl⟩

/-! ### The report -/

/-- The outcome is that of the account, in everything it says of it. -/
structure Reports (o : CreditOutcome) (a : AccountState) : Prop where
  view : o.view = a.view
  stateDigest : o.stateDigest = a.digest
  epoch : o.authority.epoch = a.epoch
  generation : o.authority.generation = a.generation

/-- A control request of a live operator that finds the account and its place there. -/
structure Follows (e : CreditEngine J) (r : CreditRequest) (a : AccountState) : Prop where
  found : Found e r a
  control : classify r.op = .control
  bound : bindAuthority e.limits e.operatorIncarnation a r = none
  placed : placeInSequence a r = .admitted

/-- Evidence of another state is refused. -/
theorem Follows.stale {e : CreditEngine J} {r : CreditRequest} {a : AccountState}
    (h : Follows e r a) (hset : r.expectedState.isZero = false)
    (hother : r.expectedState ≠ a.digest) :
    (e.apply r).1.status = .refused .staleEvidence 1 := by
  rw [apply_of_found h.found]
  unfold applyToAccount decideControlLocked
  simp only [h.bound, h.placed, h.control, hset, hother, if_true, Bool.not_false, ne_eq,
    not_false_eq_true, and_self]
  rfl

/-- **An outcome never reports the state it produced.**  The view it carries is that of the
    account behind the call, and so is the era unless the call has advanced it, but the digest
    never is.  A control request that expects it is refused as stale. -/
theorem committed_not_reported {e : CreditEngine (Observed J)} {r : CreditRequest}
    (h : Committed e r) :
    ∃ a, (e.apply r).2.accounts[r.authority.account]? = some a ∧
      ¬ Reports (e.apply r).1 a ∧
      (e.apply r).1.view = a.view ∧
      (e.apply r).1.stateDigest ≠ a.digest ∧
      ((e.apply r).1.authority.epoch = a.epoch ∧ (e.apply r).1.authority.generation =
        a.generation ↔ ¬ (r.op = .advanceEpoch ∨ r.op = .rotate)) ∧
      ∀ r', Follows (e.apply r).2 r' a → r'.expectedState = (e.apply r).1.stateDigest →
        r'.expectedState.isZero = false →
        ((e.apply r).2.apply r').1.status = .refused .staleEvidence 1 := by
  obtain ⟨d, a, hfilled, hpublished, hfound⟩ := h.filled
  obtain ⟨b, hb, hlast⟩ := hfilled.caller
  have hother : (e.apply r).1.stateDigest ≠ a.digest := by
    rw [hfilled.stateDigest]
    refine AccountState.digest_ne_of_change hb (hpublished.records b hb) hpublished.head
      hpublished.fences fun hsame => ?_
    rw [hsame] at hlast
    exact absurd hlast (Nat.lt_irrefl _)
  refine ⟨a, hfound, fun hreports => hother hreports.stateDigest, ?_, hother, ?_, ?_⟩
  · rw [hfilled.view, hpublished.view]
  · rw [hpublished.epoch, hpublished.generation]
    exact hfilled.era
  · intro r' hfollows hexpected hset
    refine hfollows.stale hset ?_
    rw [hexpected]
    exact hother

namespace StaleReport

open Fixture

/-- The nonce of the fixture's boot. -/
def nonce : Digest128 := ⟨0x35, 0x53⟩

/-- The engine behind its first recovery. -/
def booted : CreditEngine (Observed InMemoryJournal) := Fixture.boot {} ⟨{}, []⟩ nonce

/-- The Open of the fixture is committed. -/
theorem open_committed : Committed booted (request nonce me .open_ 1) :=
  committed_of_applied (by decide +kernel)

/-- The outcome of an Open carries the digest of an account that has not counted it. -/
theorem open_not_reported : ∃ a, (booted.apply (request nonce me .open_ 1)).2.accounts[account]? =
    some a ∧ ¬ Reports (booted.apply (request nonce me .open_ 1)).1 a := by
  obtain ⟨a, ha, hnot, -⟩ := committed_not_reported open_committed
  exact ⟨a, ha, hnot⟩

/-- The digest in the outcome of the Open is not that of the account behind it. -/
theorem opened_not_reported : ¬ ∀ (limits : EngineLimits) (journal : InMemoryJournal)
    (operator : Incarnation) (nonce : Digest128) (acts : List Deployment.Act)
    (w : Deployment InMemoryJournal) (r : CreditRequest),
    Deployment.Run (Deployment.start limits journal operator nonce) acts w →
    Committed w.engine r →
    (∀ a, (w.engine.apply r).2.accounts[r.authority.account]? = some a →
      Reports (w.engine.apply r).1 a) ∧
    ∀ r' a, Follows (w.engine.apply r).2 r' a →
      r'.expectedState = (w.engine.apply r).1.stateDigest →
      ((w.engine.apply r).2.apply r').1.status.reason ≠ .staleEvidence := by
  intro hclaim
  obtain ⟨w, hrun, hengine⟩ := Deployment.exists_runWhere (C := fun _ _ => True) {} nonce [] trivial
  have hbooted : w.engine = booted := hengine
  have hboth := hclaim _ _ _ _ _ w (request nonce me .open_ 1) hrun.run
    (by rw [hbooted]; exact open_committed)
  rw [hbooted] at hboth
  have hdigest : ((booted.apply (request nonce me .open_ 1)).2.accounts[account]?).all
      (fun (a : AccountState) =>
        (booted.apply (request nonce me .open_ 1)).1.stateDigest = a.digest) = false := by
    decide +kernel
  cases hfound : (booted.apply (request nonce me .open_ 1)).2.accounts[account]? with
  | none =>
    rw [hfound] at hdigest
    exact absurd hdigest (by decide)
  | some a =>
    rw [hfound, Option.all_some, decide_eq_false_iff_not] at hdigest
    exact hdigest (hboth.1 a hfound).stateDigest

end StaleReport

end CreditEngine

end CreditFabric
