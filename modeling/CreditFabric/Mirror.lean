import CreditFabric.Restored

namespace CreditFabric

open Std (ExtTreeMap)

/-!
# The replayed account against the live one

Recovery does not rebuild an account as it was: counters, bindings, liveness and whole records
may differ.  What it does rebuild is the shadow of the account (`Shadow`): the era, the ledger
and the fences are the same, no watermark is ahead, and only records that were never used are
missing.  `Shadow.decided` is the step lemma: the replay of an Attempt record turns a shadow of
the account in front of the attempt into one of the account behind it.
-/

/-- The record has been live or fenced or retired, or has decided something. -/
def IncarnationRecord.Used (b : IncarnationRecord) : Prop :=
  b.state ≠ .unknown ∨ b.lastSequence ≠ 0

/-- Era, fences and records of the replayed account `p` against those of the live one `a`. -/
structure Outline (p a : AccountState) : Prop where
  epoch : p.epoch = a.epoch
  generation : p.generation = a.generation
  fences : p.fences = a.fences
  last : ∀ i, (p.countersAt i).last.toNat ≤ (a.countersAt i).last.toNat
  known : ∀ (i : IncarnationId) (b : IncarnationRecord), a.incarnations[i]? = some b → b.Used →
    p.incarnations[i]?.isSome = true
  listed : ∀ i : IncarnationId, p.incarnations[i]?.isSome = true →
    a.incarnations[i]?.isSome = true

/-- The replayed account `p` is a shadow of the live one `a`. -/
structure Shadow (p a : AccountState) : Prop extends Outline p a where
  capacity : p.capacity = a.capacity
  totals : p.totals = a.totals

/-- The fences are in the outline. -/
theorem Outline.isFenced {p a : AccountState} (h : Outline p a) (i : IncarnationId) :
    p.isFenced i = a.isFenced i := by
  unfold AccountState.isFenced
  rw [h.fences]

/-- So is the fence that answers a request. -/
theorem Shadow.fenceOf {p a : AccountState} (h : Shadow p a) (r : CreditRequest) :
    fenceOf p r = fenceOf a r := by
  unfold CreditFabric.fenceOf AccountState.view
  rw [h.epoch, h.generation, h.capacity, h.totals]

/-- The header behind an attempt, on both sides. -/
theorem Shadow.header {p p' a a' : AccountState} {r : CreditRequest} (h : Shadow p a)
    (hp : HeaderBehind p r p') (ha : HeaderBehind a r a') :
    p'.epoch = a'.epoch ∧ p'.generation = a'.generation ∧ p'.fences = a'.fences := by
  have hera : eraBehind p r = eraBehind a r := by
    unfold eraBehind nextEpoch
    rw [h.epoch, h.generation]
  refine ⟨?_, ?_, ?_⟩
  · rw [hp.epoch, ha.epoch, hera]
  · rw [hp.generation, ha.generation, hera]
  · rw [hp.fences, ha.fences, fencesBehind, fencesBehind, h.fences, h.fenceOf]

/-- Two accounts with the same essentials are shadows of each other. -/
theorem Shadow.of_essentials {p a : AccountState} (h : p.essentials = a.essentials) :
    Shadow p a := by
  have hfield : ∀ {β : Type} (f : AccountState → β), f p.essentials = f a.essentials :=
    fun f => congrArg f h
  have hrecords : p.incarnations = a.incarnations := hfield AccountState.incarnations
  refine ⟨⟨hfield AccountState.epoch, hfield AccountState.generation,
    hfield AccountState.fences, fun i => ?_, fun i b hb _ => ?_, fun i hi => ?_⟩,
    hfield AccountState.capacity, hfield AccountState.totals⟩
  · unfold AccountState.countersAt
    rw [hrecords]
  · rw [hrecords, hb]
    rfl
  · rw [← hrecords]
    exact hi

/-- The invariant reads only what the limits do not decide. -/
theorem Standing.of_essentials {key : UInt64} {p a : AccountState} (h : Standing key a)
    (heq : p.essentials = a.essentials) : Standing key p := by
  have hfield : ∀ {β : Type} (f : AccountState → β), f p.essentials = f a.essentials :=
    fun f => congrArg f heq
  have hrecords : p.incarnations = a.incarnations := hfield AccountState.incarnations
  have hfences : p.fences = a.fences := hfield AccountState.fences
  have hconfig : p.config = a.config := hfield AccountState.config
  refine ⟨h.sound.congr hconfig (hfield AccountState.capacity) (hfield AccountState.totals),
    by rw [hconfig, h.account], fun i b hb => ?_, h.book.kept (fun i hi => ?_) hfences⟩
  · rw [hrecords] at hb
    exact h.keyed i b hb
  · rw [hrecords]
    exact h.book.fenced i hi

/-- A shadow that has the records of `u` is as good as `u`. -/
theorem Shadow.of_same {p u a : AccountState} (h : Shadow u a) (hepoch : p.epoch = u.epoch)
    (hgeneration : p.generation = u.generation) (hfences : p.fences = u.fences)
    (hcapacity : p.capacity = u.capacity) (htotals : p.totals = u.totals)
    (hrecords : p.incarnations = u.incarnations) : Shadow p a := by
  refine ⟨⟨hepoch.trans h.epoch, hgeneration.trans h.generation, hfences.trans h.fences,
    fun i => ?_, fun i b hb hused => ?_, fun i hi => ?_⟩, hcapacity.trans h.capacity,
    htotals.trans h.totals⟩
  · unfold AccountState.countersAt
    rw [hrecords]
    exact h.last i
  · rw [hrecords]
    exact h.known i b hb hused
  · rw [hrecords] at hi
    exact h.listed i hi

/-! ### One decision, live and replayed -/

namespace CreditEngine

variable {J : Type}

/-- What a refusal writes of a record: nothing, or the bindings of an Issue. -/
theorem decision_refuse {e : CreditEngine J} {a a' : AccountState} {r : CreditRequest}
    {s : Status} (h : e.decision a r = .refuse s a') (i : IncarnationId) :
    a'.incarnations[i]? = a.incarnations[i]? ∨
      ∃ b producer consumer grant, a.incarnations[i]? = some b ∧
        a'.incarnations[i]? = some { b with producer, consumer, grant } := by
  rcases e.decision_cases a r with ⟨hcase, -⟩ | ⟨hcase, -⟩ | ⟨hcase, -, -⟩ <;> rw [h] at hcase
  · cases hcase with
    | refused => exact .inl rfl
  · cases hcase
  · cases hcase with
    | refused => exact .inl rfl
    | refusedBound op hopen b found =>
      by_cases hi : i = r.authority.incarnation
      · refine .inr ⟨b, (bindIssue b r).1.producer, (bindIssue b r).1.consumer,
          (bindIssue b r).1.grant, hi ▸ found, ?_⟩
        rw [hi]
        show (a.incarnations.insert _ _)[_]? = _
        rw [ExtTreeMap.getElem?_insert_self, ← bindIssue_eq]
      · exact .inl (Lib.getElem?_insert_of_ne _ _ hi)

/-- A refusal leaves the header alone. -/
theorem decision_refuse_header {e : CreditEngine J} {a a' : AccountState} {r : CreditRequest}
    {s : Status} (h : e.decision a r = .refuse s a') :
    a'.epoch = a.epoch ∧ a'.generation = a.generation ∧ a'.fences = a.fences := by
  have hheader := decision_header e a r
  rw [h] at hheader
  cases hheader with
  | kept _ epoch generation fences => exact ⟨epoch, generation, fences⟩

/-- The replay of an applied decision. -/
theorem Outline.applied {e : CreditEngine J} {a a' p p' : AccountState} {r : CreditRequest}
    (h : Shadow p a) (hadmitted : Admitted e r a) (hd : e.decision a r = .proceed a')
    (hp : Replayed p r p') :
    Outline p' a' := by
  obtain ⟨hepoch, hgeneration, hfences⟩ := h.header hp.header (decision_headerBehind hd)
  have hsame : ∀ i, a'.countersAt i = a.countersAt i := by
    intro i
    have hcounters := (decision_sameCounters e a r).records i
    rw [hd] at hcounters
    exact hcounters
  refine ⟨hepoch, hgeneration, hfences, fun i => ?_, fun i b hb hused => ?_, fun i hi => ?_⟩
  · rw [hp.countersAt i, hsame i]
    exact h.last i
  · have hstep := decision_record e a r i
    rw [hd, show (Decision.proceed a').account.incarnations[i]? = some b from hb] at hstep
    generalize ha : a.incarnations[i]? = o at hstep
    -- a record that was used before is known there, and a replay drops none
    have hold : ∀ b₀, o = some b₀ → b₀.Used → p'.incarnations[i]?.isSome = true := by
      rintro b₀ rfl hused₀
      exact (hp.records i).known (h.known i b₀ ha hused₀)
    cases hstep with
    | kept => exact hold b rfl hused
    | leaked target op => exact absurd hused (by simp [IncarnationRecord.Used])
    | forgotten b₀ op =>
      refine hold b₀ rfl ?_
      unfold IncarnationRecord.forgetLiveness at hused
      split_ifs at hused with hreconciled
      · exact .inl (by rw [hreconciled]; decide)
      · exact hused
    | bound b₀ => exact hold b₀ rfl hused
    | fenced _ target op =>
      obtain ⟨b', hb', -⟩ := hp.fenced op
      rw [target, hb']
      rfl
    | retired b₀ target op =>
      obtain ⟨b', hb'⟩ := hp.retired op
      rw [← target] at hb'
      exact (hp.records i).known (by rw [hb']; rfl)
    | reconciled _ caller op =>
      obtain ⟨b', hb'⟩ := hp.reconciled op
      rw [caller, hb']
      rfl
  · have hstep := decision_record e a r i
    rw [hd] at hstep
    rcases (hp.records i).listed hi with hold | ⟨op, rfl⟩ | ⟨op, rfl⟩
    · exact hstep.known (h.listed i hold)
    · obtain ⟨b, hb, -⟩ := decision_target hd (.inl op)
      rw [hb]
      rfl
    · obtain ⟨b, hb⟩ := decision_caller_known hadmitted (by simp [hd])
      rw [hd, show (Decision.proceed a').account = a' from rfl] at hb
      rw [hb]
      rfl

/-- The replay of a decided refusal. -/
theorem Outline.refused {e : CreditEngine J} {a a' p : AccountState} {r : CreditRequest}
    {s : Status} (h : Shadow p a) (hd : e.decision a r = .refuse s a') : Outline p a' := by
  obtain ⟨hepoch, hgeneration, hfences⟩ := decision_refuse_header hd
  have hsame : ∀ i, a'.countersAt i = a.countersAt i := by
    intro i
    have hcounters := (decision_sameCounters e a r).records i
    rw [hd] at hcounters
    exact hcounters
  refine ⟨h.epoch.trans hepoch.symm, h.generation.trans hgeneration.symm,
    h.fences.trans hfences.symm, fun i => ?_, fun i b hb hused => ?_, fun i hi => ?_⟩
  · rw [hsame i]
    exact h.last i
  · rcases decision_refuse hd i with hkept | ⟨b₀, _, _, _, hb₀, hbound⟩
    · exact h.known i b (hkept ▸ hb) hused
    · rw [hb, Option.some.injEq] at hbound
      rw [hbound] at hused
      exact h.known i b₀ hb₀ hused
  · have hstep := decision_record e a r i
    rw [hd] at hstep
    exact hstep.known (h.listed i hi)

end CreditEngine

/-! ### Counting and publishing -/

/-- Counting and publishing on both sides. -/
theorem Outline.published {p₁ a₁ q x : AccountState} {caller : IncarnationId} {seq : UInt64}
    (h : Outline p₁ a₁) (hq : SameStanding p₁ q) (hx : SameStanding a₁ x)
    (hknown : p₁.incarnations[caller]?.isSome = true)
    (hqlast : ∀ i, (q.countersAt i).last = if i = caller then seq else (p₁.countersAt i).last)
    (hxlast : ∀ i, (x.countersAt i).last = if i = caller then seq else (a₁.countersAt i).last) :
    Outline q x := by
  -- a publication drops no record
  have hkeep : ∀ i : IncarnationId, p₁.incarnations[i]?.isSome = true →
      q.incarnations[i]?.isSome = true := by
    intro i hi
    obtain ⟨b, hb⟩ := Option.isSome_iff_exists.mp hi
    obtain ⟨b', hb', -⟩ := hq.records i b hb
    rw [hb']
    rfl
  refine ⟨by rw [hq.epoch, hx.epoch, h.epoch], by rw [hq.generation, hx.generation, h.generation],
    by rw [hq.fences, hx.fences, h.fences], fun i => ?_, fun i b hb hused => ?_, fun i hi => ?_⟩
  · rw [hqlast, hxlast]
    by_cases hi : i = caller
    · rw [if_pos hi, if_pos hi]
    · rw [if_neg hi, if_neg hi]
      exact h.last i
  -- a record in use is known to the replay: it is the caller's, or was there before
  · by_cases hi : i = caller
    · rw [hi]
      exact hkeep caller hknown
    · obtain ⟨b₀, hb₀, hcounted⟩ := hx.back hb
      have hlast := hxlast i
      rw [if_neg hi, AccountState.countersAt_of_some hb, AccountState.countersAt_of_some hb₀]
        at hlast
      refine hkeep i (h.known i b₀ hb₀ ?_)
      rcases hused with hstate | hsequence
      · rw [hcounted] at hstate
        exact .inl hstate
      · exact .inr fun hzero => hsequence (hlast.trans hzero)
  · obtain ⟨b, hb⟩ := Option.isSome_iff_exists.mp hi
    obtain ⟨b₀, hb₀, -⟩ := hq.back hb
    have hlisted := h.listed i (by rw [hb₀]; rfl)
    obtain ⟨c, hc⟩ := Option.isSome_iff_exists.mp hlisted
    obtain ⟨c', hc', -⟩ := hx.records i c hc
    rw [hc']
    rfl

/-- The watermarks behind a published decision of a known caller. -/
theorem last_of_published {a x : AccountState} {caller : IncarnationId} {seq : UInt64}
    {f : IncarnationRecord → IncarnationRecord}
    (hrecords : ∀ i : IncarnationId, x.incarnations[i]? =
      if i = caller then (a.incarnations[caller]?).map f else a.incarnations[i]?)
    (hf : ∀ b, (f b).lastSequence = seq) (hknown : a.incarnations[caller]?.isSome = true)
    (i : IncarnationId) :
    (x.countersAt i).last = if i = caller then seq else (a.countersAt i).last := by
  by_cases hi : i = caller
  · obtain ⟨b, hb⟩ := Option.isSome_iff_exists.mp hknown
    have hget := hrecords i
    rw [if_pos hi, hb] at hget
    rw [if_pos hi, AccountState.countersAt_of_some hget]
    exact hf b
  · rw [if_neg hi]
    unfold AccountState.countersAt
    rw [hrecords, if_neg hi]

/-- The records behind counting and publishing. -/
theorem getElem?_counted (a : AccountState) (r : CreditRequest) (o : CreditOutcome)
    (committed refused : UInt64) (f : IncarnationRecord → IncarnationRecord) (i : IncarnationId) :
    ((({ a with committedAttempts := committed, refusedAttempts := refused }).updateIncarnation
      r.authority.incarnation f).publishWindow r o).incarnations[i]? =
      if i = r.authority.incarnation then
        (a.incarnations[r.authority.incarnation]?).map fun b =>
          { f b with lastSequence := r.sequence }
      else a.incarnations[i]? := by
  simp only [AccountState.getElem?_publishWindow, AccountState.getElem?_updateIncarnation,
    if_true, Option.map_map]
  by_cases hi : i = r.authority.incarnation
  · rw [if_pos hi, if_pos hi]
    rfl
  · rw [if_neg hi, if_neg hi, if_neg hi]

/-- Counting a known caller's decision on `a` and publishing it. -/
structure PublishedBehind (a : AccountState) (r : CreditRequest) (x : AccountState) : Prop where
  same : SameStanding a x
  last : ∀ i, (x.countersAt i).last =
    if i = r.authority.incarnation then r.sequence else (a.countersAt i).last
  window : ∃ o, x.window = a.window.insert (windowEntry r o)

/-- A decision that is counted and published is behind its place. -/
theorem counted_publishedBehind {a : AccountState} {r : CreditRequest} (o : CreditOutcome)
    (committed refused : UInt64) {f : IncarnationRecord → IncarnationRecord}
    (hf : ∀ b : IncarnationRecord, b.Counted { f b with lastSequence := r.sequence })
    (hknown : a.incarnations[r.authority.incarnation]?.isSome = true) :
    PublishedBehind a r ((({ a with
      committedAttempts := committed, refusedAttempts := refused }).updateIncarnation
        r.authority.incarnation f).publishWindow r o) := by
  have hrecords := getElem?_counted a r o committed refused f
  refine ⟨.of_caller hf ?_ hrecords, last_of_published hrecords (fun b => rfl) hknown, o, ?_⟩
  · rw [AccountState.publishWindow_eq, AccountState.updateIncarnation_eq]
  · rw [window_publishWindow, AccountState.updateIncarnation_eq]

/-- Publishing keeps the window behind the watermarks. -/
theorem PublishedBehind.windowed {p p₁ q : AccountState} {r : CreditRequest}
    (h : PublishedBehind p₁ r q) (hwindowed : Windowed p) (hwindow : p₁.window = p.window)
    (hcounters : ∀ i, p₁.countersAt i = p.countersAt i)
    (hseq : (p.countersAt r.authority.incarnation).last.toNat < r.sequence.toNat) :
    Windowed q := by
  obtain ⟨o, hinsert⟩ := h.window
  refine hwindowed.publish (r := r) (o := o) (by rw [hinsert, hwindow]) hseq ?_ fun i hi => ?_
  · rw [h.last, if_pos rfl]
  · rw [h.last, if_neg hi, hcounters]

/-- What the comparison of a replayed account with the journaled one has found. -/
theorem verifyReplay_inv {a : AccountState} {d : DurableAccount}
    (h : (verifyReplay a d).ok = true) : a.digest = d.stateDigest ∧ a.capacity = d.capacity ∧
      a.totals = d.totals ∧ a.hardExhausted = d.hardExhausted ∧
      a.exhaustionCause = d.exhaustionCause := by
  unfold verifyReplay at h
  split_ifs at h with h₁ h₂ h₃ h₄ h₅
  · exact absurd h (by decide)
  · exact absurd h (by decide)
  · exact absurd h (by decide)
  · exact absurd h (by decide)
  · exact absurd h (by decide)
  · exact ⟨not_not.mp h₁, not_not.mp h₂, not_not.mp h₃, not_not.mp h₄, not_not.mp h₅⟩

/-- A replay keeps the fence book, when nobody who is listed is fenced, retired or
    reconciled. -/
theorem Replayed.fenceBook {p p' : AccountState} {r : CreditRequest} (h : Replayed p r p')
    (hbook : FenceBook p) (hpermitted : Permitted p r)
    (hend : r.op = .fence ∨ r.op = .retireIncarnation → p.isFenced r.target = false) :
    FenceBook p' := by
  have hold : ∀ i : IncarnationId, p.isFenced i = true →
      ∃ b, p'.incarnations[i]? = some b ∧ b.state = .fenced := by
    intro i hi
    obtain ⟨b, hb, hstate⟩ := hbook.fenced i hi
    have hrecord := h.records i
    rw [hb] at hrecord
    refine hrecord.stays_fenced hstate (fun op heq => ?_) fun op heq => ?_
    · rw [heq, hpermitted op] at hi
      exact absurd hi (by decide)
    · rw [heq, hend (.inr op)] at hi
      exact absurd hi (by decide)
  have hfences := h.header.fences
  unfold fencesBehind at hfences
  by_cases hop : r.op = .fence
  · rw [if_pos hop] at hfences
    exact hbook.append hold hfences (hend (.inl hop)) (h.fenced hop)
  · rw [if_neg hop] at hfences
    exact hbook.kept hold hfences

namespace CreditEngine

variable {J : Type} [Journal J]

omit [Journal J] in
/-- Whoever is fenced or retired was not listed. -/
theorem decision_unlisted {e : CreditEngine J} {a a' : AccountState} {r : CreditRequest}
    (hbook : FenceBook a) (h : e.decision a r = .proceed a')
    (hop : r.op = .fence ∨ r.op = .retireIncarnation) : a.isFenced r.target = false := by
  have hcontrol : classify r.op = .control := by
    rcases hop with hop | hop <;> rw [hop] <;> rfl
  rcases e.decision_cases a r with ⟨hcase, -⟩ | ⟨-, hrec⟩ | ⟨-, hdata, -⟩
  · rw [h] at hcase
    cases hcase with
    | fenced op target unfenced => exact unfenced
    | retiredIncarnation op target b found state =>
      cases hlisted : a.isFenced r.target with
      | false => rfl
      | true =>
        obtain ⟨b', hb', hstate⟩ := hbook.fenced _ hlisted
        rw [found, Option.some.injEq] at hb'
        rw [hb'] at state
        exact absurd hstate state
    | exhausted op => rw [op] at hop; simp at hop
    | cleared op => rw [op] at hop; simp at hop
    | resized op => rw [op] at hop; simp at hop
    | advanced op => rcases op with op | op <;> rw [op] at hop <;> simp at hop
    | retired op => rw [op] at hop; simp at hop
    | revalidated op => rw [op] at hop; simp at hop
  · rw [hrec] at hop
    simp at hop
  · exact absurd hcontrol hdata

omit [Journal J] in
/-- The caller of an admitted request has a record in every shadow, unless it reconciles. -/
theorem Admitted.caller_known {e : CreditEngine J} {r : CreditRequest} {a p : AccountState}
    (h : Admitted e r a) (hp : Outline p a) (hop : r.op ≠ .reconcile) :
    p.incarnations[r.authority.incarnation]?.isSome = true := by
  obtain ⟨b, hb, hlive⟩ :=
    live_of_bindIncarnation (bound_of_bindAuthority h.bound).incarnation hop
  refine hp.known _ b hb (.inl ?_)
  simp only [IncarnationRecord.isLive, Bool.and_eq_true, beq_iff_eq] at hlive
  rw [hlive.1.1]
  decide

/-- A replayed account and its invariants, next to the live account it shadows. -/
structure Mirrored (key : UInt64) (q x : AccountState) : Prop where
  shadow : Shadow q x
  standing : Standing key q
  windowed : Windowed q

/-- Counting and publishing on both sides, with the ledger compared. -/
theorem Mirrored.publish {key : UInt64} {p p₁ a₁ q x : AccountState} {r : CreditRequest}
    (houtline : Outline p₁ a₁) (hledger : p₁.capacity = a₁.capacity ∧ p₁.totals = a₁.totals)
    (hstanding : Standing key p₁) (hwindowed : Windowed p) (hwindow : p₁.window = p.window)
    (hcounters : ∀ i, p₁.countersAt i = p.countersAt i)
    (hknown : p₁.incarnations[r.authority.incarnation]?.isSome = true)
    (hseq : (p.countersAt r.authority.incarnation).last.toNat < r.sequence.toNat)
    (hq : PublishedBehind p₁ r q) (hx : PublishedBehind a₁ r x) : Mirrored key q x where
  shadow := {
    toOutline := houtline.published hq.same hx.same hknown hq.last hx.last
    capacity := by rw [hq.same.capacity, hx.same.capacity, hledger.1]
    totals := by rw [hq.same.totals, hx.same.totals, hledger.2] }
  standing := hstanding.congr hq.same
  windowed := hq.windowed hwindowed hwindow hcounters hseq

omit [Journal J] in
/-- The place of an admitted request is ahead of every shadow's watermark. -/
theorem Admitted.ahead {e : CreditEngine J} {r : CreditRequest} {a p : AccountState}
    (h : Admitted e r a) (hp : Outline p a) :
    (p.countersAt r.authority.incarnation).last.toNat < r.sequence.toNat := by
  have hlast := hp.last r.authority.incarnation
  have hseq := sequence_of_admitted h.placed
  omega

/-- **Applied.**  The replay of an applied decision on a shadow ends in a shadow. -/
theorem Mirrored.applied {e : CreditEngine J} {a a' p y : AccountState} {r : CreditRequest}
    {key : UInt64} (h : Mirrored key p a) (hbook : FenceBook a) (hadmitted : Admitted e r a)
    (hd : e.decision a r = .proceed a') {d : DurableAttempt} (hrequest : d.request = r)
    (happlied : d.outcome.applied = true)
    (haccount : d.account = (countCommitted a' r.authority.incarnation).buildDurable false)
    {s : Status} (hreplay : replayDecision p d = (s, y)) (hs : s.ok = true)
    (hverify : (verifyReplay y d.account).ok = true) (o : CreditOutcome) :
    Mirrored key (y.publishWindow r o) (appliedAccount a r a') := by
  obtain ⟨p₁, hreplayed, heq⟩ := replayDecision_applied hreplay hs happlied
  rw [hrequest] at hreplayed heq
  -- the caller has a record to count the operation in
  have hknown : p₁.incarnations[r.authority.incarnation]?.isSome = true := by
    by_cases hop : r.op = .reconcile
    · obtain ⟨b, hb⟩ := hreplayed.reconciled hop
      rw [hb]
      rfl
    · exact (hreplayed.records _).known (hadmitted.caller_known h.shadow.toOutline hop)
  have hframe : y = { p₁ with
      committedAttempts := y.committedAttempts, incarnations := y.incarnations } := by
    rw [heq, countCommitted, AccountState.updateIncarnation_eq]
  -- what the code verified are capacity and totals
  have hledger : p₁.capacity = a'.capacity ∧ p₁.totals = a'.totals := by
    obtain ⟨-, hcapacity, htotals, -, -⟩ := verifyReplay_inv hverify
    have hlive : d.account.capacity = a'.capacity ∧ d.account.totals = a'.totals := by
      rw [haccount, countCommitted, AccountState.updateIncarnation_eq]
      exact ⟨rfl, rfl⟩
    rw [← hlive.1, ← hlive.2, ← hcapacity, ← htotals, hframe]
    exact ⟨rfl, rfl⟩
  -- the replayed account stands as the live one does
  have hstanding : Standing key p₁ := by
    have hsound := replayDecision_sound d h.standing.sound
    rw [hreplay] at hsound
    have hconfig : p₁.config = p.config := by rw [hreplayed.frame]
    refine ⟨hsound.congr ?_ ?_ ?_, by rw [hconfig, h.standing.account], fun i => ?_, ?_⟩
    · rw [hframe]
    · rw [hframe]
    · rw [hframe]
    · exact (hreplayed.records i).keyed (h.standing.keyed i)
    · refine hreplayed.fenceBook h.standing.book (fun op => ?_) fun op => ?_
      · rw [h.shadow.isFenced]
        exact hadmitted.permitted op
      · rw [h.shadow.isFenced]
        exact decision_unlisted hbook hd op
  refine Mirrored.publish (Outline.applied h.shadow hadmitted hd hreplayed) hledger hstanding h.windowed
    (by rw [hreplayed.frame]) hreplayed.countersAt hknown (hadmitted.ahead h.shadow.toOutline)
    ?_ ?_
  · rw [heq]
    exact counted_publishedBehind o _ _ (fun b => rfl) hknown
  · obtain ⟨b, hb⟩ := decision_caller_known hadmitted (by simp [hd])
    rw [hd, show (Decision.proceed a').account = a' from rfl] at hb
    exact counted_publishedBehind _ _ _ (fun b => rfl) (by rw [hb]; rfl)

omit [Journal J] in
/-- **Refused.**  The replay of a decided refusal on a shadow ends in a shadow. -/
theorem Mirrored.refused {e : CreditEngine J} {a a' p y : AccountState} {r : CreditRequest}
    {key : UInt64} (h : Mirrored key p a) (hadmitted : Admitted e r a) {s' : Status}
    (hd : e.decision a r = .refuse s' a') {d : DurableAttempt} (hrequest : d.request = r)
    (hunapplied : d.outcome.applied = false) (hdecided : d.outcome.decided = true)
    (haccount : d.account = (countRefused a' r.authority.incarnation).buildDurable false)
    {s : Status} (hreplay : replayDecision p d = (s, y))
    (hverify : (verifyReplay y d.account).ok = true) (o o' : CreditOutcome) :
    Mirrored key (y.publishWindow r o) (refusedAccount e.limits a' r o') := by
  have heq := replayDecision_refused hreplay hunapplied hdecided
  rw [hrequest] at heq
  -- a Reconcile is never refused
  have hop : r.op ≠ .reconcile := by
    intro hop
    rcases e.decision_cases a r with ⟨-, hcontrol⟩ | ⟨hcase, -⟩ | ⟨-, -, hnot⟩
    · rw [hop] at hcontrol
      exact absurd hcontrol (by decide)
    · rw [hd] at hcase
      cases hcase
    · exact hnot hop
  have hknown := hadmitted.caller_known h.shadow.toOutline hop
  have hledger : p.capacity = a'.capacity ∧ p.totals = a'.totals := by
    obtain ⟨-, hcapacity, htotals, -, -⟩ := verifyReplay_inv hverify
    have hlive : d.account.capacity = a'.capacity ∧ d.account.totals = a'.totals := by
      rw [haccount, countRefused, AccountState.updateIncarnation_eq]
      exact ⟨rfl, rfl⟩
    rw [← hlive.1, ← hlive.2, ← hcapacity, ← htotals, heq, countRefused,
      AccountState.updateIncarnation_eq]
    exact ⟨rfl, rfl⟩
  refine Mirrored.publish (Outline.refused h.shadow hd) hledger h.standing h.windowed rfl
    (fun i => rfl) hknown (hadmitted.ahead h.shadow.toOutline) ?_ ?_
  · rw [heq]
    exact counted_publishedBehind o _ _ (fun b => rfl) hknown
  · obtain ⟨b, hb⟩ := decision_caller_known hadmitted (by simp [hd])
    rw [hd, show (Decision.refuse s' a').account = a' from rfl] at hb
    refine ⟨refusedAccount_sameStanding _ _ _ _, ?_, o', window_refusedAccount _ _ _ _⟩
    exact last_of_published (getElem?_refusedAccount e.limits a' r o') (fun b => rfl)
      (by rw [hb]; rfl)

omit [Journal J] in
/-- **Opened.**  The replay of an Open creates the account it created, with the window of the
    recovering engine. -/
theorem Mirrored.opened {e : CreditEngine J} {r : CreditRequest} (h : Opens e r)
    (limits : EngineLimits) {d : DurableAttempt} (hrequest : d.request = r)
    (haccount : d.account = (openedAccount e.limits r).buildDurable false) (o : CreditOutcome) :
    Mirrored r.authority.account ((replayedOpen limits d).publishWindow r o)
      (e.publishedOpen r) := by
  have heq : replayedOpen limits d = openedAccount limits r := by
    unfold replayedOpen openedAccount
    rw [haccount, hrequest]
    rfl
  have hsame : ((openedAccount limits r).publishWindow r o).essentials =
      (e.publishedOpen r).essentials := by
    unfold publishedOpen
    rw [publishWindow_essentials, publishWindow_essentials]
    rfl
  rw [heq]
  exact ⟨.of_essentials hsame, (publishedOpen_standing h).of_essentials hsame,
    openedAccount_windowed limits o h.sequence⟩

end CreditEngine

end CreditFabric
