import CreditFabric.Simulation
import CreditFabric.Windowed

namespace CreditFabric

open Std (ExtTreeMap)

/-!
# What one replayed decision does to the standing of incarnations

The live engine and recovery decide an applied attempt in two implementations.  Both move the
era to `eraBehind` and the fence list to `fencesBehind`; `ReplayRecord` says what a replay can
make of one incarnation record, as `RecordStep` does for the live engine.
-/

/-- The era behind an applied attempt. -/
def eraBehind (a : AccountState) (r : CreditRequest) : EpochId × Generation :=
  if r.op = .advanceEpoch ∨ r.op = .rotate then (nextEpoch a r, a.generation + 1)
  else (a.epoch, a.generation)

/-- The fence list behind an applied attempt. -/
def fencesBehind (a : AccountState) (r : CreditRequest) : List FenceRecord :=
  if r.op = .fence then a.fences ++ [fenceOf a r] else a.fences

/-- Era and fences of `a'` are those behind the attempt on `a`. -/
structure HeaderBehind (a : AccountState) (r : CreditRequest) (a' : AccountState) : Prop where
  epoch : a'.epoch = (eraBehind a r).1
  generation : a'.generation = (eraBehind a r).2
  fences : a'.fences = fencesBehind a r

/-- An attempt that neither advances nor fences leaves the header alone. -/
theorem HeaderBehind.of_kept {a a' : AccountState} {r : CreditRequest}
    (hadvance : ¬ (r.op = .advanceEpoch ∨ r.op = .rotate)) (hfence : r.op ≠ .fence)
    (epoch : a'.epoch = a.epoch) (generation : a'.generation = a.generation)
    (fences : a'.fences = a.fences) : HeaderBehind a r a' := by
  refine ⟨?_, ?_, ?_⟩
  · rw [eraBehind, if_neg hadvance, epoch]
  · rw [eraBehind, if_neg hadvance, generation]
  · rw [fencesBehind, if_neg hfence, fences]

/-- The live engine. -/
theorem CreditEngine.decision_headerBehind {J : Type} {e : CreditEngine J} {a a' : AccountState}
    {r : CreditRequest} (h : e.decision a r = .proceed a') : HeaderBehind a r a' := by
  rcases e.decision_cases a r with ⟨hcase, -⟩ | ⟨hcase, hop⟩ | ⟨hcase, hdata, -⟩ <;>
    rw [h] at hcase
  · cases hcase with
    | exhausted op => exact .of_kept (by simp [op]) (by simp [op]) rfl rfl rfl
    | cleared op => exact .of_kept (by simp [op]) (by simp [op]) rfl rfl rfl
    | resized op => exact .of_kept (by simp [op]) (by simp [op]) rfl rfl rfl
    | advanced op plan hplan =>
      have hfence : r.op ≠ .fence := by rcases op with op | op <;> rw [op] <;> decide
      refine ⟨?_, ?_, ?_⟩
      · rw [eraBehind, if_pos op]
        rfl
      · rw [eraBehind, if_pos op]
        rfl
      · rw [fencesBehind, if_neg hfence]
        rfl
    | retired op => exact .of_kept (by simp [op]) (by simp [op]) rfl rfl rfl
    | revalidated op => exact .of_kept (by simp [op]) (by simp [op]) rfl rfl rfl
    | fenced op =>
      have hadvance : ¬ (r.op = .advanceEpoch ∨ r.op = .rotate) := by simp [op]
      refine ⟨?_, ?_, ?_⟩
      · rw [eraBehind, if_neg hadvance]
        rfl
      · rw [eraBehind, if_neg hadvance]
        rfl
      · rw [fencesBehind, if_pos op]
    | retiredIncarnation op => exact .of_kept (by simp [op]) (by simp [op]) rfl rfl rfl
  · cases hcase with
    | reconciled proof => exact .of_kept (by simp [hop]) (by simp [hop]) rfl rfl rfl
  · have hadvance : ¬ (r.op = .advanceEpoch ∨ r.op = .rotate) := by
      rintro (op | op) <;> rw [op] at hdata <;> exact hdata rfl
    have hfence : r.op ≠ .fence := by
      intro op
      rw [op] at hdata
      exact hdata rfl
    cases hcase with
    | issued => exact .of_kept hadvance hfence rfl rfl rfl
    | applied => exact .of_kept hadvance hfence rfl rfl rfl

/-! ### The two halves of a replay -/

/-- A guarded step that succeeded took its second branch. -/
theorem eq_of_guarded {ok : Bool} {mismatch s : Status} {p p' new : AccountState}
    (h : (if !ok then (mismatch, p) else (.success, new)) = (s, p'))
    (hmismatch : mismatch.ok = false) (hs : s.ok = true) : p' = new := by
  cases ok with
  | false =>
    rw [← show mismatch = s from congrArg Prod.fst h, hmismatch] at hs
    exact absurd hs (by decide)
  | true => exact (congrArg Prod.snd h).symm

/-- What the transition of a replay writes: the ledger, the era, and with an advance the
    liveness of every record. -/
structure Transitioned (p : AccountState) (r : CreditRequest) (p' : AccountState) : Prop where
  frame : p' = { p with
    totals := p'.totals, capacity := p'.capacity, hardExhausted := p'.hardExhausted,
    exhaustionCause := p'.exhaustionCause, epoch := p'.epoch, generation := p'.generation,
    incarnations := p'.incarnations }
  epoch : p'.epoch = (eraBehind p r).1
  generation : p'.generation = (eraBehind p r).2
  incarnations : p'.incarnations = if r.op = .advanceEpoch ∨ r.op = .rotate then
    p.incarnations.map fun _ b => b.forgetLiveness else p.incarnations
  unmoved : r.op = .fence → p' = p

/-- Without an advance only the ledger is written. -/
theorem Transitioned.of_ledger {p p' : AccountState} {r : CreditRequest}
    (hadvance : ¬ (r.op = .advanceEpoch ∨ r.op = .rotate))
    (h : p' = { p with
      totals := p'.totals, capacity := p'.capacity, hardExhausted := p'.hardExhausted,
      exhaustionCause := p'.exhaustionCause }) (hfence : r.op = .fence → p' = p) :
    Transitioned p r p' := by
  refine ⟨?_, ?_, ?_, ?_, hfence⟩
  · rw [h]
  · rw [eraBehind, if_neg hadvance, h]
  · rw [eraBehind, if_neg hadvance, h]
  · rw [if_neg hadvance, h]

/-- A transition whose replay succeeds is one of the transitions. -/
theorem applyReplayTransition_transitioned {p p' : AccountState} {r : CreditRequest} {s : Status}
    (h : applyReplayTransition p r = (s, p')) (hs : s.ok = true) : Transitioned p r p' := by
  -- the two advances share what they do to era and liveness
  have hquarantine : r.op = .advanceEpoch ∨ r.op = .rotate →
      ∀ (totals : CreditTotals) (next : EpochId), next = nextEpoch p r →
      p' = { p with totals, epoch := next, generation := p.generation + 1 }.forgetLiveness →
      Transitioned p r p' := by
    rintro hadvance totals next rfl heq
    refine ⟨?_, ?_, ?_, ?_, fun hfence => absurd hadvance (by simp [hfence])⟩
    · rw [heq]
      rfl
    · rw [eraBehind, if_pos hadvance, heq]
      rfl
    · rw [eraBehind, if_pos hadvance, heq]
      rfl
    · rw [if_pos hadvance, heq]
      rfl
  unfold applyReplayTransition at h
  cases hop : r.op with
  | issue | consume | return_ | protect | unprotect =>
    simp only [hop] at h
    have heq := eq_of_guarded h rfl hs
    refine .of_ledger (by simp [hop]) ?_ (by simp [hop])
    rw [heq]
  | exhaust | clearExhaustion =>
    simp only [hop] at h
    refine .of_ledger (by simp [hop]) ?_ (by simp [hop])
    rw [← show _ = p' from congrArg Prod.snd h]
  | setCapacity =>
    simp only [hop] at h
    have heq := eq_of_guarded h rfl hs
    refine .of_ledger (by simp [hop]) ?_ (by simp [hop])
    rw [heq]
  | advanceEpoch =>
    simp only [hop, reduceCtorEq, if_false] at h
    have heq := eq_of_guarded h rfl hs
    exact hquarantine (.inl hop) _ _ (by rw [nextEpoch, hop, if_neg (by decide)]) heq
  | rotate =>
    simp only [hop, if_true] at h
    have heq := eq_of_guarded h rfl hs
    exact hquarantine (.inr hop) _ _ (by rw [nextEpoch, hop, if_pos rfl]) heq
  | retire | revalidate =>
    simp only [hop] at h
    have heq := eq_of_guarded h rfl hs
    refine .of_ledger (by simp [hop]) ?_ (by simp [hop])
    rw [heq]
  | open_ | reconcile | fence | retireIncarnation | describe =>
    simp only [hop] at h
    have heq : p = p' := congrArg Prod.snd h
    refine .of_ledger (by simp [hop]) ?_ fun _ => heq.symm
    rw [← heq]

/-- What a replay can make of the record of the incarnation `i`. -/
inductive ReplayRecord (p : AccountState) (r : CreditRequest) (i : IncarnationId) :
    Option IncarnationRecord → Option IncarnationRecord → Prop
  | kept (o : Option IncarnationRecord) : ReplayRecord p r i o o
  | forgotten (b : IncarnationRecord) (op : r.op = .advanceEpoch ∨ r.op = .rotate) :
      ReplayRecord p r i (some b) (some b.forgetLiveness)
  | bound (b : IncarnationRecord) (caller : i = r.authority.incarnation) (op : r.op = .issue)
      (producer : ProducerId) (consumer : ConsumerId) (grant : GrantId) :
      ReplayRecord p r i (some b) (some { b with producer, consumer, grant })
  | fenced (o : Option IncarnationRecord) (target : i = r.target) (op : r.op = .fence) :
      ReplayRecord p r i o
        (some { o.getD { id := i } with state := .fenced, fencedAtSequence := r.sequence })
  | retired (b : IncarnationRecord) (target : i = r.target) (op : r.op = .retireIncarnation) :
      ReplayRecord p r i (some b) (some { b with state := .retired })
  | reconciled (o : Option IncarnationRecord) (caller : i = r.authority.incarnation)
      (op : r.op = .reconcile) : ReplayRecord p r i o (some
        (markReconciled (o.getD (freshRecord r)) p.epoch p.generation r.proof))

/-- Writing one record is a step of that record and keeps every other one. -/
theorem ReplayRecord.setIncarnation {p : AccountState} {r : CreditRequest} {id : IncarnationId}
    {b : IncarnationRecord} (h : ReplayRecord p r id (p.incarnations[id]?) (some b))
    (i : IncarnationId) : ReplayRecord p r i (p.incarnations[i]?)
      ((p.setIncarnation id b).incarnations[i]?) := by
  by_cases hi : i = id
  · subst hi
    have hget : (p.setIncarnation i b).incarnations[i]? = some b :=
      ExtTreeMap.getElem?_insert_self
    rw [hget]
    exact h
  · have hget : (p.setIncarnation id b).incarnations[i]? = p.incarnations[i]? :=
      Lib.getElem?_insert_of_ne _ _ hi
    rw [hget]
    exact .kept _

/-- What the second half of a replay writes: records and fences. -/
structure Recorded (p : AccountState) (r : CreditRequest) (p' : AccountState) : Prop where
  frame : p' = { p with incarnations := p'.incarnations, fences := p'.fences }
  fences : p'.fences = fencesBehind p r
  records : ∀ i : IncarnationId,
    ReplayRecord p r i (p.incarnations[i]?) (p'.incarnations[i]?)
  fenced : r.op = .fence → ∃ b, p'.incarnations[r.target]? = some b ∧ b.state = .fenced
  retired : r.op = .retireIncarnation → ∃ b, p.incarnations[r.target]? = some b
  reconciled : r.op = .reconcile → ∃ b, p'.incarnations[r.authority.incarnation]? = some b
  unmoved : r.op = .advanceEpoch ∨ r.op = .rotate → p' = p

/-- The operations that write no record. -/
theorem Recorded.of_same {p : AccountState} {r : CreditRequest} (hfence : r.op ≠ .fence)
    (hretire : r.op ≠ .retireIncarnation) (hreconcile : r.op ≠ .reconcile) : Recorded p r p where
  frame := rfl
  fences := (if_neg hfence).symm
  records _ := .kept _
  fenced hop := absurd hop hfence
  retired hop := absurd hop hretire
  reconciled hop := absurd hop hreconcile
  unmoved _ := rfl

/-- Records whose replay succeeds are recorded. -/
theorem replayRecords_recorded {p p' : AccountState} {r : CreditRequest} {s : Status}
    (h : replayRecords p r = (s, p')) (hs : s.ok = true) : Recorded p r p' := by
  unfold replayRecords at h
  cases hop : r.op with
  | reconcile =>
    simp only [hop] at h
    obtain rfl := congrArg Prod.snd h
    exact {
      frame := rfl
      fences := (if_neg (by simp [hop])).symm
      records := fun i => ReplayRecord.setIncarnation (.reconciled _ rfl hop) i
      fenced := by simp [hop]
      retired := by simp [hop]
      reconciled := fun _ => ⟨_, ExtTreeMap.getElem?_insert_self⟩
      unmoved := by simp [hop] }
  | fence =>
    simp only [hop] at h
    obtain rfl := congrArg Prod.snd h
    exact {
      frame := rfl
      fences := (if_pos hop).symm
      records := fun i => ReplayRecord.setIncarnation (.fenced _ rfl hop) i
      fenced := fun _ => ⟨_, ExtTreeMap.getElem?_insert_self, rfl⟩
      retired := by simp [hop]
      reconciled := by simp [hop]
      unmoved := by simp [hop] }
  | retireIncarnation =>
    simp only [hop, AccountState.findIncarnation] at h
    cases hfind : p.incarnations[r.target]? with
    | none =>
      rw [hfind] at h
      have hstatus : Status.refused .journalCorrupt 134 = s := congrArg Prod.fst h
      rw [← hstatus] at hs
      exact absurd hs (by decide)
    | some b =>
      rw [hfind] at h
      obtain rfl := congrArg Prod.snd h
      exact {
        frame := rfl
        fences := (if_neg (by simp [hop])).symm
        records := fun i => ReplayRecord.setIncarnation (by rw [hfind]; exact .retired b rfl hop) i
        fenced := by simp [hop]
        retired := fun _ => ⟨b, hfind⟩
        reconciled := by simp [hop]
        unmoved := by simp [hop] }
  | issue =>
    simp only [hop, AccountState.findIncarnation] at h
    cases hfind : p.incarnations[r.authority.incarnation]? with
    | none =>
      rw [hfind] at h
      have hstatus : Status.refused .journalCorrupt 141 = s := congrArg Prod.fst h
      rw [← hstatus] at hs
      exact absurd hs (by decide)
    | some b =>
      rw [hfind] at h
      obtain rfl := congrArg Prod.snd h
      exact {
        frame := rfl
        fences := (if_neg (by simp [hop])).symm
        records := fun i =>
          ReplayRecord.setIncarnation (by rw [hfind]; exact .bound b rfl hop _ _ _) i
        fenced := by simp [hop]
        retired := by simp [hop]
        reconciled := by simp [hop]
        unmoved := by simp [hop] }
  | _ =>
    simp only [hop] at h
    obtain rfl := congrArg Prod.snd h
    exact .of_same (by simp [hop]) (by simp [hop]) (by simp [hop])

/-! ### One replayed application -/

/-- Everything a replayed application writes, compared with the account in front of it. -/
structure Replayed (p : AccountState) (r : CreditRequest) (p' : AccountState) : Prop where
  frame : p' = { p with
    totals := p'.totals, capacity := p'.capacity, hardExhausted := p'.hardExhausted,
    exhaustionCause := p'.exhaustionCause, epoch := p'.epoch, generation := p'.generation,
    incarnations := p'.incarnations, fences := p'.fences }
  header : HeaderBehind p r p'
  records : ∀ i : IncarnationId,
    ReplayRecord p r i (p.incarnations[i]?) (p'.incarnations[i]?)
  fenced : r.op = .fence → ∃ b, p'.incarnations[r.target]? = some b ∧ b.state = .fenced
  retired : r.op = .retireIncarnation → ∃ b, p.incarnations[r.target]? = some b
  reconciled : r.op = .reconcile → ∃ b, p'.incarnations[r.authority.incarnation]? = some b

/-- The two halves, one after the other. -/
theorem Transitioned.andThen {p p₁ p' : AccountState} {r : CreditRequest}
    (h : Transitioned p r p₁) (h' : Recorded p₁ r p') : Replayed p r p' := by
  have hframe : p' = { p with
      totals := p'.totals, capacity := p'.capacity, hardExhausted := p'.hardExhausted,
      exhaustionCause := p'.exhaustionCause, epoch := p'.epoch, generation := p'.generation,
      incarnations := p'.incarnations, fences := p'.fences } := by
    rw [h'.frame, h.frame]
  have hfences : p₁.fences = p.fences := by rw [h.frame]
  have hera : p'.epoch = p₁.epoch ∧ p'.generation = p₁.generation := by
    rw [h'.frame]
    exact ⟨rfl, rfl⟩
  have hheader : HeaderBehind p r p' := by
    refine ⟨hera.1.trans h.epoch, hera.2.trans h.generation, ?_⟩
    rw [h'.fences]
    by_cases hop : r.op = .fence
    · rw [h.unmoved hop]
    · rw [fencesBehind, fencesBehind, if_neg hop, if_neg hop, hfences]
  by_cases hadvance : r.op = .advanceEpoch ∨ r.op = .rotate
  · -- behind an advance no record is written
    obtain rfl := h'.unmoved hadvance
    refine ⟨hframe, hheader, fun i => ?_, fun op => ?_, fun op => ?_, fun op => ?_⟩
    · rw [h.incarnations, if_pos hadvance, ExtTreeMap.getElem?_map]
      cases p.incarnations[i]? with
      | none => exact .kept none
      | some b => exact .forgotten b hadvance
    · exact absurd hadvance (by simp [op])
    · exact absurd hadvance (by simp [op])
    · exact absurd hadvance (by simp [op])
  -- no advance: era and records are those in front of the transition, but for the one written
  · have hsame : p₁.incarnations = p.incarnations := by rw [h.incarnations, if_neg hadvance]
    have hera₁ : p₁.epoch = p.epoch ∧ p₁.generation = p.generation := by
      rw [h.epoch, h.generation, eraBehind, if_neg hadvance]
      exact ⟨rfl, rfl⟩
    refine ⟨hframe, hheader, fun i => ?_, h'.fenced, fun op => ?_, h'.reconciled⟩
    · have hrecord := h'.records i
      rw [hsame] at hrecord
      generalize p.incarnations[i]? = o at hrecord ⊢
      generalize p'.incarnations[i]? = o' at hrecord ⊢
      cases hrecord with
      | kept => exact .kept _
      | forgotten b op => exact absurd op hadvance
      | bound b caller op => exact .bound b caller op _ _ _
      | fenced _ target op => exact .fenced _ target op
      | retired b target op => exact .retired b target op
      | reconciled _ caller op =>
        rw [hera₁.1, hera₁.2]
        exact .reconciled _ caller op
    · obtain ⟨b, hb⟩ := h'.retired op
      exact ⟨b, by rw [← hsame]; exact hb⟩

/-- **One replayed application.** -/
private theorem replayApplication_replayed {p p' : AccountState} {r : CreditRequest} {s : Status}
    (h : replayApplication p r = (s, p')) (hs : s.ok = true) : Replayed p r p' := by
  unfold replayApplication at h
  cases ht : applyReplayTransition p r with
  | mk s₁ p₁ =>
    rw [ht] at h
    simp only at h
    cases hs₁ : s₁.ok with
    | false =>
      rw [hs₁] at h
      rw [← show s₁ = s from congrArg Prod.fst h, hs₁] at hs
      exact absurd hs (by decide)
    | true =>
      rw [hs₁] at h
      have htransition := applyReplayTransition_transitioned ht hs₁
      have hrecorded := replayRecords_recorded (show replayRecords p₁ r = (s, p') from h) hs
      exact htransition.andThen hrecorded

/-- An applied decision is replayed as an application and counted. -/
theorem replayDecision_applied {p x : AccountState} {d : DurableAttempt} {s : Status}
    (h : replayDecision p d = (s, x)) (hs : s.ok = true) (happlied : d.outcome.applied = true) :
    ∃ p', Replayed p d.request p' ∧ x = countCommitted p' d.request.authority.incarnation := by
  have heq : replayDecision p d =
      if !(replayApplication p d.request).1.ok then replayApplication p d.request
      else (.success, countCommitted (replayApplication p d.request).2
        d.request.authority.incarnation) := by
    unfold replayDecision replayApplication
    simp only [happlied, if_true]
    split_ifs <;> rfl
  rw [heq] at h
  cases happ : replayApplication p d.request with
  | mk s₁ p' =>
    rw [happ] at h
    cases hs₁ : s₁.ok with
    | false =>
      rw [hs₁] at h
      rw [← show s₁ = s from congrArg Prod.fst h, hs₁] at hs
      exact absurd hs (by decide)
    | true =>
      rw [hs₁] at h
      exact ⟨p', replayApplication_replayed happ hs₁, (congrArg Prod.snd h).symm⟩

/-- A decided refusal is counted. -/
theorem replayDecision_refused {p x : AccountState} {d : DurableAttempt} {s : Status}
    (h : replayDecision p d = (s, x)) (hunapplied : d.outcome.applied = false)
    (hdecided : d.outcome.decided = true) :
    x = countRefused p d.request.authority.incarnation := by
  unfold replayDecision at h
  simp only [hunapplied, hdecided, Bool.false_eq_true, if_false, if_true] at h
  exact (congrArg Prod.snd h).symm

/-! ### What a replay keeps -/

section Keeps

variable {p p' : AccountState} {r : CreditRequest} {i : IncarnationId}
  {o o' : Option IncarnationRecord}

/-- A replay moves no counter. -/
theorem ReplayRecord.counters (h : ReplayRecord p r i o o') :
    (o'.map IncarnationRecord.counters).getD {} = (o.map IncarnationRecord.counters).getD {} := by
  have hgetD : ∀ b₀ : IncarnationRecord, b₀.counters = {} →
      (o.getD b₀).counters = (o.map IncarnationRecord.counters).getD {} := by
    intro b₀ hb₀
    cases o with
    | none => exact hb₀
    | some b => rfl
  cases h with
  | kept => rfl
  | forgotten b op => exact counters_forgetLiveness b
  | bound b => rfl
  | fenced => exact hgetD _ rfl
  | retired b => rfl
  | reconciled => exact hgetD _ rfl

/-- A replay drops no record. -/
theorem ReplayRecord.known (h : ReplayRecord p r i o o') (ho : o.isSome = true) :
    o'.isSome = true := by
  cases h with
  | kept => exact ho
  | _ => rfl

/-- A record is new behind the replay of a Fence or a Reconcile only. -/
theorem ReplayRecord.listed (h : ReplayRecord p r i o o') (ho : o'.isSome = true) :
    o.isSome = true ∨ (r.op = .fence ∧ i = r.target) ∨
      (r.op = .reconcile ∧ i = r.authority.incarnation) := by
  cases h with
  | kept => exact .inl ho
  | fenced _ target op => exact .inr (.inl ⟨op, target⟩)
  | reconciled _ caller op => exact .inr (.inr ⟨op, caller⟩)
  | _ => exact .inl rfl

/-- The record stays under its own key. -/
theorem ReplayRecord.keyed (h : ReplayRecord p r i o o') (hkeyed : ∀ b ∈ o, b.id = i) :
    ∀ b' ∈ o', b'.id = i := by
  have hgetD : ∀ b₀ : IncarnationRecord, b₀.id = i → (o.getD b₀).id = i := by
    intro b₀ hb₀
    cases o with
    | none => exact hb₀
    | some b => exact hkeyed b rfl
  intro b' hb'
  cases h with
  | kept => exact hkeyed b' hb'
  | forgotten b op =>
    rw [← Option.some.inj hb']
    unfold IncarnationRecord.forgetLiveness
    split_ifs <;> exact hkeyed b rfl
  | bound b =>
    rw [← Option.some.inj hb']
    exact hkeyed b rfl
  | fenced =>
    rw [← Option.some.inj hb']
    exact hgetD _ rfl
  | retired b =>
    rw [← Option.some.inj hb']
    exact hkeyed b rfl
  | reconciled _ caller =>
    rw [← Option.some.inj hb']
    exact hgetD _ caller.symm

/-- A fenced record stays fenced, unless the attempt reconciles or retires it. -/
theorem ReplayRecord.stays_fenced {b : IncarnationRecord}
    (h : ReplayRecord p r i (some b) o') (hstate : b.state = .fenced)
    (hreconcile : r.op = .reconcile → i ≠ r.authority.incarnation)
    (hretire : r.op = .retireIncarnation → i ≠ r.target) :
    ∃ b', o' = some b' ∧ b'.state = .fenced := by
  cases h with
  | kept => exact ⟨b, rfl, hstate⟩
  | forgotten _ op =>
    refine ⟨_, rfl, ?_⟩
    rw [(forgetLiveness_eq_self_iff b).mpr (by rw [hstate]; decide)]
    exact hstate
  | bound => exact ⟨_, rfl, hstate⟩
  | fenced => exact ⟨_, rfl, rfl⟩
  | retired _ target op => exact absurd target (hretire op)
  | reconciled _ caller op => exact absurd caller (hreconcile op)

/-- A replay leaves the counters to its last step. -/
theorem Replayed.countersAt (h : Replayed p r p') (i : IncarnationId) :
    p'.countersAt i = p.countersAt i := (h.records i).counters

end Keeps

end CreditFabric
