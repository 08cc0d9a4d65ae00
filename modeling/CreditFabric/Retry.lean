import CreditFabric.Windowed
import CreditFabric.Isolation

namespace CreditFabric

open Std (ExtTreeMap)

/-!
# Verbatim retries

A request that was committed and is presented again as the very next call is in the window, but
the lookup stands behind the existence, era and liveness checks.  It is reached unless the
first application has itself changed what these checks read (`Silences`): an Open, an advance
of the era, and a Fence or RetireIncarnation of the caller.
-/

namespace CreditEngine

variable {J : Type} [Journal J]

/-- The call was decided and its Attempt record was appended. -/
structure Committed (e : CreditEngine (Observed J)) (r : CreditRequest) : Prop where
  decided : (e.apply r).1.decided = true
  journaled : ∃ events t s, (e.apply r).2.journal.log = e.journal.log ++ events ∧
    .appended t s ∈ events ∧ t.kind = .attempt ∧ s.ok = true

instance (e : CreditEngine J) (r : CreditRequest) : Decidable (Opens e r) :=
  decidable_of_iff (e.recovered = true ∧ e.journalFailed = false ∧
      validateRequest e.limits r = none ∧ r.op = .open_ ∧
      validateOpen e.limits e.challenge e.accounts r = none)
    ⟨fun h => ⟨h.1, h.2.1, h.2.2.1, h.2.2.2.1, h.2.2.2.2⟩,
      fun h => ⟨h.recovered, h.healthy, h.valid, h.op, h.accepted⟩⟩

/-- The presented again request is answered from the window and changes nothing. -/
structure RetryAbsorbed (e : CreditEngine (Observed J)) (r : CreditRequest) : Prop where
  duplicate : ((e.apply r).2.apply r).1.duplicate = true
  decided : ((e.apply r).2.apply r).1.decided = true
  notApplied : ((e.apply r).2.apply r).1.applied = false
  status : ((e.apply r).2.apply r).1.status = (e.apply r).1.status
  accounts : ((e.apply r).2.apply r).2.accounts = (e.apply r).2.accounts
  journal : ((e.apply r).2.apply r).2.journal = (e.apply r).2.journal

/-- A request whose application changes what the checks in front of the window read. -/
def Silences (r : CreditRequest) : Prop :=
  r.op = .open_ ∨ (r.op = .advanceEpoch ∨ r.op = .rotate) ∨
    (r.op = .fence ∨ r.op = .retireIncarnation) ∧ r.target = r.authority.incarnation

instance (r : CreditRequest) : Decidable (Silences r) := inferInstanceAs (Decidable (_ ∨ _))

/-! ### What a commit leaves -/

/-- A committed call either opened the account or decided an admitted request; the engine is
    healthy behind it. -/
theorem Committed.placed {e : CreditEngine (Observed J)} {r : CreditRequest} (h : Committed e r) :
    (e.apply r).2.journalFailed = false ∧
      (Opens e r ∨ ∃ a, Admitted e r a ∧ ∀ s a', e.decision a r ≠ .reject s a') := by
  obtain ⟨hdecided, events, t, s, hlog, hmem, -, -⟩ := h
  -- something was appended, so the log is not as before
  have hchanged : (e.apply r).2.journal.log ≠ e.journal.log := by
    intro hsame
    rw [hsame] at hlog
    have hnil : events = [] := by simpa using hlog
    rw [hnil] at hmem
    exact absurd hmem List.not_mem_nil
  have heffect := apply_effect e r
  generalize (e.apply r).1 = o at heffect hdecided
  generalize (e.apply r).2 = e' at heffect hchanged ⊢
  cases heffect with
  | answered => exact absurd rfl hchanged
  | absorbed => exact absurd rfl hchanged
  | rejected => exact absurd rfl hchanged
  | opened hopens hok =>
    exact ⟨(persistLocked_frame _ _ _ _ _).journalFailed.trans hopens.healthy, .inl hopens⟩
  | refused a hadmitted s a' hd hok =>
    exact ⟨(persistLocked_frame _ _ _ _ _).journalFailed.trans hadmitted.healthy,
      .inr ⟨a, hadmitted, by simp [hd]⟩⟩
  | applied a hadmitted a' hd hok =>
    exact ⟨(persistLocked_frame _ _ _ _ _).journalFailed.trans hadmitted.healthy,
      .inr ⟨a, hadmitted, by simp [hd]⟩⟩
  | failed _ _ _ hundecided =>
    rw [hundecided] at hdecided
    exact absurd hdecided (by decide)

/-- An applied call is committed. -/
theorem committed_of_applied {e : CreditEngine (Observed J)} {r : CreditRequest}
    (h : (e.apply r).1.applied = true) : Committed e r := by
  have happended : ∀ {e₀ : CreditEngine (Observed J)} {o : CreditOutcome} {u : AccountState}
      {c : Bool}, e₀.journal = e.journal → (e₀.persistLocked r o u c).1.ok = true →
      ∃ events t s, (e₀.persistLocked r o u c).2.journal.log = e.journal.log ++ events ∧
        .appended t s ∈ events ∧ t.kind = .attempt ∧ s.ok = true := by
    intro e₀ o u c hstart hok
    obtain ⟨events, hlog, htrace⟩ := persistLocked_trace e₀ r o u c
    obtain ⟨s₁, s₂, more, rfl, -, h₂, -⟩ := htrace.of_ok hok
    exact ⟨_, _, s₂, by rw [hlog, hstart], List.mem_cons_of_mem _ List.mem_cons_self, rfl, h₂⟩
  have heffect := apply_effect e r
  suffices (e.apply r).1.decided = true ∧ ∃ events t s, (e.apply r).2.journal.log =
      e.journal.log ++ events ∧ .appended t s ∈ events ∧ t.kind = .attempt ∧ s.ok = true from
    ⟨this.1, this.2⟩
  generalize (e.apply r).1 = o at heffect h ⊢
  generalize (e.apply r).2 = e' at heffect ⊢
  cases heffect with
  | answered _ hunapplied => rw [hunapplied] at h; exact absurd h (by decide)
  | absorbed => exact absurd h (by simp [duplicateOutcome])
  | rejected =>
    exact absurd h (by simp [CreditOutcome.refused, admittedOutcome, CreditOutcome.ofRequest])
  | opened hopens hok => exact ⟨rfl, happended rfl hok⟩
  | refused =>
    exact absurd h (by simp [refusalOutcome, refusedOutcome, CreditOutcome.decidedRefusal,
      admittedOutcome, CreditOutcome.ofRequest])
  | applied a hadmitted a' hd hok => exact ⟨rfl, happended rfl hok⟩
  | failed _ _ _ _ hunapplied => rw [hunapplied] at h; exact absurd h (by decide)

/-- The account behind a decision that was carried through or refused, published. -/
structure PublishedAs (d : Decision) (r : CreditRequest) (o : CreditOutcome)
    (x : AccountState) : Prop where
  same : SameStanding d.account x
  window : x.window = d.account.window.insert (windowEntry r o)

omit [Journal J] in
/-- A decision is published as it says. -/
theorem decidedAccount_publishedAs (e : CreditEngine J) (a : AccountState) (r : CreditRequest)
    (hd : ∀ s a', e.decision a r ≠ .reject s a') :
    PublishedAs (e.decision a r) r (decidedOutcome a r (e.decision a r))
      (decidedAccount e.limits a r (e.decision a r)) := by
  generalize e.decision a r = d at hd ⊢
  cases d with
  | reject s a' => exact absurd rfl (hd s a')
  | refuse s a' =>
    exact ⟨refusedAccount_sameStanding e.limits a' r _, window_refusedAccount e.limits a' r _⟩
  | proceed a' =>
    exact ⟨appliedAccount_sameStanding a r a', window_appliedAccount a r a'⟩

/-! ### The checks in front of the window -/

/-- An authority that is bound passes. -/
theorem bindAuthority_eq_none {limits : EngineLimits} {operator : Incarnation}
    {a : AccountState} {r : CreditRequest} (h : Bound limits operator a r) :
    bindAuthority limits operator a r = none := by
  unfold bindAuthority
  rw [if_neg (not_not.mpr h.domain), if_neg (by simp [h.epoch, h.generation]), h.incarnation]
  simp only
  rw [if_neg fun hop => hop.2 (h.operator hop.1)]

/-- A live caller passes the checks of every operation but Reconcile. -/
theorem bindIncarnation_of_live {limits : EngineLimits} {a : AccountState} {r : CreditRequest}
    (hop : r.op ≠ .reconcile) {b : IncarnationRecord}
    (hb : a.incarnations[r.authority.incarnation]? = some b)
    (hlive : b.isLive a.epoch a.generation = true) : bindIncarnation limits a r = none := by
  have hstate : b.state = .reconciled := by
    simp only [IncarnationRecord.isLive, Bool.and_eq_true, beq_iff_eq] at hlive
    exact hlive.1.1
  unfold bindIncarnation
  simp only [hop, if_false, AccountState.findIncarnation, hb, hstate, reduceCtorEq, hlive,
    Bool.not_true, Bool.false_eq_true]

/-- A caller whose record is not live is refused there. -/
theorem bindIncarnation_of_not_live {limits : EngineLimits} {a : AccountState}
    {r : CreditRequest} (hop : r.op ≠ .reconcile) {b : IncarnationRecord}
    (hb : a.incarnations[r.authority.incarnation]? = some b) (hstate : b.state ≠ .reconciled) :
    bindIncarnation limits a r ≠ none := by
  intro hnone
  obtain ⟨b', hb', hlive⟩ := live_of_bindIncarnation hnone hop
  rw [hb, Option.some.injEq] at hb'
  rw [← hb'] at hlive
  simp only [IncarnationRecord.isLive, Bool.and_eq_true, beq_iff_eq] at hlive
  exact hstate hlive.1.1

/-- A decision that changes neither the era nor the standing of its caller leaves the caller
    as it found it. -/
theorem decision_caller_bound {e : CreditEngine J} {a : AccountState} {r : CreditRequest}
    (h : Admitted e r a) (hd : ∀ s a', e.decision a r ≠ .reject s a') (hr : ¬ Silences r) :
    Bound e.limits e.operatorIncarnation (e.decision a r).account r := by
  have hbound := bound_of_bindAuthority h.bound
  simp only [Silences, not_or, not_and] at hr
  obtain ⟨-, hadvance, hself⟩ := hr
  have hera : (e.decision a r).account.epoch = a.epoch ∧
      (e.decision a r).account.generation = a.generation := by
    have hheader := decision_header e a r
    generalize e.decision a r = d at hheader ⊢
    cases hheader with
    | kept _ epoch generation _ => exact ⟨epoch, generation⟩
    | advanced _ op => exact absurd op (by simpa using hadvance)
    | fenced _ _ _ epoch generation => exact ⟨epoch, generation⟩
  refine ⟨by rw [(decision_unwritten e a r).2, hbound.domain], by rw [hera.1, hbound.epoch],
    by rw [hera.2, hbound.generation], ?_, hbound.operator⟩
  by_cases hop : r.op = .reconcile
  · have hfree := h.permitted hop
    unfold bindIncarnation
    rw [if_pos hop]
    rcases e.decision_cases a r with ⟨-, hcontrol⟩ | ⟨hcase, -⟩ | ⟨-, -, hnot⟩
    · rw [hop] at hcontrol
      exact absurd hcontrol (by decide)
    · generalize e.decision a r = d at hcase hd ⊢
      cases hcase with
      | rejected s => exact absurd rfl (hd s a)
      | reconciled proof =>
        have hnotFenced : (Decision.proceed (a.setIncarnation r.authority.incarnation
            (markReconciled ((a.incarnations[r.authority.incarnation]?).getD (freshRecord r))
              a.epoch a.generation r.proof))).account.isFenced r.authority.incarnation =
                false := hfree
        rw [if_neg (by simp [hnotFenced])]
        simp only [Decision.account, AccountState.findIncarnation, AccountState.setIncarnation,
          ExtTreeMap.getElem?_insert_self, markReconciled, reduceCtorEq, if_false]
    · exact absurd hop hnot
  · obtain ⟨b, hb, hlive⟩ := live_of_bindIncarnation hbound.incarnation hop
    have hstep := decision_record e a r r.authority.incarnation
    rw [hb] at hstep
    -- the caller's record is kept, or an Issue has bound it
    generalize hget : (e.decision a r).account.incarnations[r.authority.incarnation]? = o at hstep
    cases hstep with
    | kept =>
      refine bindIncarnation_of_live hop hget ?_
      rw [hera.1, hera.2]
      exact hlive
    | bound _ _ _ producer consumer grant =>
      refine bindIncarnation_of_live hop hget ?_
      rw [hera.1, hera.2]
      exact hlive
    | forgotten _ op => exact absurd op (by simpa using hadvance)
    | fenced _ target op => exact absurd target.symm (hself (.inl op))
    | retired _ target op => exact absurd target.symm (hself (.inr op))
    | reconciled _ _ op => exact absurd op hop

omit [Journal J] in
/-- Bookkeeping does not change what the checks read of a caller that has a record. -/
theorem Bound.congr {limits : EngineLimits} {operator : Incarnation} {a x : AccountState}
    {r : CreditRequest} (h : Bound limits operator a r) (hsame : SameStanding a x)
    (hknown : ∃ b, a.incarnations[r.authority.incarnation]? = some b) :
    Bound limits operator x r where
  domain := h.domain.trans hsame.domain.symm
  epoch := h.epoch.trans hsame.epoch.symm
  generation := h.generation.trans hsame.generation.symm
  operator := h.operator
  incarnation := by
    obtain ⟨b, hb⟩ := hknown
    obtain ⟨b', hb', hcounted⟩ := hsame.records _ b hb
    have hstate : b'.state = b.state := by rw [hcounted]
    have hlive : b'.isLive = b.isLive := by
      rw [hcounted]
      rfl
    have hbound := h.incarnation
    unfold bindIncarnation AccountState.isFenced AccountState.findIncarnation at hbound ⊢
    simp only [hb] at hbound
    simp only [hb', hstate, hlive, hsame.fences, hsame.epoch, hsame.generation]
    exact hbound

/-! ### The retry -/

/-- The engine and the account behind a committed decision. -/
structure CommittedTo (e : CreditEngine (Observed J)) (r : CreditRequest) (x : AccountState) :
    Prop where
  healthy : (e.apply r).2.journalFailed = false
  outcome : ∃ a, Admitted e r a ∧ (∀ s a', e.decision a r ≠ .reject s a') ∧
    PublishedAs (e.decision a r) r (e.apply r).1 x
  found : (e.apply r).2.accounts[r.authority.account]? = some x

/-- A committed request other than an Open was committed to its account. -/
theorem Committed.to {e : CreditEngine (Observed J)} {r : CreditRequest} (h : Committed e r)
    (hop : r.op ≠ .open_) : ∃ x, CommittedTo e r x := by
  obtain ⟨hhealthy, hopens | ⟨a, hadmitted, hd⟩⟩ := h.placed
  · exact absurd hopens.op hop
  have hsettled := hhealthy
  rw [apply_of_admitted hadmitted] at hsettled
  obtain ⟨houtcome, hfound⟩ := settleDecision_of_healthy hsettled
  refine ⟨decidedAccount e.limits a r (e.decision a r), hhealthy, ⟨a, hadmitted, hd, ?_⟩, ?_⟩
  · rw [apply_of_admitted hadmitted, houtcome]
    exact decidedAccount_publishedAs e a r hd
  · rw [apply_of_admitted hadmitted, hfound]

/-- The request reaches the published account a second time. -/
theorem CommittedTo.reached {e : CreditEngine (Observed J)} {r : CreditRequest}
    {x : AccountState} (h : CommittedTo e r x) : Found (e.apply r).2 r x := by
  obtain ⟨a, hadmitted, -⟩ := h.outcome
  have hconfig := apply_sameConfig e r
  refine ⟨hconfig.recovered.trans hadmitted.recovered, h.healthy, ?_, hadmitted.notDescribe,
    hadmitted.notOpen, h.found⟩
  rw [hconfig.limits]
  exact hadmitted.valid

/-- A retry that a check in front of the window refuses is no duplicate. -/
theorem Found.not_duplicate {e : CreditEngine J} {r : CreditRequest} {a : AccountState}
    (h : Found e r a) (hbound : bindAuthority e.limits e.operatorIncarnation a r ≠ none) :
    (e.apply r).1.duplicate = false := by
  rw [apply_of_found h]
  unfold applyToAccount
  cases hcase : bindAuthority e.limits e.operatorIncarnation a r with
  | none => exact absurd hcase hbound
  | some status => rfl

/-- A retry that passes them is answered from the window. -/
theorem Found.duplicate {e : CreditEngine J} {r : CreditRequest} {a : AccountState}
    (h : Found e r a) (hbound : Bound e.limits e.operatorIncarnation a r) {entry : WindowEntry}
    (hentry : a.window.find { incarnation := r.authority.incarnation, sequence := r.sequence } =
      some entry) (hrequest : entry.request = r.digest) :
    e.apply r = (duplicateOutcome (.ofRequest r) a entry,
      { e with stats :=
        { e.stats with duplicatesAbsorbed := e.stats.duplicatesAbsorbed + 1 } }) := by
  rw [apply_of_found h]
  unfold applyToAccount placeInSequence
  simp only [bindAuthority_eq_none hbound, hentry, hrequest, if_true]

/-- **Absorbed.** -/
theorem Committed.absorbed {e : CreditEngine (Observed J)} {r : CreditRequest}
    (h : Committed e r) (hwindowed : AllWindowed e.accounts) (hr : ¬ Silences r) :
    RetryAbsorbed e r := by
  obtain ⟨x, hto⟩ := h.to fun hop => hr (.inl hop)
  obtain ⟨a, hadmitted, hd, hpublished⟩ := hto.outcome
  have hconfig := apply_sameConfig e r
  have hbound : Bound (e.apply r).2.limits (e.apply r).2.operatorIncarnation x r := by
    rw [hconfig.limits, hconfig.operatorIncarnation]
    exact (decision_caller_bound hadmitted hd hr).congr hpublished.same
      (decision_caller_known hadmitted hd)
  -- the entry is the one just inserted, under a new key
  have hwin := hwindowed _ a hadmitted.found
  have hseq := sequence_of_admitted hadmitted.placed
  have hfresh : (windowEntry r (e.apply r).1).key ∉ a.window.order :=
    hwin.fresh (by show (a.countersAt r.authority.incarnation).last.toNat < r.sequence.toNat; omega)
  have hfind : x.window.find (windowEntry r (e.apply r).1).key =
      some (windowEntry r (e.apply r).1) := by
    rw [hpublished.window, (decision_unwritten e a r).1]
    exact (hwin.indexed.insert hfresh).2
  have hretry := hto.reached.duplicate hbound hfind rfl
  exact ⟨by rw [hretry]; rfl, by rw [hretry]; rfl, by rw [hretry]; rfl, by rw [hretry]; rfl,
    by rw [hretry], by rw [hretry]⟩

omit [Journal J] in
/-- An era that has moved on since the request was made refuses it. -/
theorem bindAuthority_of_generation {limits : EngineLimits} {operator : Incarnation}
    {a : AccountState} {r : CreditRequest} (h : r.authority.generation ≠ a.generation) :
    bindAuthority limits operator a r ≠ none := by
  intro hnone
  exact h (bound_of_bindAuthority hnone).generation

omit [Journal J] in
/-- An advance is carried through or rejected. -/
theorem decision_of_advance {e : CreditEngine J} {a : AccountState} {r : CreditRequest}
    (hop : r.op = .advanceEpoch ∨ r.op = .rotate) (hd : ∀ s a', e.decision a r ≠ .reject s a') :
    ∃ a', e.decision a r = .proceed a' := by
  have hcontrol : classify r.op = .control := by
    rcases hop with hop | hop <;> rw [hop] <;> rfl
  rcases e.decision_cases a r with ⟨hcase, -⟩ | ⟨-, hrec⟩ | ⟨-, hdata, -⟩
  · generalize e.decision a r = d at hcase hd ⊢
    cases hcase with
    | rejected s => exact absurd rfl (hd s a)
    | leaked h s => exact absurd rfl (hd s _)
    | refused s op => exact absurd hop (by simp [op])
    | _ => exact ⟨_, rfl⟩
  · rw [hrec] at hop
    simp at hop
  · exact absurd hcontrol hdata

omit [Journal J] in
/-- A Fence or RetireIncarnation by a live incarnation of itself is carried through or
    rejected: the live are not fenced. -/
theorem decision_of_self {e : CreditEngine J} {a : AccountState} {r : CreditRequest}
    (h : Admitted e r a) (hbook : FenceBook a)
    (hop : r.op = .fence ∨ r.op = .retireIncarnation)
    (htarget : r.target = r.authority.incarnation)
    (hd : ∀ s a', e.decision a r ≠ .reject s a') : ∃ a', e.decision a r = .proceed a' := by
  have hcontrol : classify r.op = .control := by
    rcases hop with hop | hop <;> rw [hop] <;> rfl
  have hnot : r.op ≠ .reconcile := by
    rcases hop with hop | hop <;> rw [hop] <;> decide
  obtain ⟨b, hb, hlive⟩ := live_of_bindIncarnation (bound_of_bindAuthority h.bound).incarnation hnot
  have hstate : b.state = .reconciled := by
    simp only [IncarnationRecord.isLive, Bool.and_eq_true, beq_iff_eq] at hlive
    exact hlive.1.1
  have hfree : a.isFenced r.target = false := by
    cases hfenced : a.isFenced r.target with
    | false => rfl
    | true =>
      obtain ⟨b', hb', hstate'⟩ := hbook.fenced _ hfenced
      rw [htarget, hb, Option.some.injEq] at hb'
      rw [← hb', hstate] at hstate'
      exact absurd hstate' (by decide)
  have hdecide : e.decision a r = decideControl e.limits a r := if_pos hcontrol
  rw [hdecide] at hd ⊢
  unfold decideControl at hd ⊢
  rcases hop with hop | hop
  · simp only [hop, hfree, Bool.false_eq_true, if_false] at hd ⊢
    split_ifs at hd ⊢
    · exact absurd rfl (hd _ _)
    · exact absurd rfl (hd _ _)
    · exact absurd rfl (hd _ _)
    · exact absurd rfl (hd _ _)
    · exact ⟨_, rfl⟩
  · have hunfenced : b.state ≠ .fenced := by
      rw [hstate]
      decide
    simp only [hop, AccountState.findIncarnation, htarget, hb, hunfenced, if_false] at hd ⊢
    split_ifs at hd ⊢
    · exact absurd rfl (hd _ _)
    · exact ⟨_, rfl⟩

/-- An Open of an account that exists is refused. -/
theorem apply_open_known {e : CreditEngine J} {r : CreditRequest} {a : AccountState}
    (hrecovered : e.recovered = true) (hhealthy : e.journalFailed = false)
    (hvalid : validateRequest e.limits r = none) (hop : r.op = .open_)
    (hfound : e.accounts[r.authority.account]? = some a) : (e.apply r).1.duplicate = false := by
  have hknown : e.accounts.contains r.authority.account = true := by
    rw [ExtTreeMap.contains_eq_isSome_getElem?, hfound]
    rfl
  unfold apply applyLocked createAccountLocked validateOpen
  simp only [hrecovered, hhealthy, hvalid, hop, hknown, Bool.not_true, Bool.false_eq_true,
    if_false, if_true, reduceCtorEq]
  rfl

/-- **Silenced.** -/
theorem Committed.silenced {e : CreditEngine (Observed J)} {r : CreditRequest}
    (h : Committed e r) (hstanding : AllStanding e.accounts) (hr : Silences r) :
    ((e.apply r).2.apply r).1.duplicate = false := by
  by_cases hop : r.op = .open_
  · obtain ⟨hhealthy, hopens | ⟨a, hadmitted, -⟩⟩ := h.placed
    swap
    · exact absurd hop hadmitted.notOpen
    -- the account is there now
    have hsettled := hhealthy
    rw [apply_of_opens hopens] at hsettled
    have hfound := (settleOpen_of_healthy hopens hsettled).2
    rw [← apply_of_opens hopens] at hfound
    have hconfig := apply_sameConfig e r
    refine apply_open_known (hconfig.recovered.trans hopens.recovered) hhealthy ?_ hop hfound
    rw [hconfig.limits]
    exact hopens.valid
  obtain ⟨x, hto⟩ := h.to hop
  obtain ⟨a, hadmitted, hd, hpublished⟩ := hto.outcome
  have hbound := bound_of_bindAuthority hadmitted.bound
  refine hto.reached.not_duplicate ?_
  rcases hr.resolve_left hop with hadvance | ⟨hend, hself⟩
  · obtain ⟨a', hproceed⟩ := decision_of_advance hadvance hd
    refine bindAuthority_of_generation ?_
    rw [hpublished.same.generation, hproceed,
      show (Decision.proceed a').account.generation = _ from
        (decision_advanced hproceed hadvance).2.1, hbound.generation]
    simp
  · obtain ⟨a', hproceed⟩ := decision_of_self hadmitted
      (hstanding _ a hadmitted.found).book hend hself hd
    obtain ⟨b, hb, hstate⟩ := decision_target hproceed hend
    have hsame := hpublished.same
    rw [hproceed] at hsame
    obtain ⟨b', hb', hcounted⟩ := hsame.records r.target b hb
    have hnot : r.op ≠ .reconcile := by
      rcases hend with hop | hop <;> rw [hop] <;> decide
    intro hnone
    refine bindIncarnation_of_not_live hnot (b := b') ?_ ?_ (bound_of_bindAuthority hnone).incarnation
    · rw [← hself]
      exact hb'
    · rw [hcounted]
      exact hstate

/-- **One retry.**  On accounts that keep their invariants the committed request is absorbed
    unless its application has silenced it. -/
theorem Committed.absorbed_iff {e : CreditEngine (Observed J)} {r : CreditRequest}
    (h : Committed e r) (hstanding : AllStanding e.accounts) (hwindowed : AllWindowed e.accounts) :
    RetryAbsorbed e r ↔ ¬ Silences r := by
  constructor
  · intro habsorbed hr
    have hduplicate := habsorbed.duplicate
    rw [h.silenced hstanding hr] at hduplicate
    exact absurd hduplicate (by decide)
  · exact h.absorbed hwindowed

end CreditEngine

end CreditFabric
