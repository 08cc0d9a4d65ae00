import CreditFabric.Answers
import CreditFabric.Operator
import CreditFabric.Process
import CreditFabric.Retried

namespace CreditFabric

open Std (ExtTreeMap)

/-!
# Fences are permanent

An acknowledged Fence is in two places: in the fence list of the account and in the record of
the incarnation.  `FenceBook` keeps the two in step and `Grown` keeps the list, in memory and on
the storage alike, so in every later state of a process the incarnation is fenced in both and
nothing it presents on the account is applied or journaled (`Process.fences_permanent`), as long
as explicit snapshots return Ok.  Behind one that has lost the place of the journal the Fence is
acknowledged, and the next process does not know of it (`FencedStranger.fence_forgotten`).
-/

namespace CreditEngine

variable {J : Type} [Journal J]

/-- The incarnation `i` is fenced on the account `a` under `key`, in its list and in its record,
    and nothing it presents there is applied or reaches the journal. -/
structure FencedOut (e : CreditEngine (Observed J)) (key : UInt64) (i : IncarnationId)
    (a : AccountState) : Prop where
  found : e.accounts[key]? = some a
  listed : ∃ f ∈ a.fences, f.incarnation = i
  once : (a.fences.map FenceRecord.incarnation).Nodup
  record : ∃ b, a.incarnations[i]? = some b ∧ b.state = .fenced
  silenced : ∀ r : CreditRequest, r.authority.account = key →
    r.presenter.id = i ∨ r.authority.incarnation = i →
    (e.apply r).1.applied = false ∧ (e.apply r).2.journal = e.journal

omit [Journal J] in
/-- A Fence that is carried through appends its target to the list. -/
private theorem decision_of_fence {e : CreditEngine J} {a a' : AccountState} {r : CreditRequest}
    (h : e.decision a r = .proceed a') (hop : r.op = .fence) :
    a'.fences = a.fences ++ [fenceOf a r] := by
  rcases e.decision_cases a r with ⟨hcase, -⟩ | ⟨-, hreconcile⟩ | ⟨-, hdata, -⟩
  · rw [h] at hcase
    cases hcase with
    | fenced => rfl
    | advanced op => rw [hop] at op; simp at op
    | exhausted op => rw [hop] at op; simp at op
    | cleared op => rw [hop] at op; simp at op
    | resized op => rw [hop] at op; simp at op
    | retired op => rw [hop] at op; simp at op
    | revalidated op => rw [hop] at op; simp at op
    | retiredIncarnation op => rw [hop] at op; simp at op
  · rw [hop] at hreconcile
    exact absurd hreconcile (by decide)
  · rw [hop] at hdata
    exact absurd (show classify .fence = .control from rfl) hdata

/-- Behind an applied Fence its target is in the list. -/
theorem listed_of_fence {e : CreditEngine (Observed J)} {r : CreditRequest} (hop : r.op = .fence)
    (happlied : (e.apply r).1.applied = true) :
    ∃ a, (e.apply r).2.accounts[r.authority.account]? = some a ∧
      ∃ f ∈ a.fences, f.incarnation = r.target := by
  rcases applied_inv happlied with hopens | ⟨a, a', -, hd, ha⟩
  · have hopen := hopens.op
    rw [hop] at hopen
    exact absurd hopen (by decide)
  · refine ⟨appliedAccount a r a', ha, fenceOf a r, ?_, rfl⟩
    rw [(appliedAccount_sameStanding a r a').fences, decision_of_fence hd hop]
    exact List.mem_append_right _ (List.mem_singleton_self _)

omit [Journal J] in
/-- Whoever is fenced in the list and in the record passes no binding. -/
theorem bindIncarnation_of_fenced {limits : EngineLimits} {a : AccountState} {r : CreditRequest}
    (hbook : FenceBook a) (hlisted : a.isFenced r.authority.incarnation = true) :
    bindIncarnation limits a r ≠ none := by
  obtain ⟨b, hb, hstate⟩ := hbook.fenced _ hlisted
  by_cases hop : r.op = .reconcile
  · -- a Reconcile is checked against the list, everything else against the record
    intro hnone
    unfold bindIncarnation at hnone
    simp only [hop, hlisted, if_true, reduceCtorEq] at hnone
  · exact bindIncarnation_of_not_live hop hb (by rw [hstate]; decide)

/-- **Call lemma.**  A request on an existing account that passes no authority binding is
    answered in front of the window and of the journal. -/
theorem answered_of_unbound {e : CreditEngine J} {a : AccountState} {r : CreditRequest}
    (ha : e.accounts[r.authority.account]? = some a)
    (hbound : Found e r a → bindAuthority e.limits e.operatorIncarnation a r ≠ none) :
    (e.apply r).1.applied = false ∧ (e.apply r).1.decided = false ∧
      (e.apply r).2.journal = e.journal := by
  have hnever : ∀ {a' : AccountState} {P : Prop}, Found e r a' →
      bindAuthority e.limits e.operatorIncarnation a' r = none → P := by
    intro a' P hfound hnone
    have hsame : a' = a := Option.some.inj (hfound.found.symm.trans ha)
    subst hsame
    exact absurd hnone (hbound hfound)
  have hanswer := apply_answer e r
  generalize e.apply r = result at hanswer ⊢
  cases hanswer with
  | described =>
    obtain ⟨happlied, -, hdecided⟩ := describe_applied e r
    exact ⟨happlied, hdecided, rfl⟩
  | absorbed a' found bound => exact hnever found bound
  | conflict a' found bound => exact hnever found bound
  | opened hopens =>
    have hfresh := hopens.fresh.1
    rw [ha] at hfresh
    exact absurd hfresh (by simp)
  | decided a' hadmitted =>
    have hfound : Found e r a' := ⟨hadmitted.recovered, hadmitted.healthy, hadmitted.valid,
      hadmitted.notDescribe, hadmitted.notOpen, hadmitted.found⟩
    exact hnever hfound hadmitted.bound
  | _ => exact ⟨rfl, rfl, rfl⟩

/-- A request that names a fenced incarnation, as its presenter or in its authority, passes no
    binding. -/
theorem silenced_of_fenced {e : CreditEngine J} {a : AccountState} {r : CreditRequest}
    {i : IncarnationId} (ha : e.accounts[r.authority.account]? = some a) (hbook : FenceBook a)
    (hlisted : a.isFenced i = true) (hi : r.presenter.id = i ∨ r.authority.incarnation = i) :
    (e.apply r).1.applied = false ∧ (e.apply r).2.journal = e.journal := by
  obtain ⟨happlied, -, hjournal⟩ := answered_of_unbound ha fun hfound hnone => by
    have hincarnation : r.authority.incarnation = i := by
      rcases hi with hpresenter | hauthority
      · rw [← presenter_of_valid hfound.valid, hpresenter]
      · exact hauthority
    rw [← hincarnation] at hlisted
    exact bindIncarnation_of_fenced hbook hlisted (bound_of_bindAuthority hnone).incarnation
  exact ⟨happlied, hjournal⟩

/-- An account that lists the incarnation is closed to it. -/
theorem fencedOut_of_listed {e : CreditEngine (Observed J)} (hstanding : AllStanding e.accounts)
    {key : UInt64} {i : IncarnationId} {a : AccountState} (ha : e.accounts[key]? = some a)
    (hlisted : ∃ f ∈ a.fences, f.incarnation = i) : FencedOut e key i a := by
  have hbook := (hstanding key a ha).book
  have hfenced := AccountState.isFenced_iff.mpr hlisted
  refine ⟨ha, hlisted, hbook.nodup, hbook.fenced i hfenced, fun r haccount hi => ?_⟩
  subst haccount
  exact silenced_of_fenced ha hbook hfenced hi

end CreditEngine

open CreditEngine

variable {J : Type} [Journal J]

/-- **Run lemma.**  Behind any further steps every account has grown. -/
theorem Deployment.Kept.grown {I : ExtTreeMap UInt64 AccountState → Prop} {n : Nat}
    {w w' : Deployment J} (h : Deployment.Kept I n w) {acts : List Deployment.Act}
    (hrun : Deployment.Run w acts w') (hn : n + acts.length ≤ 2 ^ 60) :
    Deployment.Kept (Grown w.engine.accounts) (n + acts.length) w' := by
  have hfrom : Deployment.Kept (Grown w.engine.accounts) n w := h.mono fun _ hgrown _ => hgrown
  exact hrun.anywhere.kept (tracked_grown w.engine.accounts) hfrom hn

namespace Process

open StoredJournal
open Deployment (Act Kept)

variable [StoredJournal J]

/-- The same behind any further steps of a process. -/
theorem Follows.grown {I : ExtTreeMap UInt64 AccountState → Prop} {n : Nat} {w : Deployment J}
    {v v' : Process J} (h : Follows w v) (hkept : Kept I n w) {later : List Act}
    (hrun : RunAnswered v later v') (hn : n + later.length ≤ 2 ^ 60) :
    ∃ w', Follows w' v' ∧ Kept (Grown v.engine.accounts) (n + later.length) w' := by
  obtain ⟨w', hdeployed, hfollows⟩ :=
    hrun.followed h (hkept.mono fun _ _ _ => trivial) hn
  have hgrown := hkept.grown hdeployed hn
  rw [h.engine] at hgrown
  exact ⟨w', hfollows, hgrown⟩

/-- What is fenced in the deployment is fenced in the process. -/
theorem Follows.fencedOut {I : ExtTreeMap UInt64 AccountState → Prop} {n : Nat} {w : Deployment J}
    {v : Process J} (h : Follows w v) (hkept : Kept I n w) {key : UInt64} {i : IncarnationId}
    {a : AccountState} (ha : v.engine.accounts[key]? = some a)
    (hlisted : ∃ f ∈ a.fences, f.incarnation = i) : FencedOut v.engine key i a := by
  refine fencedOut_of_listed ?_ ha hlisted
  rw [← h.engine]
  exact hkept.standing

/-- **Fences are permanent.**  In every state `v₂` behind an applied Fence, whatever calls,
    snapshots, crashes and restarts have led there, the target is fenced out of the account;
    and in every state `v₃` behind that one the fence list continues the one of `v₂`.  The
    journal keeps its contract, and explicit snapshots have returned Ok. -/
theorem fences_permanent {limits : EngineLimits} {journal : J} {operator : Incarnation}
    {nonce : Digest128} {acts later more : List Act} {v v₁ v₂ v₃ : Process J}
    {r : CreditRequest} (hrun : RunAnswered (start limits journal operator nonce) acts v)
    (hempty : Leaves journal {}) (hstep : Step v (.call r) v₁) (hop : r.op = .fence)
    (happlied : (v.engine.apply r).1.applied = true) (hlater : RunAnswered v₁ later v₂)
    (hmore : RunAnswered v₂ more v₃)
    (hn : acts.length + 1 + later.length + more.length ≤ 2 ^ 60) :
    ∃ a₂ a₃, FencedOut v₂.engine r.authority.account r.target a₂ ∧
      FencedOut v₃.engine r.authority.account r.target a₃ ∧ a₂.fences <+: a₃.fences := by
  obtain ⟨w₁, hfollows₁, hkept₁⟩ := (hrun.concat hstep (by rintro ⟨⟩)).kept hempty
    (by rw [List.length_append, List.length_singleton]; omega)
  rw [List.length_append, List.length_singleton] at hkept₁
  obtain ⟨w₂, hfollows₂, hkept₂⟩ := hfollows₁.grown hkept₁ hlater (by omega)
  obtain ⟨w₃, hfollows₃, hkept₃⟩ := hfollows₂.grown hkept₂ hmore (by omega)
  -- the fence is there behind the call
  have hlisted₁ : ∃ a₁, v₁.engine.accounts[r.authority.account]? = some a₁ ∧
      ∃ f ∈ a₁.fences, f.incarnation = r.target := by
    cases hstep with
    | called => exact listed_of_fence hop happlied
  obtain ⟨a₁, ha₁, f, hf, htarget⟩ := hlisted₁
  have hlive₂ := hkept₂.live
  have hlive₃ := hkept₃.live
  rw [hfollows₂.engine] at hlive₂
  rw [hfollows₃.engine] at hlive₃
  obtain ⟨a₂, ha₂, hprecedes₂⟩ := hlive₂ _ a₁ ha₁
  obtain ⟨a₃, ha₃, hprecedes₃⟩ := hlive₃ _ a₂ ha₂
  have hf₂ := hprecedes₂.fences.subset hf
  refine ⟨a₂, a₃, hfollows₂.fencedOut hkept₂ ha₂ ⟨f, hf₂, htarget⟩, ?_, hprecedes₃.fences⟩
  exact hfollows₃.fencedOut hkept₃ ha₃ ⟨f, hprecedes₃.fences.subset hf₂, htarget⟩

end Process

/-! ### A Fence that is forgotten -/

namespace FencedStranger

open Fixture CreditEngine Process LostPlace

/-- An incarnation that is not the operator. -/
def stranger : Incarnation := .make 0x57A6 0x0B007

/-- The Fence of the stranger. -/
def fencing : CreditRequest :=
  { request nonce me .fence 2 with target := stranger.id, fenceCause := .policyRefused }

/-- The request of the stranger that a fence answers. -/
def reconciling (nonce : Digest128) : CreditRequest := request nonce stranger .reconcile 1

set_option maxRecDepth 20000 in
/-- The Fence is acknowledged behind the failed snapshot, and two restarts later the stranger
    reconciles. -/
theorem evaluated : Boots fencing ∧ (unsaved.apply fencing).1.applied = true ∧
    ((third fencing).apply (reconciling last)).1.applied = true := by
  decide +kernel

/-- A fence is not permanent in every run: behind an explicit snapshot that fails, a Fence that was
    acknowledged is gone after the next restart but one. -/
theorem fence_forgotten : ¬ ∀ (limits : EngineLimits) (journal : FileJournal)
    (operator : Incarnation) (nonce : Digest128) (acts later more : List Deployment.Act)
    (v v₁ v₂ v₃ : Process FileJournal) (r : CreditRequest),
    StoredJournal.Leaves journal {} → Run (start limits journal operator nonce) acts v →
    Step v (.call r) v₁ → r.op = .fence → (v.engine.apply r).1.applied = true →
    Run v₁ later v₂ → Run v₂ more v₃ →
    acts.length + 1 + later.length + more.length ≤ 2 ^ 60 →
    ∃ a₂ a₃, FencedOut v₂.engine r.authority.account r.target a₂ ∧
      FencedOut v₃.engine r.authority.account r.target a₃ ∧ a₂.fences <+: a₃.fences := by
  intro hclaim
  obtain ⟨hboots, happlied, hreconciled⟩ := evaluated
  obtain ⟨v, v₁, v₂, hrun, hunsaved, hcall, -, hlater, hthird⟩ := runs hboots
  obtain ⟨a₂, -, hout, -, -⟩ := hclaim {} files me nonce _ _ [] v v₁ v₂ v₂ fencing files_empty hrun
    hcall rfl (by rw [hunsaved]; exact happlied) hlater .nil (by decide)
  have hsilenced := (hout.silenced (reconciling last) rfl (.inl rfl)).1
  rw [hthird, hreconciled] at hsilenced
  exact absurd hsilenced (by decide)

/-! A run in which nothing fails. -/

/-- The engine behind the Fence. -/
def fenced : CreditEngine (Observed FileJournal) := beforehand.run [fencing]

/-- The engine behind a snapshot that returns Ok. -/
def saved : CreditEngine (Observed FileJournal) := fenced.saved

/-- The engine that recovers from it. -/
def restored : CreditEngine (Observed FileJournal) := boot {} ⟨reopened saved, []⟩ later

set_option maxRecDepth 20000 in
/-- The calm run, evaluated once. -/
theorem evaluated_calm :
    (Replayable 1 untouched ∧
      (make {} (Observed.mk untouched []) me nonce).recover.1.ok = true) ∧
    (beforehand.apply fencing).1.applied = true ∧ fenced.snapshot.1.ok = true ∧
    Replayable 1 (reopened saved) ∧
      (make {} (Observed.mk (reopened saved) []) me later).recover.1.ok = true := by
  decide +kernel

/-- A stranger that has been fenced stays fenced behind a snapshot and a restart, and behind its
    own Reconcile. -/
theorem stranger_fenced : ∃ (v v₁ v₂ v₃ : Process FileJournal) (a₂ a₃ : AccountState),
    Step v (.call fencing) v₁ ∧ RunAnswered v₁ [.snapshot, .restart] v₂ ∧
      Step v₂ (.call (reconciling later)) v₃ ∧ FencedOut v₂.engine account stranger.id a₂ ∧
        FencedOut v₃.engine account stranger.id a₃ ∧ a₂.fences <+: a₃.fences := by
  obtain ⟨⟨hfirst, hfirst'⟩, happlied, hsaved, hsecond, hsecond'⟩ := evaluated_calm
  obtain ⟨v₀, hboot, hbooted⟩ := exists_boot hfirst hfirst'
  obtain ⟨v, hopen, hopened⟩ := exists_call hbooted opening
  have hbefore : v.engine = beforehand := hopened
  obtain ⟨v₁, hfence, hfenced⟩ := exists_call hbefore fencing
  have hfenced : v₁.engine = fenced := hfenced
  obtain ⟨v', hsnapshot, hkept⟩ := exists_snapshot hfenced
  obtain ⟨v₂, hrestart, -⟩ := exists_restart hkept {} (reopened saved) later (over_reopened _)
    hsecond hsecond'
  have hrun : RunAnswered (start {} untouched me nonce) [.restart, .call opening] v :=
    .concat (.concat .nil hboot nofun) hopen nofun
  have hanswered : v₁.Answered .snapshot := by
    intro _
    rw [hfenced]
    exact hsaved
  have hlater : RunAnswered v₁ [.snapshot, .restart] v₂ :=
    .concat (.concat .nil hsnapshot hanswered) hrestart nofun
  obtain ⟨a₂, a₃, hout⟩ := fences_permanent hrun untouched_empty hfence rfl
    (by rw [hbefore]; exact happlied) hlater (.concat .nil (.called (reconciling later)) nofun)
    (by decide)
  exact ⟨v, v₁, v₂, _, a₂, a₃, hfence, hlater, .called _, hout⟩

end FencedStranger

end CreditFabric
