import CreditFabric.Accounts
import CreditFabric.Rollback
import CreditFabric.Sound

namespace CreditFabric

open Std (ExtTreeMap)

/-!
# What a call does to the standing of incarnations

`decision_record` says once what a decision can make of one incarnation record and
`decision_header` what it makes of the era and the fence list; the lemmas behind them carry
both through the bookkeeping of a commit and through a rollback.  From there:

* `FenceBook`: the fence list names every incarnation at most once, and only fenced ones;
* `Standing`: the invariant of one account, kept by every call.
-/

/-! ### One decision -/

/-- What a decision `d` can make of the record of the incarnation `i`. -/
inductive RecordStep (challenge : ReconciliationChallenge) (a : AccountState)
    (r : CreditRequest) (i : IncarnationId) (d : Decision) :
    Option IncarnationRecord → Option IncarnationRecord → Prop
  | kept (o : Option IncarnationRecord) : RecordStep challenge a r i d o o
  | leaked (target : i = r.target) (op : r.op = .fence) :
      RecordStep challenge a r i d none (some { id := i })
  | forgotten (b : IncarnationRecord) (op : r.op = .advanceEpoch ∨ r.op = .rotate) :
      RecordStep challenge a r i d (some b) (some b.forgetLiveness)
  | bound (b : IncarnationRecord) (caller : i = r.authority.incarnation) (op : r.op = .issue)
      (producer : ProducerId) (consumer : ConsumerId) (grant : GrantId) :
      RecordStep challenge a r i d (some b) (some { b with producer, consumer, grant })
  | fenced (o : Option IncarnationRecord) (target : i = r.target) (op : r.op = .fence)
      (unfenced : a.isFenced i = false) : RecordStep challenge a r i d o
        (some { o.getD { id := i } with state := .fenced, fencedAtSequence := r.sequence })
  | retired (b : IncarnationRecord) (target : i = r.target) (op : r.op = .retireIncarnation)
      (state : b.state ≠ .fenced) :
      RecordStep challenge a r i d (some b) (some { b with state := .retired })
  | reconciled (o : Option IncarnationRecord) (caller : i = r.authority.incarnation)
      (op : r.op = .reconcile) (proceeds : ∃ a', d = .proceed a')
      (proof : challenge.verify r.presenter r.authority r.proof = true) :
      RecordStep challenge a r i d o (some
        (markReconciled (o.getD (freshRecord r)) a.epoch a.generation r.proof))

/-- Writing one record is a step of that record and keeps every other one. -/
theorem RecordStep.setIncarnation {challenge : ReconciliationChallenge} {a : AccountState}
    {r : CreditRequest} {id : IncarnationId} {d : Decision} {b : IncarnationRecord}
    (h : RecordStep challenge a r id d (a.incarnations[id]?) (some b)) (i : IncarnationId) :
    RecordStep challenge a r i d (a.incarnations[i]?)
      ((a.setIncarnation id b).incarnations[i]?) := by
  by_cases hi : i = id
  · subst hi
    have hget : (a.setIncarnation i b).incarnations[i]? = some b :=
      ExtTreeMap.getElem?_insert_self
    rw [hget]
    exact h
  · have hget : (a.setIncarnation id b).incarnations[i]? = a.incarnations[i]? :=
      Lib.getElem?_insert_of_ne _ _ hi
    rw [hget]
    exact .kept _

/-- A decision drops no record. -/
theorem RecordStep.known {challenge : ReconciliationChallenge} {a : AccountState}
    {r : CreditRequest} {i : IncarnationId} {d : Decision} {o o' : Option IncarnationRecord}
    (h : RecordStep challenge a r i d o o') (ho : o.isSome = true) : o'.isSome = true := by
  cases h with
  | kept => exact ho
  | _ => rfl

namespace CreditEngine

variable {J : Type}

/-- **One record behind a decision.** -/
theorem decision_record (e : CreditEngine J) (a : AccountState) (r : CreditRequest)
    (i : IncarnationId) : RecordStep e.challenge a r i (e.decision a r) (a.incarnations[i]?)
      ((e.decision a r).account.incarnations[i]?) := by
  -- an Issue binds the caller's record whether or not it is granted
  have hbind : ∀ b d, a.incarnations[r.authority.incarnation]? = some b → r.op = .issue →
      RecordStep e.challenge a r i d (a.incarnations[i]?)
        ((a.setIncarnation r.authority.incarnation (bindIssue b r).1).incarnations[i]?) := by
    intro b d hb hop
    refine RecordStep.setIncarnation ?_ i
    rw [hb, bindIssue_eq]
    exact .bound b rfl hop _ _ _
  -- control, reconciliation, ledger
  rcases e.decision_cases a r with ⟨hcase, -⟩ | ⟨hcase, hrec⟩ | ⟨hcase, -⟩ <;>
    generalize e.decision a r = d at hcase ⊢
  · cases hcase with
    | leaked h s =>
      refine RecordStep.setIncarnation ?_ i
      rw [h.unknown]
      exact .leaked rfl h.op
    | advanced op plan h =>
      show RecordStep _ _ _ _ _ _ ((a.incarnations.map fun _ b => b.forgetLiveness)[i]?)
      rw [ExtTreeMap.getElem?_map]
      cases a.incarnations[i]? with
      | none => exact .kept none
      | some b => exact .forgotten b op
    | fenced op target unfenced room budget =>
      exact RecordStep.setIncarnation (.fenced _ rfl op unfenced) i
    | retiredIncarnation op target b found state =>
      refine RecordStep.setIncarnation ?_ i
      rw [found]
      exact .retired b rfl op state
    | _ => exact .kept _
  · cases hcase with
    | rejected s => exact .kept _
    | reconciled proof =>
      exact RecordStep.setIncarnation (.reconciled _ rfl hrec ⟨_, rfl⟩ proof) i
  · cases hcase with
    | rejected s => exact .kept _
    | refused s op => exact .kept _
    | refusedBound op hopen b found s h => exact hbind b _ found op
    | issued op hopen b found bound h => exact hbind b _ found op
    | applied op notIssue h => exact .kept _

/-- No decision touches the window or the domain. -/
theorem decision_unwritten (e : CreditEngine J) (a : AccountState) (r : CreditRequest) :
    (e.decision a r).account.window = a.window ∧ (e.decision a r).account.domain = a.domain := by
  rcases e.decision_cases a r with ⟨hcase, -⟩ | ⟨hcase, -⟩ | ⟨hcase, -⟩ <;>
    generalize e.decision a r = d at hcase ⊢
  · cases hcase <;> exact ⟨rfl, rfl⟩
  · cases hcase <;> exact ⟨rfl, rfl⟩
  · cases hcase <;> exact ⟨rfl, rfl⟩

/-- An advance that is carried through forgets every liveness. -/
theorem decision_advanced {e : CreditEngine J} {a a' : AccountState} {r : CreditRequest}
    (h : e.decision a r = .proceed a') (hop : r.op = .advanceEpoch ∨ r.op = .rotate) :
    a'.epoch = nextEpoch a r ∧ a'.generation = a.generation + 1 ∧
      ∀ i : IncarnationId,
        a'.incarnations[i]? = (a.incarnations[i]?).map IncarnationRecord.forgetLiveness := by
  have hcontrol : classify r.op = .control := by
    rcases hop with hop | hop <;> rw [hop] <;> rfl
  rcases e.decision_cases a r with ⟨hcase, -⟩ | ⟨-, hrec⟩ | ⟨-, hdata, -⟩
  · rw [h] at hcase
    cases hcase with
    | advanced => exact ⟨rfl, rfl, fun i => AccountState.getElem?_forgetLiveness a i⟩
    | exhausted op => rw [op] at hop; simp at hop
    | cleared op => rw [op] at hop; simp at hop
    | resized op => rw [op] at hop; simp at hop
    | retired op => rw [op] at hop; simp at hop
    | revalidated op => rw [op] at hop; simp at hop
    | fenced op => rw [op] at hop; simp at hop
    | retiredIncarnation op => rw [op] at hop; simp at hop
  · rw [hrec] at hop
    simp at hop
  · exact absurd hcontrol hdata

/-- The target of a Fence or a RetireIncarnation that is carried through is not live. -/
theorem decision_target {e : CreditEngine J} {a a' : AccountState} {r : CreditRequest}
    (h : e.decision a r = .proceed a') (hop : r.op = .fence ∨ r.op = .retireIncarnation) :
    ∃ b, a'.incarnations[r.target]? = some b ∧ b.state ≠ .reconciled := by
  rcases e.decision_cases a r with ⟨hcase, -⟩ | ⟨-, hrec⟩ | ⟨-, hdata, -⟩
  · rw [h] at hcase
    cases hcase with
    | fenced => exact ⟨_, ExtTreeMap.getElem?_insert_self, by simp⟩
    | retiredIncarnation => exact ⟨_, ExtTreeMap.getElem?_insert_self, by simp⟩
    | exhausted op => rw [op] at hop; simp at hop
    | cleared op => rw [op] at hop; simp at hop
    | resized op => rw [op] at hop; simp at hop
    | advanced op => rcases op with op | op <;> rw [op] at hop <;> simp at hop
    | retired op => rw [op] at hop; simp at hop
    | revalidated op => rw [op] at hop; simp at hop
  · rw [hrec] at hop
    simp at hop
  · exact absurd (by rcases hop with hop | hop <;> rw [hop] <;> rfl) hdata

/-- What a decision can make of the era and of the fence list. -/
inductive HeaderStep (a : AccountState) (r : CreditRequest) : Decision → Prop
  | kept (d : Decision) (epoch : d.account.epoch = a.epoch)
      (generation : d.account.generation = a.generation)
      (fences : d.account.fences = a.fences) : HeaderStep a r d
  | advanced (a' : AccountState) (op : r.op = .advanceEpoch ∨ r.op = .rotate)
      (epoch : a'.epoch = nextEpoch a r) (generation : a'.generation = a.generation + 1)
      (fences : a'.fences = a.fences) : HeaderStep a r (.proceed a')
  | fenced (a' : AccountState) (op : r.op = .fence) (unfenced : a.isFenced r.target = false)
      (epoch : a'.epoch = a.epoch) (generation : a'.generation = a.generation)
      (fences : a'.fences = a.fences ++ [fenceOf a r])
      (record : ∃ b, a'.incarnations[r.target]? = some b ∧ b.state = .fenced) :
      HeaderStep a r (.proceed a')

/-- **Era and fences behind a decision.** -/
theorem decision_header (e : CreditEngine J) (a : AccountState) (r : CreditRequest) :
    HeaderStep a r (e.decision a r) := by
  rcases e.decision_cases a r with ⟨hcase, -⟩ | ⟨hcase, -⟩ | ⟨hcase, -⟩ <;>
    generalize e.decision a r = d at hcase ⊢
  · cases hcase with
    | advanced op plan h => exact .advanced _ op rfl rfl rfl
    | fenced op target unfenced room budget =>
      exact .fenced _ op unfenced rfl rfl rfl ⟨_, ExtTreeMap.getElem?_insert_self, rfl⟩
    | _ => exact .kept _ rfl rfl rfl
  · cases hcase <;> exact .kept _ rfl rfl rfl
  · cases hcase <;> exact .kept _ rfl rfl rfl

end CreditEngine

/-! ### Commit and rollback -/

/-- The bookkeeping of a commit moves the counters of a record only. -/
def IncarnationRecord.Counted (b b' : IncarnationRecord) : Prop :=
  b' = { b with lastSequence := b'.lastSequence, committedOps := b'.committedOps,
                refusedOps := b'.refusedOps }

/-- `a'` is `a` but for counters, the window and the notes. -/
structure SameStanding (a a' : AccountState) : Prop where
  config : a'.config = a.config
  domain : a'.domain = a.domain
  epoch : a'.epoch = a.epoch
  generation : a'.generation = a.generation
  capacity : a'.capacity = a.capacity
  totals : a'.totals = a.totals
  fences : a'.fences = a.fences
  known : ∀ i : IncarnationId, a.incarnations[i]? = none → a'.incarnations[i]? = none
  records : ∀ (i : IncarnationId) (b : IncarnationRecord), a.incarnations[i]? = some b →
    ∃ b', a'.incarnations[i]? = some b' ∧ b.Counted b'

/-- Nothing has changed. -/
theorem SameStanding.refl (a : AccountState) : SameStanding a a :=
  ⟨rfl, rfl, rfl, rfl, rfl, rfl, rfl, fun _ hnone => hnone, fun _ b hb => ⟨b, hb, rfl⟩⟩

/-- The record of `a'` comes from one of `a`. -/
theorem SameStanding.back {a a' : AccountState} (h : SameStanding a a') {i : IncarnationId}
    {b' : IncarnationRecord} (hb' : a'.incarnations[i]? = some b') :
    ∃ b, a.incarnations[i]? = some b ∧ b.Counted b' := by
  cases hb : a.incarnations[i]? with
  | none =>
    rw [h.known i hb] at hb'
    exact absurd hb' (by simp)
  | some b =>
    obtain ⟨b₁, hb₁, hcounted⟩ := h.records i b hb
    rw [hb', Option.some.injEq] at hb₁
    subst hb₁
    exact ⟨b, rfl, hcounted⟩

/-- An account with the header of `a` whose records are those of `a` but for one that is
    counted. -/
theorem SameStanding.of_caller {a a' : AccountState} {caller : IncarnationId}
    {f : IncarnationRecord → IncarnationRecord}
    (hf : ∀ b : IncarnationRecord, b.Counted (f b))
    (hframe : a' = { a with
      committedAttempts := a'.committedAttempts, refusedAttempts := a'.refusedAttempts,
      incarnations := a'.incarnations, window := a'.window, refusals := a'.refusals,
      refusalCursor := a'.refusalCursor, ambiguous := a'.ambiguous })
    (hrecords : ∀ i : IncarnationId, a'.incarnations[i]? =
      if i = caller then (a.incarnations[caller]?).map f else a.incarnations[i]?) :
    SameStanding a a' := by
  refine ⟨by rw [hframe], by rw [hframe], by rw [hframe], by rw [hframe], by rw [hframe],
    by rw [hframe], by rw [hframe], fun i hnone => ?_, fun i b hb => ?_⟩
  · rw [hrecords]
    by_cases hi : i = caller
    · rw [if_pos hi, ← hi, hnone]
      rfl
    · rw [if_neg hi, hnone]
  · rw [hrecords]
    by_cases hi : i = caller
    · rw [if_pos hi, ← hi, hb]
      exact ⟨f b, rfl, hf b⟩
    · rw [if_neg hi, hb]
      exact ⟨b, rfl, rfl⟩

/-- Counting a commit changes no standing. -/
theorem countCommitted_sameStanding (a : AccountState) (caller : IncarnationId) :
    SameStanding a (countCommitted a caller) := by
  refine .of_caller (f := fun b => { b with committedOps := b.committedOps + 1 })
    (fun b => rfl) ?_ fun i => AccountState.getElem?_updateIncarnation _ _ _ _
  unfold countCommitted
  rw [AccountState.updateIncarnation_eq]

/-- Counting a refusal changes none. -/
theorem countRefused_sameStanding (a : AccountState) (caller : IncarnationId) :
    SameStanding a (countRefused a caller) := by
  refine .of_caller (f := fun b => { b with refusedOps := b.refusedOps + 1 })
    (fun b => rfl) ?_ fun i => AccountState.getElem?_updateIncarnation _ _ _ _
  unfold countRefused
  rw [AccountState.updateIncarnation_eq]

/-- The window changes none. -/
theorem publishWindow_sameStanding (a : AccountState) (r : CreditRequest) (o : CreditOutcome) :
    SameStanding a (a.publishWindow r o) := by
  refine .of_caller (f := fun b => { b with lastSequence := r.sequence }) (fun b => rfl) ?_
    (AccountState.getElem?_publishWindow a r o)
  rw [AccountState.publishWindow_eq]

namespace CreditEngine

variable {J : Type}

/-- The records an application leaves. -/
theorem getElem?_appliedAccount (a : AccountState) (r : CreditRequest) (a' : AccountState)
    (i : IncarnationId) : (appliedAccount a r a').incarnations[i]? =
      if i = r.authority.incarnation then
        (a'.incarnations[r.authority.incarnation]?).map fun b =>
          { b with committedOps := b.committedOps + 1, lastSequence := r.sequence }
      else a'.incarnations[i]? := by
  unfold appliedAccount countCommitted
  simp only [AccountState.getElem?_publishWindow, AccountState.getElem?_updateIncarnation,
    if_true, Option.map_map]
  by_cases hi : i = r.authority.incarnation
  · rw [if_pos hi, if_pos hi]
    rfl
  · rw [if_neg hi, if_neg hi, if_neg hi]

/-- Publishing an applied decision keeps its standing. -/
theorem appliedAccount_sameStanding (a : AccountState) (r : CreditRequest)
    (a' : AccountState) : SameStanding a' (appliedAccount a r a') := by
  refine .of_caller (f := fun b =>
    { b with committedOps := b.committedOps + 1, lastSequence := r.sequence })
    (fun b => rfl) ?_ (getElem?_appliedAccount a r a')
  unfold appliedAccount countCommitted
  rw [AccountState.publishWindow_eq, AccountState.updateIncarnation_eq]

/-- Publishing a refusal keeps its standing. -/
theorem refusedAccount_sameStanding (limits : EngineLimits) (a : AccountState)
    (r : CreditRequest) (o : CreditOutcome) : SameStanding a (refusedAccount limits a r o) := by
  refine .of_caller (f := fun b =>
    { b with refusedOps := b.refusedOps + 1, lastSequence := r.sequence })
    (fun b => rfl) ?_ (getElem?_refusedAccount limits a r o)
  have hframe := (refusedAccount_onlyBookkeeping limits a r o).frame
  generalize refusedAccount limits a r o = x at hframe ⊢
  rw [hframe]

/-- A rolled back decision has the header of the account in front of it, its records where the
    backup saved them and those of the decision elsewhere. -/
theorem getElem?_restoredAccount (a : AccountState) (r : CreditRequest) (a' : AccountState)
    (i : IncarnationId) [Decidable (Saved r.authority.incarnation (subject r) i)] :
    (restoredAccount a r a').incarnations[i]? =
      if Saved r.authority.incarnation (subject r) i then a.incarnations[i]?
      else a'.incarnations[i]? := by
  unfold restoredAccount
  rw [getElem?_restoreBackup]
  by_cases hsaved : Saved r.authority.incarnation (subject r) i
  · rw [if_pos hsaved, if_pos hsaved]
  · rw [if_neg hsaved, if_neg hsaved, getElem?_countCommitted_of_ne]
    exact fun hi => hsaved (.inl hi)

/-- A rollback keeps the configuration and the fences, and gives the era back. -/
theorem restoredAccount_header {e : CreditEngine J} {a a' : AccountState} {r : CreditRequest}
    (h : e.decision a r = .proceed a') :
    (restoredAccount a r a').config = a'.config ∧ (restoredAccount a r a').epoch = a.epoch ∧
      (restoredAccount a r a').generation = a.generation ∧
      (restoredAccount a r a').fences = a.fences := by
  have hcount : (countCommitted a' r.authority.incarnation).fences = a'.fences ∧
      (countCommitted a' r.authority.incarnation).config = a'.config := by
    unfold countCommitted
    rw [AccountState.updateIncarnation_eq]
    exact ⟨rfl, rfl⟩
  refine ⟨hcount.2, rfl, rfl, ?_⟩
  show (countCommitted a' r.authority.incarnation).fences.take a.fences.length = _
  rw [hcount.1]
  have hheader := decision_header e a r
  rw [h] at hheader
  cases hheader with
  | kept _ _ _ fences =>
    rw [show a'.fences = a.fences from fences, List.take_length]
  | advanced _ _ _ _ fences => rw [fences, List.take_length]
  | fenced _ _ _ _ _ fences _ => rw [fences, List.take_left]

end CreditEngine

/-! ### Fence lists -/

/-- An incarnation is fenced when a fence names it. -/
theorem AccountState.isFenced_iff {a : AccountState} {i : IncarnationId} :
    a.isFenced i = true ↔ ∃ f ∈ a.fences, f.incarnation = i := by
  simp [isFenced]

/-- The two records of a fence agree: whoever is in the list has a fenced record, and nobody is
    in it twice. -/
structure FenceBook (a : AccountState) : Prop where
  fenced : ∀ i : IncarnationId, a.isFenced i = true →
    ∃ b, a.incarnations[i]? = some b ∧ b.state = .fenced
  nodup : (a.fences.map FenceRecord.incarnation).Nodup

/-- The book of fences speaks of the standing only. -/
theorem FenceBook.congr {a a' : AccountState} (h : FenceBook a) (hsame : SameStanding a a') :
    FenceBook a' where
  fenced i hi := by
    have hi' : a.isFenced i = true := by
      unfold AccountState.isFenced at hi ⊢
      rw [← hsame.fences]
      exact hi
    obtain ⟨b, hb, hstate⟩ := h.fenced i hi'
    obtain ⟨b', hb', hcounted⟩ := hsame.records i b hb
    refine ⟨b', hb', ?_⟩
    rw [hcounted]
    exact hstate
  nodup := by
    rw [hsame.fences]
    exact h.nodup

/-- The list is as it was, and whoever was listed is still fenced. -/
theorem FenceBook.kept {a a' : AccountState} (h : FenceBook a)
    (hold : ∀ i : IncarnationId, a.isFenced i = true →
      ∃ b, a'.incarnations[i]? = some b ∧ b.state = .fenced)
    (hfences : a'.fences = a.fences) : FenceBook a' := by
  refine ⟨fun i hi => hold i ?_, by rw [hfences]; exact h.nodup⟩
  unfold AccountState.isFenced at hi ⊢
  rw [← hfences]
  exact hi

/-- Somebody who was not listed is fenced as well. -/
theorem FenceBook.append {a a' : AccountState} (h : FenceBook a) {f : FenceRecord}
    (hold : ∀ i : IncarnationId, a.isFenced i = true →
      ∃ b, a'.incarnations[i]? = some b ∧ b.state = .fenced)
    (hfences : a'.fences = a.fences ++ [f]) (hunfenced : a.isFenced f.incarnation = false)
    (hrecord : ∃ b, a'.incarnations[f.incarnation]? = some b ∧ b.state = .fenced) :
    FenceBook a' := by
  refine ⟨fun i hi => ?_, ?_⟩
  · obtain ⟨g, hg, rfl⟩ := AccountState.isFenced_iff.mp hi
    rw [hfences, List.mem_append, List.mem_singleton] at hg
    rcases hg with hg | rfl
    · exact hold _ (AccountState.isFenced_iff.mpr ⟨g, hg, rfl⟩)
    · exact hrecord
  · rw [hfences, List.map_append, List.map_singleton, List.nodup_append]
    refine ⟨h.nodup, List.nodup_cons.mpr ⟨List.not_mem_nil, List.nodup_nil⟩,
      fun i hi j hj hij => ?_⟩
    obtain ⟨g, hg, rfl⟩ := List.mem_map.mp hi
    rw [List.mem_singleton] at hj
    have hlisted : a.isFenced f.incarnation = true :=
      AccountState.isFenced_iff.mpr ⟨g, hg, hij.trans hj⟩
    rw [hunfenced] at hlisted
    exact absurd hlisted (by decide)

/-- A request that reconciles nobody who is fenced. -/
def Permitted (a : AccountState) (r : CreditRequest) : Prop :=
  r.op = .reconcile → a.isFenced r.authority.incarnation = false

/-- A fenced record of somebody in the list stays fenced. -/
theorem RecordStep.stays_fenced {challenge : ReconciliationChallenge} {a : AccountState}
    {r : CreditRequest} {i : IncarnationId} {d : Decision} {b : IncarnationRecord}
    {o : Option IncarnationRecord} (h : RecordStep challenge a r i d (some b) o)
    (hpermitted : Permitted a r) (hlisted : a.isFenced i = true) (hstate : b.state = .fenced) :
    ∃ b', o = some b' ∧ b'.state = .fenced := by
  cases h with
  | kept => exact ⟨b, rfl, hstate⟩
  | forgotten _ op =>
    refine ⟨_, rfl, ?_⟩
    rw [(forgetLiveness_eq_self_iff b).mpr (by rw [hstate]; decide)]
    exact hstate
  | bound => exact ⟨_, rfl, hstate⟩
  | fenced => exact ⟨_, rfl, rfl⟩
  | retired _ target op state => exact absurd hstate state
  | reconciled _ caller op _ _ =>
    rw [caller, hpermitted op] at hlisted
    exact absurd hlisted (by decide)

/-- The record stays under its own key. -/
theorem RecordStep.stays_keyed {challenge : ReconciliationChallenge} {a : AccountState}
    {r : CreditRequest} {i : IncarnationId} {d : Decision} {o o' : Option IncarnationRecord}
    (h : RecordStep challenge a r i d o o') (hkeyed : ∀ b ∈ o, b.id = i) :
    ∀ b' ∈ o', b'.id = i := by
  have hgetD : ∀ b₀ : IncarnationRecord, b₀.id = i → (o.getD b₀).id = i := by
    intro b₀ hb₀
    cases o with
    | none => exact hb₀
    | some b => exact hkeyed b rfl
  intro b' hb'
  cases h with
  | kept => exact hkeyed b' hb'
  | leaked target op =>
    rw [← Option.some.inj hb']
  | forgotten b op =>
    rw [← Option.some.inj hb']
    unfold IncarnationRecord.forgetLiveness
    split_ifs <;> exact hkeyed b rfl
  | bound b =>
    rw [← Option.some.inj hb']
    exact hkeyed b rfl
  | fenced =>
    rw [← Option.some.inj hb']
    exact hgetD _ rfl
  | retired b =>
    rw [← Option.some.inj hb']
    exact hkeyed b rfl
  | reconciled _ caller =>
    rw [← Option.some.inj hb']
    exact hgetD _ caller.symm

/-! ### The invariant of an account -/

/-- The invariant of the account under a key. -/
structure Standing (key : UInt64) (a : AccountState) : Prop where
  sound : a.Sound
  account : a.config.account = key
  keyed : ∀ (i : IncarnationId) (b : IncarnationRecord), a.incarnations[i]? = some b → b.id = i
  book : FenceBook a

/-- So does the whole invariant. -/
theorem Standing.congr {key : UInt64} {a a' : AccountState} (h : Standing key a)
    (hsame : SameStanding a a') : Standing key a' where
  sound := h.sound.congr hsame.config hsame.capacity hsame.totals
  account := by rw [hsame.config, h.account]
  keyed i b' hb' := by
    obtain ⟨b, hb, hcounted⟩ := hsame.back hb'
    rw [hcounted]
    exact h.keyed i b hb
  book := h.book.congr hsame

namespace CreditEngine

variable {J : Type}

/-- A decision keeps the fence book. -/
theorem decision_fenceBook {e : CreditEngine J} {a : AccountState} {r : CreditRequest}
    (h : FenceBook a) (hpermitted : Permitted a r) : FenceBook (e.decision a r).account := by
  have hold : ∀ i, a.isFenced i = true →
      ∃ b, (e.decision a r).account.incarnations[i]? = some b ∧ b.state = .fenced := by
    intro i hi
    obtain ⟨b, hb, hstate⟩ := h.fenced i hi
    have hstep := decision_record e a r i
    rw [hb] at hstep
    exact hstep.stays_fenced hpermitted hi hstate
  have hheader := decision_header e a r
  generalize e.decision a r = d at hold hheader ⊢
  cases hheader with
  | kept _ _ _ fences => exact h.kept hold fences
  | advanced _ _ _ _ fences => exact h.kept hold fences
  | fenced a' op unfenced epoch generation fences record =>
    exact h.append hold fences unfenced record

/-- A decision keeps the invariant of its account. -/
theorem decision_standing {e : CreditEngine J} {a : AccountState} {r : CreditRequest}
    {key : UInt64} (h : Standing key a) (hpermitted : Permitted a r) :
    Standing key (e.decision a r).account where
  sound := decision_sound e r h.sound
  account := by rw [decision_config, h.account]
  keyed i := (decision_record e a r i).stays_keyed (h.keyed i)
  book := decision_fenceBook h.book hpermitted

/-- A rolled back decision keeps it too. -/
theorem restoredAccount_standing {e : CreditEngine J} {a a' : AccountState} {r : CreditRequest}
    {key : UInt64} (h : Standing key a) (hpermitted : Permitted a r)
    (hd : e.decision a r = .proceed a') : Standing key (restoredAccount a r a') := by
  classical
  have h' : Standing key a' := by
    have hdecision := decision_standing (e := e) h hpermitted
    rw [hd] at hdecision
    exact hdecision
  obtain ⟨hconfig, -, -, hfences⟩ := restoredAccount_header hd
  refine ⟨?_, by rw [hconfig, h'.account], fun i b hb => ?_, fun i hi => ?_, ?_⟩
  · have hsame : a'.config = a.config := by
      have hdecision := decision_config e a r
      rw [hd] at hdecision
      exact hdecision
    exact restoreBackup_sound h.sound (hconfig.trans hsame) _ _
  · rw [getElem?_restoredAccount] at hb
    -- a record is one that was saved, or the one the decision left
    by_cases hsaved : Saved r.authority.incarnation (subject r) i
    · rw [if_pos hsaved] at hb
      exact h.keyed i b hb
    · rw [if_neg hsaved] at hb
      exact h'.keyed i b hb
  · have hlisted : a.isFenced i = true := by
      unfold AccountState.isFenced at hi ⊢
      rw [← hfences]
      exact hi
    obtain ⟨b, hb, hstate⟩ := h.book.fenced i hlisted
    rw [getElem?_restoredAccount]
    by_cases hsaved : Saved r.authority.incarnation (subject r) i
    · rw [if_pos hsaved]
      exact ⟨b, hb, hstate⟩
    · rw [if_neg hsaved]
      have hstep := decision_record e a r i
      rw [hb, hd] at hstep
      exact hstep.stays_fenced hpermitted hlisted hstate
  · rw [hfences]
    exact h.book.nodup

/-- Every account has the invariant under its key. -/
def AllStanding (accounts : ExtTreeMap UInt64 AccountState) : Prop :=
  ∀ (key : UInt64) (a : AccountState), accounts[key]? = some a → Standing key a

/-- Every account stands when the one that was put does. -/
theorem AllStanding.insert {accounts : ExtTreeMap UInt64 AccountState}
    (h : AllStanding accounts) {key : UInt64} {a : AccountState} (ha : Standing key a) :
    AllStanding (accounts.insert key a) := by
  intro key' a' hget
  by_cases hkey : key' = key
  · rw [hkey, ExtTreeMap.getElem?_insert_self, Option.some.injEq] at hget
    rw [hkey, ← hget]
    exact ha
  · rw [Lib.getElem?_insert_of_ne _ _ hkey] at hget
    exact h key' a' hget

/-- An accepted Open creates an account with the invariant. -/
theorem openedAccount_standing {e : CreditEngine J} {r : CreditRequest} (h : Opens e r) :
    Standing r.authority.account (openedAccount e.limits r) := by
  refine ⟨openedAccount_sound h.accepted, h.fresh.2, fun i b hb => ?_, fun i hi => ?_,
    List.nodup_nil⟩
  · by_cases hi : i = r.authority.incarnation
    · have hopener : (openedAccount e.limits r).incarnations[r.authority.incarnation]? = some
          { markReconciled (freshRecord r) r.authority.epoch r.authority.generation r.proof with
            committedOps := 1 } := ExtTreeMap.getElem?_insert_self
      rw [hi, hopener, Option.some.injEq] at hb
      rw [← hb, hi]
      rfl
    · have hnone : (openedAccount e.limits r).incarnations[i]? = none :=
        (Lib.getElem?_insert_of_ne _ _ hi).trans ExtTreeMap.getElem?_empty
      rw [hnone] at hb
      exact absurd hb (by simp)
  · exact absurd hi (by simp [AccountState.isFenced, openedAccount])

/-- An accepted Open publishes an account with the invariant. -/
theorem publishedOpen_standing {e : CreditEngine J} {r : CreditRequest} (h : Opens e r) :
    Standing r.authority.account (e.publishedOpen r) :=
  (openedAccount_standing h).congr (publishWindow_sameStanding _ _ _)

/-- An admitted Reconcile is not by a fenced incarnation. -/
theorem Admitted.permitted [Journal J] {e : CreditEngine J} {r : CreditRequest} {a : AccountState}
    (h : Admitted e r a) : Permitted a r := by
  intro hop
  have hbound := (bound_of_bindAuthority h.bound).incarnation
  unfold bindIncarnation at hbound
  rw [if_pos hop] at hbound
  cases hfenced : a.isFenced r.authority.incarnation with
  | false => rfl
  | true =>
    simp only [hfenced, if_true] at hbound
    exact absurd hbound (by simp)

/-- **Step lemma.**  Every call keeps the invariant of every account. -/
theorem apply_standing [Journal J] {e : CreditEngine J} (h : AllStanding e.accounts)
    (r : CreditRequest) : AllStanding (e.apply r).2.accounts := by
  have hdecision : ∀ a, Admitted e r a → Standing r.authority.account (e.decision a r).account :=
    fun a hadmitted => decision_standing (h _ a hadmitted.found) hadmitted.permitted
  cases (apply_accounts e r).1 with
  | same _ accounts =>
    rw [accounts]
    exact h
  | rejected a hadmitted s a' hd _ accounts =>
    have ha' := hdecision a hadmitted
    rw [hd] at ha'
    rw [accounts]
    exact h.insert ha'
  | opened hopens _ accounts =>
    rw [accounts]
    exact h.insert (publishedOpen_standing hopens)
  | refused a hadmitted s a' hd _ accounts =>
    have ha' := hdecision a hadmitted
    rw [hd] at ha'
    rw [accounts]
    exact h.insert (ha'.congr (refusedAccount_sameStanding e.limits a' r _))
  | refusalUndone a hadmitted s a' hd _ _ accounts =>
    have ha' := hdecision a hadmitted
    rw [hd] at ha'
    rw [accounts]
    exact h.insert ha'
  | applied a hadmitted a' hd _ accounts =>
    have ha' := hdecision a hadmitted
    rw [hd] at ha'
    rw [accounts]
    exact h.insert (ha'.congr (appliedAccount_sameStanding a r a'))
  | undone a hadmitted a' hd _ _ accounts =>
    rw [accounts]
    exact h.insert (restoredAccount_standing (h _ a hadmitted.found) hadmitted.permitted hd)

end CreditEngine

end CreditFabric
