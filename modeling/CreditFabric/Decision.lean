import CreditFabric.Engine

namespace CreditFabric

open Std (ExtTreeMap)

/-!
# What a decision does to its account

`decideControl_cases`, `decideLedger_cases` and `decideReconcile_cases` list every result of
the three decision functions, with the guards that lead to it.  Two of the cases are
irregular:

* a Fence of an unknown target may be rejected after the target's record has been created
  (`FenceLeak`);
* an Issue may be refused after it has written a producer, consumer or grant binding
  (`refusedBound`).
-/

/-- The account with one incarnation record written. -/
def AccountState.setIncarnation (a : AccountState) (id : IncarnationId)
    (record : IncarnationRecord) : AccountState :=
  { a with incarnations := a.incarnations.insert id record }

/-- The guards of a Fence that is rejected after its target's record has been created: the
    target is unknown, the incarnation budget has room, the fence budget has none. -/
structure FenceLeak (limits : EngineLimits) (a : AccountState) (r : CreditRequest) : Prop where
  op : r.op = .fence
  target : isSet r.target = true
  cause : r.fenceCause ≠ .ok
  unfenced : a.isFenced r.target = false
  unknown : a.incarnations[r.target]? = none
  room : a.incarnations.size < limits.maxIncarnationsPerAccount
  full : limits.maxFencesPerAccount ≤ a.fences.length

/-- The fence an applied Fence adds. -/
def fenceOf (a : AccountState) (r : CreditRequest) : FenceRecord where
  incarnation := r.target
  epoch := a.epoch
  generation := a.generation
  cause := r.fenceCause
  sequence := r.sequence
  fencedCredit := a.view.inFlight - a.view.stale

/-- The era an applied AdvanceEpoch or Rotate moves to. -/
def nextEpoch (a : AccountState) (r : CreditRequest) : EpochId :=
  if r.op = .rotate then r.count else a.epoch + 1

/-! ### Control operations -/

/-- Everything the switch of `decide_control_locked` can return. -/
inductive ControlCase (limits : EngineLimits) (a : AccountState) (r : CreditRequest) :
    Decision → Prop
  | rejected (s : Status) : ControlCase limits a r (.reject s a)
  | leaked (h : FenceLeak limits a r) (s : Status) :
      ControlCase limits a r (.reject s (a.setIncarnation r.target { id := r.target }))
  | refused (s : Status) (op : r.op ≠ .advanceEpoch ∧ r.op ≠ .rotate) :
      ControlCase limits a r (.refuse s a)
  | exhausted (op : r.op = .exhaust) : ControlCase limits a r
      (.proceed { a with hardExhausted := true, exhaustionCause := r.fenceCause })
  | cleared (op : r.op = .clearExhaustion) : ControlCase limits a r
      (.proceed { a with hardExhausted := false, exhaustionCause := .ok })
  | resized (op : r.op = .setCapacity) (plan : LedgerPlan)
      (h : (LedgerPlan.start a.capacity a.totals).setCapacity r.newCapacity a.config.maxCapacity
        a.config.rules.allowCapacityGrowth = (true, plan)) :
      ControlCase limits a r (.proceed { a with capacity := plan.capacity })
  | advanced (op : r.op = .advanceEpoch ∨ r.op = .rotate) (plan : LedgerPlan)
      (h : (LedgerPlan.start a.capacity a.totals).quarantineInFlight = (true, plan)) :
      ControlCase limits a r (.proceed { a with
        totals := plan.totals, epoch := nextEpoch a r,
        generation := a.generation + 1 }.forgetLiveness)
  | retired (op : r.op = .retire) (plan : LedgerPlan)
      (h : (LedgerPlan.start a.capacity a.totals).retireStale r.count = (true, plan)) :
      ControlCase limits a r (.proceed { a with totals := plan.totals })
  | revalidated (op : r.op = .revalidate) (plan : LedgerPlan)
      (h : (if r.decision = .toReturned then
          (LedgerPlan.start a.capacity a.totals).revalidateToReturned r.count
        else (LedgerPlan.start a.capacity a.totals).revalidateToConsumed r.count) =
          (true, plan)) :
      ControlCase limits a r (.proceed { a with totals := plan.totals })
  | fenced (op : r.op = .fence) (target : isSet r.target = true)
      (unfenced : a.isFenced r.target = false)
      (room : a.incarnations[r.target]? = none →
        a.incarnations.size < limits.maxIncarnationsPerAccount)
      (budget : a.fences.length < limits.maxFencesPerAccount) :
      ControlCase limits a r (.proceed { a.setIncarnation r.target
        { (a.incarnations[r.target]?).getD { id := r.target } with
          state := .fenced, fencedAtSequence := r.sequence } with
        fences := a.fences ++ [fenceOf a r] })
  | retiredIncarnation (op : r.op = .retireIncarnation) (target : isSet r.target = true)
      (record : IncarnationRecord) (found : a.incarnations[r.target]? = some record)
      (state : record.state ≠ .fenced) :
      ControlCase limits a r
        (.proceed (a.setIncarnation r.target { record with state := .retired }))

/-- A plan of one mutator refuses or proceeds, and says which. -/
theorem planned_cases {limits : EngineLimits} {a : AccountState} {r : CreditRequest}
    {mutate : LedgerPlan → Bool × LedgerPlan} {commit : LedgerPlan → AccountState}
    (hop : r.op ≠ .advanceEpoch ∧ r.op ≠ .rotate)
    (h : ∀ plan, mutate (.start a.capacity a.totals) = (true, plan) →
      ControlCase limits a r (.proceed (commit plan))) :
    ControlCase limits a r (planned a mutate commit) := by
  unfold planned
  cases hm : mutate (.start a.capacity a.totals) with
  | mk ok plan =>
    cases ok with
    | false => exact .refused _ hop
    | true => exact h plan hm

/-- The ends of `decide_control_locked`. -/
theorem decideControl_cases (limits : EngineLimits) (a : AccountState) (r : CreditRequest) :
    ControlCase limits a r (decideControl limits a r) := by
  unfold decideControl
  cases hop : r.op with
  | exhaust =>
    simp only
    by_cases hex : a.hardExhausted = true
    · rw [if_pos hex]
      exact .refused _ (by simp [hop])
    · rw [if_neg hex]
      by_cases hcause : r.fenceCause = .ok
      · rw [if_pos hcause]
        exact .rejected _
      · rw [if_neg hcause]
        exact .exhausted hop
  | clearExhaustion =>
    simp only
    by_cases hex : a.hardExhausted = true
    · simp only [hex, Bool.not_true, Bool.false_eq_true, if_false]
      exact .cleared hop
    · simp only [hex, Bool.not_false, if_true]
      exact .refused _ (by simp [hop])
  | setCapacity => exact planned_cases (by simp [hop]) fun plan h => .resized hop plan h
  | advanceEpoch =>
    simp only [addOverflow, reduceCtorEq, if_false, false_and]
    by_cases h₁ : a.epoch + 1 < a.epoch
    · simp only [h₁, decide_true, if_true]
      exact .rejected _
    · by_cases h₂ : a.generation + 1 < a.generation
      · simp only [h₁, h₂, decide_true, decide_false, Bool.false_eq_true, if_true, if_false]
        exact .rejected _
      · simp only [h₁, h₂, decide_false, Bool.false_eq_true, if_false]
        cases hq : (LedgerPlan.start a.capacity a.totals).quarantineInFlight with
        | mk ok plan =>
          cases ok with
          | false => exact .rejected _
          | true =>
            have hcase : ControlCase limits a r _ := .advanced (.inl hop) plan hq
            rw [show nextEpoch a r = a.epoch + 1 by simp [nextEpoch, hop]] at hcase
            exact hcase
  | rotate =>
    simp only [addOverflow, if_true, true_and]
    by_cases h₁ : r.count ≤ a.epoch
    · simp only [h₁, if_true]
      exact .rejected _
    · by_cases h₂ : a.generation + 1 < a.generation
      · simp only [h₁, h₂, decide_true, Bool.false_eq_true, if_true, if_false]
        exact .rejected _
      · simp only [h₁, h₂, decide_false, Bool.false_eq_true, if_false]
        cases hq : (LedgerPlan.start a.capacity a.totals).quarantineInFlight with
        | mk ok plan =>
          cases ok with
          | false => exact .rejected _
          | true =>
            have hcase : ControlCase limits a r _ := .advanced (.inr hop) plan hq
            rw [show nextEpoch a r = r.count by simp [nextEpoch, hop]] at hcase
            exact hcase
  | retire => exact planned_cases (by simp [hop]) fun plan h => .retired hop plan h
  | revalidate =>
    simp only
    by_cases hdec : r.decision = .none
    · rw [if_pos hdec]
      exact .rejected _
    · rw [if_neg hdec]
      exact planned_cases (by simp [hop]) fun plan h => .revalidated hop plan h
  | fence =>
    simp only
    by_cases htarget : isSet r.target = true
    · by_cases hcause : r.fenceCause = .ok
      · simp only [htarget, hcause, Bool.not_true, Bool.false_eq_true, if_true, if_false]
        exact .rejected _
      by_cases hfenced : a.isFenced r.target = true
      · simp only [htarget, hcause, hfenced, Bool.not_true, Bool.false_eq_true, if_true,
          if_false]
        exact .refused _ (by simp [hop])
      simp only [htarget, hcause, hfenced, Bool.not_true, Bool.false_eq_true, if_false]
      rw [Bool.not_eq_true] at hfenced
      by_cases hroom : (a.findIncarnation r.target).isNone = true ∧
          a.incarnations.size ≥ limits.maxIncarnationsPerAccount
      · rw [if_pos hroom]
        exact .rejected _
      rw [if_neg hroom]
      have hroom' : a.incarnations[r.target]? = none →
          a.incarnations.size < limits.maxIncarnationsPerAccount := by
        intro hnone
        by_contra hlt
        exact hroom ⟨by simp [AccountState.findIncarnation, hnone], Nat.not_lt.mp hlt⟩
      by_cases hbudget : a.fences.length ≥ limits.maxFencesPerAccount
      · rw [if_pos hbudget]
        -- the record has been written: no change for a known target, a trace for a fresh one
        cases hfind : a.incarnations[r.target]? with
        | some record =>
          have hsame : a.incarnations.insert r.target record = a.incarnations :=
            Lib.insert_eq_self _ hfind
          simp only [AccountState.findIncarnation, hfind, Option.getD_some, hsame]
          exact .rejected _
        | none =>
          simp only [AccountState.findIncarnation, hfind, Option.getD_none]
          exact .leaked ⟨hop, htarget, hcause, hfenced, hfind, hroom' hfind, hbudget⟩ _
      · rw [if_neg hbudget]
        have hcase : ControlCase limits a r _ :=
          .fenced hop htarget hfenced hroom' (Nat.not_le.mp hbudget)
        simp only [AccountState.setIncarnation, Lib.insert_insert_self] at hcase ⊢
        exact hcase
    · simp only [htarget, Bool.not_false, if_true]
      exact .rejected _
  | retireIncarnation =>
    simp only
    by_cases htarget : isSet r.target = true
    · simp only [htarget, Bool.not_true, Bool.false_eq_true, if_false]
      cases hfind : a.findIncarnation r.target with
      | none => exact .rejected _
      | some record =>
        simp only
        by_cases hstate : record.state = .fenced
        · rw [if_pos hstate]
          exact .refused _ (by simp [hop])
        · rw [if_neg hstate]
          exact .retiredIncarnation hop htarget record hfind hstate
    · simp only [htarget, Bool.not_false, if_true]
      exact .rejected _
  | _ => exact .rejected _

/-! ### Bindings of an Issue -/

/-- A set request against another value that is held. -/
def Mismatch (requested held : UInt64) : Prop :=
  isSet requested = true ∧ isSet held = true ∧ held ≠ requested

instance (requested held : UInt64) : Decidable (Mismatch requested held) :=
  inferInstanceAs (Decidable (_ ∧ _))

/-- The value a binding check that passes leaves in the record. -/
def written (requested held : UInt64) : UInt64 := if isSet requested then requested else held

/-- A binding to another value than the one held is refused. -/
theorem bindField_of_mismatch {requested held : UInt64} (h : Mismatch requested held) :
    bindField requested held = .error held := by
  obtain ⟨hr, hh, hne⟩ := h
  simp [bindField, hr, hh, hne]

/-- A binding that does not contradict is written. -/
theorem bindField_of_not_mismatch {requested held : UInt64} (h : ¬ Mismatch requested held) :
    bindField requested held = .ok (written requested held) := by
  unfold bindField written
  by_cases hr : isSet requested = true
  · by_cases hheld : isSet held = true
    · have heq : held = requested := by
        by_contra hne
        exact h ⟨hr, hheld, hne⟩
      simp [hr, heq]
    · simp [hr, hheld]
  · simp [hr]

/-- Where the three checks of `bindIssue` stop, with the record as written up to there. -/
inductive BindCase (b : IncarnationRecord) (r : CreditRequest) :
    IncarnationRecord × Option Status → Prop
  | producer (h : Mismatch r.producer b.producer) (s : Status) : BindCase b r (b, some s)
  | consumer (hp : ¬ Mismatch r.producer b.producer) (h : Mismatch r.consumer b.consumer)
      (s : Status) :
      BindCase b r ({ b with producer := written r.producer b.producer }, some s)
  | grant (hp : ¬ Mismatch r.producer b.producer) (hc : ¬ Mismatch r.consumer b.consumer)
      (h : Mismatch r.grant b.grant) (s : Status) :
      BindCase b r ({ b with producer := written r.producer b.producer,
                             consumer := written r.consumer b.consumer }, some s)
  | bound (hp : ¬ Mismatch r.producer b.producer) (hc : ¬ Mismatch r.consumer b.consumer)
      (hg : ¬ Mismatch r.grant b.grant) :
      BindCase b r ({ b with producer := written r.producer b.producer,
                             consumer := written r.consumer b.consumer,
                             grant := written r.grant b.grant }, none)

/-- The ends of `bind_issue`. -/
theorem bindIssue_cases (b : IncarnationRecord) (r : CreditRequest) :
    BindCase b r (bindIssue b r) := by
  unfold bindIssue
  by_cases hp : Mismatch r.producer b.producer
  · rw [bindField_of_mismatch hp]
    exact .producer hp _
  rw [bindField_of_not_mismatch hp]
  by_cases hc : Mismatch r.consumer b.consumer
  · simp only [bindField_of_mismatch hc]
    exact .consumer hp hc _
  simp only [bindField_of_not_mismatch hc]
  by_cases hg : Mismatch r.grant b.grant
  · simp only [bindField_of_mismatch hg]
    exact .grant hp hc hg _
  simp only [bindField_of_not_mismatch hg]
  exact .bound hp hc hg

/-- The bindings are the only fields `bindIssue` writes. -/
theorem bindIssue_eq (b : IncarnationRecord) (r : CreditRequest) :
    (bindIssue b r).1 = { b with
      producer := (bindIssue b r).1.producer, consumer := (bindIssue b r).1.consumer,
      grant := (bindIssue b r).1.grant } := by
  have hcase := bindIssue_cases b r
  generalize bindIssue b r = result at hcase ⊢
  cases hcase <;> rfl

/-! ### Data operations -/

/-- Everything the ledger part of `decide_data_locked` can return. -/
inductive LedgerCase (a : AccountState) (r : CreditRequest) : Decision → Prop
  | rejected (s : Status) : LedgerCase a r (.reject s a)
  | refused (s : Status) (op : r.op = .issue → a.hardExhausted = true) :
      LedgerCase a r (.refuse s a)
  | refusedBound (op : r.op = .issue) (open_ : a.hardExhausted = false) (b : IncarnationRecord)
      (found : a.incarnations[r.authority.incarnation]? = some b) (s : Status)
      (h : (bindIssue b r).2 ≠ none ∨
        (ledgerApply (.start a.capacity a.totals) a r).1.ok = false) :
      LedgerCase a r
        (.refuse s (a.setIncarnation r.authority.incarnation (bindIssue b r).1))
  | issued (op : r.op = .issue) (open_ : a.hardExhausted = false) (b : IncarnationRecord)
      (found : a.incarnations[r.authority.incarnation]? = some b)
      (bound : (bindIssue b r).2 = none)
      (h : (ledgerApply (.start a.capacity a.totals) a r).1.ok = true) :
      LedgerCase a r
        (.proceed { a.setIncarnation r.authority.incarnation (bindIssue b r).1 with
          totals := (ledgerApply (.start a.capacity a.totals) a r).2.totals })
  | applied (op : opIsLedger r.op = true) (notIssue : r.op ≠ .issue)
      (h : (ledgerApply (.start a.capacity a.totals) a r).1.ok = true) :
      LedgerCase a r (.proceed { a with
        totals := (ledgerApply (.start a.capacity a.totals) a r).2.totals })

/-- The ledger reads only the policy of an account. -/
theorem ledgerApply_congr {a a' : AccountState} (h : a'.config = a.config) (plan : LedgerPlan)
    (r : CreditRequest) : ledgerApply plan a' r = ledgerApply plan a r := by
  unfold ledgerApply
  rw [h]

/-- The ends of `decide_data_locked`. -/
theorem decideLedger_cases (a : AccountState) (r : CreditRequest) :
    LedgerCase a r (decideLedger a r) := by
  unfold decideLedger
  by_cases hledger : opIsLedger r.op = true
  swap
  · simp only [hledger, Bool.not_false, if_true]
    exact .rejected _
  simp only [hledger, Bool.not_true, Bool.false_eq_true, if_false]
  by_cases hissue : r.op = .issue
  · by_cases hex : a.hardExhausted = true
    · rw [if_pos ⟨hex, hissue⟩]
      exact .refused _ fun _ => hex
    rw [if_neg (fun h => hex h.1)]
    rw [Bool.not_eq_true] at hex
    simp only [hissue, if_true, AccountState.findIncarnation]
    cases hfind : a.incarnations[r.authority.incarnation]? with
    | none => exact .rejected _
    | some b =>
      simp only [Option.map_some]
      have hsame : ledgerApply (.start a.capacity a.totals)
          (a.setIncarnation r.authority.incarnation (bindIssue b r).1) r =
          ledgerApply (.start a.capacity a.totals) a r := ledgerApply_congr rfl _ _
      cases hbind : (bindIssue b r).2 with
      | some s => exact .refusedBound hissue hex b hfind s (.inl (by rw [hbind]; simp))
      | none =>
        simp only [AccountState.setIncarnation] at hsame
        simp only [hsame]
        cases hok : (ledgerApply (.start a.capacity a.totals) a r).1.ok with
        | false => exact .refusedBound hissue hex b hfind _ (.inr hok)
        | true => exact .issued hissue hex b hfind hbind hok
  · rw [if_neg (fun h => hissue h.2)]
    simp only [hissue, if_false]
    cases hok : (ledgerApply (.start a.capacity a.totals) a r).1.ok with
    | false => exact .refused _ fun h => absurd h hissue
    | true => exact .applied hledger hissue hok

/-- Everything a Reconcile can return. -/
inductive ReconcileCase (challenge : ReconciliationChallenge) (a : AccountState)
    (r : CreditRequest) : Decision → Prop
  | rejected (s : Status) : ReconcileCase challenge a r (.reject s a)
  | reconciled (proof : challenge.verify r.presenter r.authority r.proof = true) :
      ReconcileCase challenge a r (.proceed (a.setIncarnation r.authority.incarnation
        (markReconciled ((a.incarnations[r.authority.incarnation]?).getD (freshRecord r))
          a.epoch a.generation r.proof)))

/-- The ends of a Reconcile. -/
theorem decideReconcile_cases (challenge : ReconciliationChallenge) (a : AccountState)
    (r : CreditRequest) : ReconcileCase challenge a r (decideReconcile challenge a r) := by
  unfold decideReconcile
  cases hv : challenge.verify r.presenter r.authority r.proof with
  | false => exact .rejected _
  | true => exact .reconciled hv

/-! ### Bindings that survive a refusal -/

/-- A binding check that passes and writes a value where none was held. -/
def NewlyBound (requested held : UInt64) : Prop :=
  isSet requested = true ∧ isSet held = false

/-- What is held stays unless the field is newly bound. -/
theorem written_eq_iff {requested held : UInt64} (h : ¬ Mismatch requested held) :
    written requested held = held ↔ ¬ NewlyBound requested held := by
  unfold written NewlyBound
  by_cases hr : isSet requested = true
  · by_cases hheld : isSet held = true
    · have heq : held = requested := by
        by_contra hne
        exact h ⟨hr, hheld, hne⟩
      simp [heq]
    · have hne : requested ≠ held := by
        intro heq
        rw [heq] at hr
        exact hheld hr
      simp [hr, hheld, hne]
  · simp [hr]

/-- An Issue that is refused after it has bound a field: the consumer or the grant does not
    match, or the ledger refuses, and a check before that point wrote into an unset field. -/
def LeaksBinding (a : AccountState) (r : CreditRequest) : Prop :=
  r.op = .issue ∧ a.hardExhausted = false ∧
  ∃ b, a.incarnations[r.authority.incarnation]? = some b ∧ ¬ Mismatch r.producer b.producer ∧
    (Mismatch r.consumer b.consumer ∧ NewlyBound r.producer b.producer ∨
      ¬ Mismatch r.consumer b.consumer ∧ Mismatch r.grant b.grant ∧
        (NewlyBound r.producer b.producer ∨ NewlyBound r.consumer b.consumer) ∨
      ¬ Mismatch r.consumer b.consumer ∧ ¬ Mismatch r.grant b.grant ∧
        (ledgerApply (.start a.capacity a.totals) a r).1.ok = false ∧
        (NewlyBound r.producer b.producer ∨ NewlyBound r.consumer b.consumer ∨
          NewlyBound r.grant b.grant))

/-- A record written over itself changes nothing. -/
theorem setIncarnation_eq_self_iff {a : AccountState} {id : IncarnationId}
    {b b' : IncarnationRecord} (found : a.incarnations[id]? = some b) :
    a.setIncarnation id b' = a ↔ b' = b := by
  constructor
  · intro h
    have hget : (a.setIncarnation id b').incarnations[id]? = some b' :=
      ExtTreeMap.getElem?_insert_self
    rw [h, found, Option.some.injEq] at hget
    exact hget.symm
  · rintro rfl
    unfold AccountState.setIncarnation
    rw [Lib.insert_eq_self _ found]

/-- A refused decision leaves the account as it was exactly when no binding leaks. -/
theorem LedgerCase.refuse_account_iff {a a' : AccountState} {r : CreditRequest} {s : Status}
    (h : LedgerCase a r (.refuse s a')) : a' = a ↔ ¬ LeaksBinding a r := by
  cases h with
  | refused _ op =>
    refine iff_of_true rfl ?_
    rintro ⟨hissue, hopen, -⟩
    rw [op hissue] at hopen
    exact absurd hopen (by decide)
  | refusedBound op hopen b found _ hrefused =>
    rw [setIncarnation_eq_self_iff found]
    have hleaks : LeaksBinding a r ↔ ¬ Mismatch r.producer b.producer ∧
        (Mismatch r.consumer b.consumer ∧ NewlyBound r.producer b.producer ∨
          ¬ Mismatch r.consumer b.consumer ∧ Mismatch r.grant b.grant ∧
            (NewlyBound r.producer b.producer ∨ NewlyBound r.consumer b.consumer) ∨
          ¬ Mismatch r.consumer b.consumer ∧ ¬ Mismatch r.grant b.grant ∧
            (ledgerApply (.start a.capacity a.totals) a r).1.ok = false ∧
            (NewlyBound r.producer b.producer ∨ NewlyBound r.consumer b.consumer ∨
              NewlyBound r.grant b.grant)) := by
      simp only [LeaksBinding, op, hopen, found, Option.some.injEq, true_and,
        exists_eq_left']
    rw [hleaks]
    have hcase := bindIssue_cases b r
    generalize bindIssue b r = result at hcase hrefused
    -- the record is unchanged iff every field written so far held its value already
    cases hcase with
    | producer hp => simp [hp]
    | consumer hp hc =>
      simp [hp, hc, IncarnationRecord.ext_iff, written_eq_iff hp]
    | grant hp hc hg =>
      simp [hp, hc, hg, IncarnationRecord.ext_iff, written_eq_iff hp, written_eq_iff hc]
    | bound hp hc hg =>
      have hok := hrefused.resolve_left (by simp)
      simp [hp, hc, hg, hok, IncarnationRecord.ext_iff, written_eq_iff hp, written_eq_iff hc,
        written_eq_iff hg]

/-- An Issue that proceeds leaks nothing: no check failed and the ledger accepted it. -/
theorem LedgerCase.not_leaks_of_proceed {a a' : AccountState} {r : CreditRequest}
    (h : LedgerCase a r (.proceed a')) : ¬ LeaksBinding a r := by
  rintro ⟨hissue, -, b', found', -, hleak⟩
  cases h with
  | applied _ notIssue _ => exact notIssue hissue
  | issued _ _ b found bound hok =>
    rw [found, Option.some.injEq] at found'
    subst found'
    have hcase := bindIssue_cases b r
    generalize bindIssue b r = result at hcase bound
    cases hcase with
    | bound hp hc hg => simp [hc, hg, hok] at hleak
    | _ => simp at bound

end CreditFabric
