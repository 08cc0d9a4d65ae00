import CreditFabric.Accounts
import CreditFabric.Run

namespace CreditFabric

open Std (ExtTreeMap)

/-!
# Isolation of accounts

What a call does to the account it addresses is computed from that account, the configuration
of the engine and the request; the shared state shows only through a journal that fails and
through the account budget.  `apply_isolated` is the step lemma, for two engines that agree on
the account; `runs_isolated` compares two runs that differ in the requests for other accounts.
-/

namespace CreditEngine

variable {J J₁ J₂ : Type} [Journal J] [Journal J₁] [Journal J₂]

/-- The engines agree on the account under the key and on what decides its calls. -/
structure SameSlot (key : UInt64) (e₁ : CreditEngine J₁) (e₂ : CreditEngine J₂) : Prop where
  limits : e₁.limits = e₂.limits
  operatorIncarnation : e₁.operatorIncarnation = e₂.operatorIncarnation
  challenge : e₁.challenge = e₂.challenge
  recovered : e₁.recovered = e₂.recovered
  account : e₁.accounts[key]? = e₂.accounts[key]?

/-- The call finds room for one more account and no journal operation fails in it. -/
def Undisturbed (e : CreditEngine J) (r : CreditRequest) : Prop :=
  e.accounts.size < e.limits.maxAccounts ∧ (e.apply r).2.journalFailed = false

instance (e : CreditEngine J) (r : CreditRequest) : Decidable (Undisturbed e r) :=
  inferInstanceAs (Decidable (_ ∧ _))

/-! ### The two commit paths -/

/-- The outcome of an admitted request, by its decision. -/
def decidedOutcome (a : AccountState) (r : CreditRequest) : Decision → CreditOutcome
  | .reject s _ => (admittedOutcome r a).refused s.reason s.detail
  | .refuse s a' => refusalOutcome a r s a'
  | .proceed a' => applicationOutcome a r a'

/-- The account behind an admitted request, by its decision. -/
def decidedAccount (limits : EngineLimits) (a : AccountState) (r : CreditRequest) :
    Decision → AccountState
  | .reject _ a' => a'
  | .refuse s a' => refusedAccount limits a' r (refusalOutcome a r s a')
  | .proceed a' => appliedAccount a r a'

/-- A settled call that leaves the engine healthy has been published. -/
theorem settle_of_healthy {e : CreditEngine J} {r : CreditRequest} {o : CreditOutcome}
    {a : AccountState} {c : Bool} {rollback publish : CreditEngine J → CreditEngine J}
    (h : (e.settle r o a c rollback publish).2.journalFailed = false) :
    e.settle r o a c rollback publish = (o, publish (e.persistLocked r o a c).2) := by
  cases hok : (e.persistLocked r o a c).1.ok with
  | false =>
    rw [settle_of_failed hok] at h
    exact absurd h (by simp)
  | true => exact settle_of_ok hok

/-- An Open whose commit did not fail is published. -/
theorem settleOpen_of_healthy {e : CreditEngine J} {r : CreditRequest} (hopens : Opens e r)
    (h : (e.settleOpen r).2.journalFailed = false) :
    (e.settleOpen r).1 = e.openOutcome r ∧
      (e.settleOpen r).2.accounts[r.authority.account]? = some (e.publishedOpen r) := by
  have hkey : (openedAccount e.limits r).account = r.authority.account := hopens.fresh.2
  unfold settleOpen at h ⊢
  rw [settle_of_healthy h]
  refine ⟨rfl, ?_⟩
  show (ExtTreeMap.insert _ (openedAccount e.limits r).account _)[_]? = _
  rw [hkey, ExtTreeMap.getElem?_insert_self]
  rfl

/-- A decision whose commit did not fail is published. -/
theorem settleDecision_of_healthy {e : CreditEngine J} {r : CreditRequest} {a : AccountState}
    (h : (e.settleDecision a r).2.journalFailed = false) :
    (e.settleDecision a r).1 = decidedOutcome a r (e.decision a r) ∧
      (e.settleDecision a r).2.accounts[r.authority.account]? =
        some (decidedAccount e.limits a r (e.decision a r)) := by
  unfold settleDecision follow at h ⊢
  cases hd : e.decision a r with
  | reject s a' => exact ⟨rfl, ExtTreeMap.getElem?_insert_self⟩
  | refuse s a' =>
    rw [hd] at h
    simp only [finishDecided] at h ⊢
    rw [settle_of_healthy h]
    refine ⟨rfl, ?_⟩
    unfold publishRefused
    simp only [put_accounts, ExtTreeMap.getElem?_insert_self]
    rw [(persistLocked_frame _ _ _ _ _).limits]
    rfl
  | proceed a' =>
    rw [hd] at h
    simp only [commitApplied] at h ⊢
    rw [settle_of_healthy h]
    exact ⟨rfl, ExtTreeMap.getElem?_insert_self⟩

/-! ### One call -/

/-- The checks of an Open, as far as the account's own slot is concerned. -/
theorem validateOpen_congr {limits : EngineLimits} {challenge : ReconciliationChallenge}
    {accounts₁ accounts₂ : ExtTreeMap UInt64 AccountState} {r : CreditRequest}
    (hslot : accounts₁[r.authority.account]? = accounts₂[r.authority.account]?)
    (h₁ : accounts₁.size < limits.maxAccounts) (h₂ : accounts₂.size < limits.maxAccounts) :
    validateOpen limits challenge accounts₁ r = validateOpen limits challenge accounts₂ r := by
  unfold validateOpen
  simp only [ExtTreeMap.contains_eq_isSome_getElem?, hslot, Nat.not_le.mpr h₁, ge_iff_le,
    Nat.not_le.mpr h₂, if_false]

/-- A healthy engine behind a call was healthy in front of it. -/
theorem healthy_of_apply {e : CreditEngine J} {r : CreditRequest}
    (h : (e.apply r).2.journalFailed = false) : e.journalFailed = false := by
  cases hfailed : e.journalFailed with
  | false => rfl
  | true =>
    rw [journalFailed_apply hfailed, hfailed] at h
    exact h

/-- An accepted Open has the same effect on the slot of both engines. -/
theorem opened_isolated {e₁ : CreditEngine J₁} {e₂ : CreditEngine J₂} {r : CreditRequest}
    (h : SameSlot r.authority.account e₁ e₂) (hopens₁ : Opens e₁ r) (hopens₂ : Opens e₂ r)
    (h₁ : (e₁.apply r).2.journalFailed = false) (h₂ : (e₂.apply r).2.journalFailed = false) :
    (e₁.apply r).1 = (e₂.apply r).1 ∧
      (e₁.apply r).2.accounts[r.authority.account]? =
        (e₂.apply r).2.accounts[r.authority.account]? := by
  rw [apply_of_opens hopens₁] at h₁ ⊢
  rw [apply_of_opens hopens₂] at h₂ ⊢
  obtain ⟨houtcome₁, haccount₁⟩ := settleOpen_of_healthy hopens₁ h₁
  obtain ⟨houtcome₂, haccount₂⟩ := settleOpen_of_healthy hopens₂ h₂
  have hsame : e₁.openOutcome r = e₂.openOutcome r := by
    unfold openOutcome
    rw [h.limits]
  rw [houtcome₁, houtcome₂, haccount₁, haccount₂]
  refine ⟨hsame, ?_⟩
  unfold publishedOpen
  rw [hsame, h.limits]

/-- So has an admitted request. -/
theorem decided_isolated {e₁ : CreditEngine J₁} {e₂ : CreditEngine J₂} {r : CreditRequest}
    {a : AccountState} (h : SameSlot r.authority.account e₁ e₂) (hadm₁ : Admitted e₁ r a)
    (hadm₂ : Admitted e₂ r a) (h₁ : (e₁.apply r).2.journalFailed = false)
    (h₂ : (e₂.apply r).2.journalFailed = false) :
    (e₁.apply r).1 = (e₂.apply r).1 ∧
      (e₁.apply r).2.accounts[r.authority.account]? =
        (e₂.apply r).2.accounts[r.authority.account]? := by
  rw [apply_of_admitted hadm₁] at h₁ ⊢
  rw [apply_of_admitted hadm₂] at h₂ ⊢
  obtain ⟨houtcome₁, haccount₁⟩ := settleDecision_of_healthy h₁
  obtain ⟨houtcome₂, haccount₂⟩ := settleDecision_of_healthy h₂
  have hsame : e₁.decision a r = e₂.decision a r := by
    unfold decision
    rw [h.limits, h.challenge]
  rw [houtcome₁, houtcome₂, haccount₁, haccount₂, hsame, h.limits]
  exact ⟨rfl, rfl⟩

/-- A request that reaches its account. -/
structure Found (e : CreditEngine J) (r : CreditRequest) (a : AccountState) : Prop where
  recovered : e.recovered = true
  healthy : e.journalFailed = false
  valid : validateRequest e.limits r = none
  notDescribe : r.op ≠ .describe
  notOpen : r.op ≠ .open_
  found : e.accounts[r.authority.account]? = some a

/-- A request to an account that is there. -/
theorem apply_of_found {e : CreditEngine J} {r : CreditRequest} {a : AccountState}
    (h : Found e r a) : e.apply r = e.applyToAccount a r (.ofRequest r) := by
  simp only [apply, applyLocked, h.recovered, h.healthy, h.valid, h.notDescribe, h.notOpen,
    h.found, Bool.not_true, Bool.false_eq_true, if_false]

/-- A request that reaches its account is answered alike, or admitted on both engines. -/
private theorem found_isolated {e₁ : CreditEngine J₁} {e₂ : CreditEngine J₂} {r : CreditRequest}
    {a : AccountState} (h : SameSlot r.authority.account e₁ e₂) (hfound₁ : Found e₁ r a)
    (hfound₂ : Found e₂ r a)
    (hdecided : Admitted e₁ r a → Admitted e₂ r a → (e₁.apply r).1 = (e₂.apply r).1 ∧
      (e₁.apply r).2.accounts[r.authority.account]? =
        (e₂.apply r).2.accounts[r.authority.account]?) :
    (e₁.apply r).1 = (e₂.apply r).1 ∧
      (e₁.apply r).2.accounts[r.authority.account]? =
        (e₂.apply r).2.accounts[r.authority.account]? := by
  have hslot : e₁.accounts[r.authority.account]? = e₂.accounts[r.authority.account]? := h.account
  cases hbound : bindAuthority e₂.limits e₂.operatorIncarnation a r with
  | some status =>
    rw [apply_of_found hfound₁, apply_of_found hfound₂]
    simp only [applyToAccount, h.limits, h.operatorIncarnation, hbound, hslot, and_self]
  | none =>
  have hbound₁ : bindAuthority e₁.limits e₁.operatorIncarnation a r = none := by
    rw [h.limits, h.operatorIncarnation, hbound]
  by_cases hplaced : placeInSequence a r = .admitted
  swap
  · -- in front of the decision the answer is read off the account
    rw [apply_of_found hfound₁, apply_of_found hfound₂]
    unfold applyToAccount
    cases hcase : placeInSequence a r with
    | admitted => exact absurd hcase hplaced
    | _ => simp only [hbound, hbound₁, hslot, and_self]
  -- a control request shows the digest it expects, if it names one
  by_cases hevidence : classify r.op = .control →
      ¬ (r.expectedState.isZero = false ∧ r.expectedState ≠ a.digest)
  · exact hdecided
      ⟨hfound₁.recovered, hfound₁.healthy, hfound₁.valid, hfound₁.notDescribe, hfound₁.notOpen,
        hfound₁.found, hbound₁, hplaced, hevidence⟩
      ⟨hfound₂.recovered, hfound₂.healthy, hfound₂.valid, hfound₂.notDescribe, hfound₂.notOpen,
        hfound₂.found, hbound, hplaced, hevidence⟩
  · rw [Classical.not_imp, not_not] at hevidence
    rw [apply_of_found hfound₁, apply_of_found hfound₂]
    simp only [applyToAccount, decideControlLocked, hbound, hbound₁, hplaced, hevidence,
      Bool.not_false, ne_eq, not_false_eq_true, and_self, if_true, hslot]

/-- Two undisturbed calls of one request have the same outcome and leave the same account, when
    the engines agree on the account it addresses. -/
theorem apply_slot {e₁ : CreditEngine J₁} {e₂ : CreditEngine J₂} {r : CreditRequest}
    (h : SameSlot r.authority.account e₁ e₂) (h₁ : Undisturbed e₁ r) (h₂ : Undisturbed e₂ r) :
    (e₁.apply r).1 = (e₂.apply r).1 ∧
      (e₁.apply r).2.accounts[r.authority.account]? =
        (e₂.apply r).2.accounts[r.authority.account]? := by
  obtain ⟨hsize₁, hlate₁⟩ := h₁
  obtain ⟨hsize₂, hlate₂⟩ := h₂
  have hhealthy₁ := healthy_of_apply hlate₁
  have hhealthy₂ := healthy_of_apply hlate₂
  rw [h.limits] at hsize₁
  have hopened := fun hopens₁ hopens₂ => opened_isolated h hopens₁ hopens₂ hlate₁ hlate₂
  have hdecided := fun a (hadm₁ : Admitted e₁ r a) (hadm₂ : Admitted e₂ r a) =>
    decided_isolated h hadm₁ hadm₂ hlate₁ hlate₂
  clear hlate₁ hlate₂
  -- both engines take the same branch in front of the account
  cases hrec : e₂.recovered with
  | false =>
    have hrec₁ := h.recovered.trans hrec
    simp only [apply, hrec, hrec₁, Bool.not_false, if_true, true_and]
    exact h.account
  | true =>
  have hrec₁ := h.recovered.trans hrec
  cases hvalid : validateRequest e₂.limits r with
  | some status =>
    simp only [apply, applyLocked, hrec, hrec₁, hhealthy₁, hhealthy₂, h.limits, hvalid,
      Bool.not_true, Bool.false_eq_true, if_false, true_and]
    exact h.account
  | none =>
  have hvalid₁ : validateRequest e₁.limits r = none := by rw [h.limits, hvalid]
  by_cases hdescribe : r.op = .describe
  · simp only [apply, applyLocked, describe, hrec, hrec₁, hhealthy₁, hhealthy₂, h.limits, hvalid,
      hdescribe, h.account, Bool.not_true, Bool.false_eq_true, if_false, if_true, and_self]
  by_cases hopen : r.op = .open_
  · cases haccept : validateOpen e₂.limits e₂.challenge e₂.accounts r with
    | some status =>
      have haccept₁ : validateOpen e₁.limits e₁.challenge e₁.accounts r = some status := by
        rw [h.limits, h.challenge, validateOpen_congr h.account hsize₁ hsize₂, haccept]
      simp only [apply, applyLocked, createAccountLocked, hrec, hrec₁, hhealthy₁, hhealthy₂, hvalid,
        hvalid₁, hopen, haccept, haccept₁, Bool.not_true, Bool.false_eq_true, if_false, if_true,
        reduceCtorEq, true_and]
      exact h.account
    | none =>
      have haccept₁ : validateOpen e₁.limits e₁.challenge e₁.accounts r = none := by
        rw [h.limits, h.challenge, validateOpen_congr h.account hsize₁ hsize₂, haccept]
      exact hopened ⟨hrec₁, hhealthy₁, hvalid₁, hopen, haccept₁⟩
        ⟨hrec, hhealthy₂, hvalid, hopen, haccept⟩
  -- behind it the answer depends on the account alone
  cases hslot : e₂.accounts[r.authority.account]? with
  | none =>
    have hslot₁ := h.account.trans hslot
    simp only [apply, applyLocked, hrec, hrec₁, hhealthy₁, hhealthy₂, hvalid, hvalid₁, hdescribe,
      hopen, hslot, hslot₁, Bool.not_true, Bool.false_eq_true, if_false, and_self]
  | some a =>
  have hslot₁ := h.account.trans hslot
  exact found_isolated h ⟨hrec₁, hhealthy₁, hvalid₁, hdescribe, hopen, hslot₁⟩
    ⟨hrec, hhealthy₂, hvalid, hdescribe, hopen, hslot⟩ (hdecided a)

/-- **Step lemma.**  Two undisturbed calls of one request, on engines that agree on the account
    it addresses, have the same outcome and agree on the account again. -/
theorem apply_isolated {e₁ : CreditEngine J₁} {e₂ : CreditEngine J₂} {r : CreditRequest}
    (h : SameSlot r.authority.account e₁ e₂) (h₁ : Undisturbed e₁ r) (h₂ : Undisturbed e₂ r) :
    (e₁.apply r).1 = (e₂.apply r).1 ∧
      SameSlot r.authority.account (e₁.apply r).2 (e₂.apply r).2 := by
  have hconfig₁ := apply_sameConfig e₁ r
  have hconfig₂ := apply_sameConfig e₂ r
  obtain ⟨houtcome, haccount⟩ := apply_slot h h₁ h₂
  refine ⟨houtcome, ?_, ?_, ?_, ?_, haccount⟩
  · rw [hconfig₁.limits, hconfig₂.limits, h.limits]
  · rw [hconfig₁.operatorIncarnation, hconfig₂.operatorIncarnation, h.operatorIncarnation]
  · rw [hconfig₁.challenge, hconfig₂.challenge, h.challenge]
  · rw [hconfig₁.recovered, hconfig₂.recovered, h.recovered]

/-! ### Runs -/

/-- An engine that is healthy behind a run was healthy in front of it. -/
theorem healthy_of_run {e : CreditEngine J} {rs : List CreditRequest}
    (h : (e.run rs).journalFailed = false) : e.journalFailed = false := by
  induction rs generalizing e with
  | nil => exact h
  | cons r rs ih => exact healthy_of_apply (ih h)

/-- The requests for one account. -/
def addressed (key : UInt64) (rs : List CreditRequest) : List CreditRequest :=
  rs.filter fun r => r.authority.account == key

/-- The outcomes of the requests for one account, in a run that has others in between. -/
def outcomesOf (key : UInt64) : CreditEngine J → List CreditRequest → List CreditOutcome
  | _, [] => []
  | e, r :: rs =>
    if r.authority.account == key then (e.apply r).1 :: outcomesOf key (e.apply r).2 rs
    else outcomesOf key (e.apply r).2 rs

omit [Journal J₂] in
/-- A request for another account leaves the slot alone. -/
theorem SameSlot.foreign {key : UInt64} {e₁ : CreditEngine J₁} {e₂ : CreditEngine J₂}
    (h : SameSlot key e₁ e₂) {r : CreditRequest} (hr : r.authority.account ≠ key) :
    SameSlot key (e₁.apply r).2 e₂ := by
  have hconfig := apply_sameConfig e₁ r
  refine ⟨hconfig.limits.trans h.limits,
    hconfig.operatorIncarnation.trans h.operatorIncarnation,
    hconfig.challenge.trans h.challenge, hconfig.recovered.trans h.recovered, ?_⟩
  rw [getElem?_apply_of_ne e₁ (Ne.symm hr)]
  exact h.account

omit [Journal J₁] [Journal J₂] in
/-- The relation is symmetric. -/
theorem SameSlot.symm {key : UInt64} {e₁ : CreditEngine J₁} {e₂ : CreditEngine J₂}
    (h : SameSlot key e₁ e₂) : SameSlot key e₂ e₁ :=
  ⟨h.limits.symm, h.operatorIncarnation.symm, h.challenge.symm, h.recovered.symm,
    h.account.symm⟩

omit [Journal J₂] in
/-- So do any number of them, and no outcome of theirs is kept. -/
theorem SameSlot.run_foreign {key : UInt64} {e₁ : CreditEngine J₁} {e₂ : CreditEngine J₂}
    (h : SameSlot key e₁ e₂) {others : List CreditRequest}
    (hothers : ∀ r ∈ others, r.authority.account ≠ key) (rest : List CreditRequest) :
    SameSlot key (e₁.run others) e₂ ∧
      outcomesOf key e₁ (others ++ rest) = outcomesOf key (e₁.run others) rest := by
  induction others generalizing e₁ with
  | nil => exact ⟨h, rfl⟩
  | cons r others ih =>
    have hr : r.authority.account ≠ key := hothers r List.mem_cons_self
    obtain ⟨hslot, houtcomes⟩ := ih (h.foreign hr) fun r' hr' =>
      hothers r' (List.mem_cons_of_mem _ hr')
    refine ⟨hslot, ?_⟩
    rw [List.cons_append, outcomesOf, if_neg (by simpa using hr), houtcomes, run_cons]

/-- **Accounts are isolated.**  Two runs on engines that agree on one account and whose requests
    for it are the same, in the same order, give these requests the same outcomes and leave the
    account in the same state, whatever is interleaved for other accounts. -/
theorem runs_isolated (key : UInt64) (e₁ : CreditEngine J₁) (e₂ : CreditEngine J₂)
    (rs₁ rs₂ : List CreditRequest) (hslot : SameSlot key e₁ e₂)
    (hsame : addressed key rs₁ = addressed key rs₂) (h₁ : EachCall Undisturbed e₁ rs₁)
    (h₂ : EachCall Undisturbed e₂ rs₂) :
    outcomesOf key e₁ rs₁ = outcomesOf key e₂ rs₂ ∧
      (e₁.run rs₁).accounts[key]? = (e₂.run rs₂).accounts[key]? := by
  induction rs₁ generalizing e₁ e₂ rs₂ with
  | nil =>
    -- the second run has requests for other accounts only
    have hothers : ∀ r ∈ rs₂, r.authority.account ≠ key := by
      intro r hr hkey
      have hmem : r ∈ addressed key rs₂ := List.mem_filter.mpr ⟨hr, by simpa using hkey⟩
      rw [← hsame] at hmem
      exact absurd hmem List.not_mem_nil
    obtain ⟨hslot', houtcomes⟩ := hslot.symm.run_foreign hothers []
    rw [List.append_nil] at houtcomes
    exact ⟨houtcomes.symm, hslot'.account.symm⟩
  | cons r rs₁ ih =>
    by_cases hr : r.authority.account = key
    · -- the second run comes to the same request behind requests for other accounts
      have hfilter : addressed key rs₂ = r :: addressed key rs₁ := by
        rw [← hsame]
        exact List.filter_cons_of_pos (by simpa using hr)
      obtain ⟨others, rest, rfl, hothers, -, hrest⟩ := List.filter_eq_cons_iff.mp hfilter
      have hothers' : ∀ r' ∈ others, r'.authority.account ≠ key := by
        intro r' hr'
        have hnot := hothers r' hr'
        simpa using hnot
      obtain ⟨hslot', houtcomes⟩ := hslot.symm.run_foreign hothers' (r :: rest)
      obtain ⟨-, hundisturbed, hrest₂⟩ := eachCall_append.mp h₂
      subst hr
      obtain ⟨houtcome, hafter⟩ := apply_isolated hslot'.symm h₁.1 hundisturbed
      obtain ⟨htail, hfinal⟩ := ih _ _ rest hafter hrest.symm h₁.2 hrest₂
      rw [houtcomes, run_append, run_cons, run_cons, outcomesOf, outcomesOf, houtcome, htail]
      simp only [beq_self_eq_true, if_true, true_and]
      exact hfinal
    · have hfilter : addressed key rs₁ = addressed key rs₂ := by
        rw [← hsame]
        exact (List.filter_cons_of_neg (by simpa using hr)).symm
      obtain ⟨houtcomes, hfinal⟩ := ih _ e₂ rs₂ (hslot.foreign hr) hfilter h₁.2 h₂
      rw [outcomesOf, if_neg (by simpa using hr)]
      exact ⟨houtcomes, hfinal⟩

/-! ### Two interleavings -/

namespace TwoAccounts

/-- A request of the operator for another account. -/
def foreign (op : OpKind) (sequence : UInt64) : CreditRequest :=
  let r := Fixture.request ⟨5, 5⟩ Fixture.me op sequence
  let authority := { r.authority with account := 0xBEEF }
  { r with authority, config := { r.config with account := 0xBEEF },
           proof := (ReconciliationChallenge.mk ⟨5, 5⟩).prove Fixture.me authority }

/-- A request to the account under watch. -/
def own (op : OpKind) (sequence : UInt64) : CreditRequest :=
  Fixture.request ⟨5, 5⟩ Fixture.me op sequence

/-- The engine of both runs. -/
def engine : CreditEngine InMemoryJournal := Fixture.boot {} {} ⟨5, 5⟩

/-- A run with this account alone. -/
def quiet : List CreditRequest := [own .open_ 1, own .issue 2, own .consume 3]

/-- A run with calls to another account between. -/
def busy : List CreditRequest :=
  [foreign .open_ 1, own .open_ 1, foreign .issue 2, foreign .consume 3, own .issue 2,
    foreign .return_ 4, own .consume 3]

/-- The account does not see the other one. -/
theorem quiet_busy : outcomesOf Fixture.account engine quiet =
      outcomesOf Fixture.account engine busy ∧
    (engine.run quiet).accounts[Fixture.account]? =
      (engine.run busy).accounts[Fixture.account]? :=
  runs_isolated Fixture.account engine engine quiet busy ⟨rfl, rfl, rfl, rfl, rfl⟩
    (by decide +kernel) (by decide +kernel) (by decide +kernel)

end TwoAccounts

end CreditEngine

end CreditFabric
