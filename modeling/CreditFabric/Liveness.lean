import CreditFabric.Deployment
import CreditFabric.Standing

namespace CreditFabric

open Std (ExtTreeMap)

/-!
# Authority is proved in this boot and this era

An incarnation is live on an account when its record is in state Reconciled and stamped with
the account's era.  `Backed` says that the current boot has seen the Open or the Reconcile that
proved this, with the proof of the boot's nonce, and nothing since that ended it; a call keeps
every Reconciled record backed (`apply_backed`), and behind a recovery there are none
(`recover_forgets`).
-/

/-- The branch-free comparison accepts exactly the proof of the boot. -/
theorem ReconciliationChallenge.verify_iff (c : ReconciliationChallenge)
    (presenter : Incarnation) (authority : AuthorityVector) (proof : Digest128) :
    c.verify presenter authority proof = true ↔ proof = compute c.nonce presenter authority := by
  unfold verify prove
  simp only [beq_iff_eq, UInt64.or_eq_zero_iff, UInt64.xor_eq_zero_iff]
  constructor
  · rintro ⟨hlo, hhi⟩
    cases proof
    rw [Digest128.mk.injEq]
    exact ⟨hlo.symm, hhi.symm⟩
  · rintro rfl
    exact ⟨rfl, rfl⟩

namespace Deployment

open CreditEngine

/-! ### Calls that prove authority and calls that end it -/

/-- The account, era and incarnation a proof is about. -/
structure Tenure where
  account : AccountId
  epoch : EpochId
  generation : Generation
  incarnation : IncarnationId

/-- The tenure a request claims. -/
def Tenure.of (r : CreditRequest) : Tenure where
  account := r.authority.account
  epoch := r.authority.epoch
  generation := r.authority.generation
  incarnation := r.authority.incarnation

/-- An applied Open or Reconcile of the tenure, with the proof of the boot. -/
structure Proves (c : ReconciliationChallenge) (t : Tenure) (proof : Digest128)
    (call : CreditRequest × CreditOutcome) : Prop where
  applied : call.2.applied = true
  op : call.1.op = .open_ ∨ call.1.op = .reconcile
  tenure : Tenure.of call.1 = t
  stored : call.1.proof = proof
  proof : proof = ReconciliationChallenge.compute c.nonce call.1.presenter call.1.authority

/-- An applied AdvanceEpoch or Rotate on the account, or an applied Fence or
    RetireIncarnation of the incarnation. -/
def Ends (t : Tenure) (call : CreditRequest × CreditOutcome) : Prop :=
  call.2.applied = true ∧ call.1.authority.account = t.account ∧
    ((call.1.op = .advanceEpoch ∨ call.1.op = .rotate) ∨
      (call.1.op = .fence ∨ call.1.op = .retireIncarnation) ∧ call.1.target = t.incarnation)

/-- Among the calls is a proof of the tenure, and no later one ends it. -/
def Backed (c : ReconciliationChallenge) (t : Tenure) (proof : Digest128)
    (calls : List (CreditRequest × CreditOutcome)) : Prop :=
  ∃ earlier call later, calls = earlier ++ call :: later ∧ Proves c t proof call ∧
    ∀ call' ∈ later, ¬ Ends t call'

/-- A call that does not end the tenure leaves it backed. -/
theorem Backed.concat {c : ReconciliationChallenge} {t : Tenure} {proof : Digest128}
    {calls : List (CreditRequest × CreditOutcome)} (h : Backed c t proof calls)
    {call : CreditRequest × CreditOutcome} (hcall : ¬ Ends t call) :
    Backed c t proof (calls ++ [call]) := by
  obtain ⟨earlier, first, later, rfl, hproves, hlater⟩ := h
  refine ⟨earlier, first, later ++ [call], by simp, hproves, fun call' hcall' => ?_⟩
  rcases List.mem_append.mp hcall' with hold | hnew
  · exact hlater call' hold
  · rw [List.mem_singleton.mp hnew]
    exact hcall

/-- A proof backs itself. -/
theorem Proves.backed {c : ReconciliationChallenge} {t : Tenure} {proof : Digest128}
    {call : CreditRequest × CreditOutcome} (h : Proves c t proof call)
    (calls : List (CreditRequest × CreditOutcome)) : Backed c t proof (calls ++ [call]) :=
  ⟨calls, call, [], rfl, h, fun _ hnone => absurd hnone List.not_mem_nil⟩

/-! ### Reconciled records -/

/-- A Reconciled record of an account: stamped with its era, and backed. -/
structure LiveBacked (c : ReconciliationChallenge)
    (calls : List (CreditRequest × CreditOutcome)) (key : UInt64) (a : AccountState)
    (i : IncarnationId) (b : IncarnationRecord) : Prop where
  epoch : b.reconciledEpoch = a.epoch
  generation : b.reconciledGeneration = a.generation
  backed : Backed c ⟨key, a.epoch, a.generation, i⟩ b.reconciliationProof calls

/-- Every Reconciled record of the account is backed. -/
def AccountBacked (c : ReconciliationChallenge) (calls : List (CreditRequest × CreditOutcome))
    (key : UInt64) (a : AccountState) : Prop :=
  ∀ (i : IncarnationId) (b : IncarnationRecord), a.incarnations[i]? = some b →
    b.state = .reconciled → LiveBacked c calls key a i b

/-- A Reconciled record behind a decision was Reconciled in front of it, with the same stamp,
    or is the one an accepted Reconcile has just written. -/
theorem RecordStep.reconciled_from {c : ReconciliationChallenge} {a : AccountState}
    {r : CreditRequest} {i : IncarnationId} {d : Decision} {o : Option IncarnationRecord}
    {b' : IncarnationRecord} (h : RecordStep c a r i d o (some b'))
    (hstate : b'.state = .reconciled) :
    (∃ b, o = some b ∧ b.state = .reconciled ∧ b.reconciledEpoch = b'.reconciledEpoch ∧
        b.reconciledGeneration = b'.reconciledGeneration ∧
        b.reconciliationProof = b'.reconciliationProof) ∨
      (r.op = .reconcile ∧ i = r.authority.incarnation ∧ (∃ a', d = .proceed a') ∧
        c.verify r.presenter r.authority r.proof = true ∧ b'.reconciledEpoch = a.epoch ∧
        b'.reconciledGeneration = a.generation ∧ b'.reconciliationProof = r.proof) := by
  cases h with
  | kept => exact .inl ⟨b', rfl, hstate, rfl, rfl, rfl⟩
  | leaked => exact absurd hstate (by simp)
  | forgotten b op => exact absurd hstate (forgetLiveness_state b)
  | bound b => exact .inl ⟨b, rfl, hstate, rfl, rfl, rfl⟩
  | fenced => exact absurd hstate (by simp)
  | retired => exact absurd hstate (by simp)
  | reconciled _ caller op proceeds proof =>
    exact .inr ⟨op, caller, proceeds, proof, rfl, rfl, rfl⟩

/-- More calls that end nothing leave the account backed. -/
theorem AccountBacked.concat {c : ReconciliationChallenge}
    {calls : List (CreditRequest × CreditOutcome)} {key : UInt64} {a : AccountState}
    (h : AccountBacked c calls key a) {call : CreditRequest × CreditOutcome}
    (hcall : call.2.applied = false ∨ call.1.authority.account ≠ key) :
    AccountBacked c (calls ++ [call]) key a := by
  intro i b hb hstate
  have hlive := h i b hb hstate
  refine ⟨hlive.epoch, hlive.generation, hlive.backed.concat ?_⟩
  rintro ⟨happlied, haccount, -⟩
  rcases hcall with hcall | hcall
  · rw [hcall] at happlied
    exact absurd happlied (by decide)
  · exact hcall haccount

/-- The tenure looks at the standing of the account only. -/
theorem AccountBacked.congr {c : ReconciliationChallenge}
    {calls : List (CreditRequest × CreditOutcome)} {key : UInt64} {a a' : AccountState}
    (h : AccountBacked c calls key a) (hsame : SameStanding a a') :
    AccountBacked c calls key a' := by
  intro i b' hb' hstate
  obtain ⟨b, hb, hcounted⟩ := hsame.back hb'
  rw [hcounted] at hstate
  have hlive := h i b hb hstate
  have hepoch : b'.reconciledEpoch = b.reconciledEpoch := by rw [hcounted]
  have hgeneration : b'.reconciledGeneration = b.reconciledGeneration := by rw [hcounted]
  have hproof : b'.reconciliationProof = b.reconciliationProof := by rw [hcounted]
  refine ⟨?_, ?_, ?_⟩
  · rw [hepoch, hsame.epoch, hlive.epoch]
  · rw [hgeneration, hsame.generation, hlive.generation]
  · rw [hproof, hsame.epoch, hsame.generation]
    exact hlive.backed

/-! ### One call -/

section Call

variable {J : Type} [Journal J] {e : CreditEngine J} {r : CreditRequest} {a : AccountState}
  {calls : List (CreditRequest × CreditOutcome)}

omit [Journal J] in
/-- A decision that is not carried through makes nobody live. -/
theorem AccountBacked.decided {key : UInt64} (h : AccountBacked e.challenge calls key a)
    (hd : ∀ a', e.decision a r ≠ .proceed a') :
    AccountBacked e.challenge calls key (e.decision a r).account := by
  have hera : (e.decision a r).account.epoch = a.epoch ∧
      (e.decision a r).account.generation = a.generation := by
    have hheader := decision_header e a r
    generalize e.decision a r = d at hd hheader ⊢
    cases hheader with
    | kept _ epoch generation _ => exact ⟨epoch, generation⟩
    | advanced a' => exact absurd rfl (hd a')
    | fenced a' => exact absurd rfl (hd a')
  intro i b' hb' hstate
  have hstep := decision_record e a r i
  rw [hb'] at hstep
  rcases RecordStep.reconciled_from hstep hstate with
    ⟨b, hb, hold, hepoch, hgeneration, hproof⟩ | ⟨-, -, ⟨a', hproceed⟩, -⟩
  · have hlive := h i b hb hold
    refine ⟨?_, ?_, ?_⟩
    · rw [← hepoch, hera.1, hlive.epoch]
    · rw [← hgeneration, hera.2, hlive.generation]
    · rw [← hproof, hera.1, hera.2]
      exact hlive.backed
  · exact absurd hproceed (hd a')

omit [Journal J] in
/-- A rolled back decision leaves nobody live who was not. -/
theorem AccountBacked.restored {key : UInt64} (h : AccountBacked e.challenge calls key a)
    {a' : AccountState} (hd : e.decision a r = .proceed a') :
    AccountBacked e.challenge calls key (restoredAccount a r a') := by
  classical
  obtain ⟨-, hepoch, hgeneration, -⟩ := restoredAccount_header hd
  intro i b' hb' hstate
  -- the record is the saved one, or one the decision has kept
  have hold : ∃ b, a.incarnations[i]? = some b ∧ b.state = .reconciled ∧
      b.reconciledEpoch = b'.reconciledEpoch ∧
      b.reconciledGeneration = b'.reconciledGeneration ∧
      b.reconciliationProof = b'.reconciliationProof := by
    rw [getElem?_restoredAccount] at hb'
    by_cases hsaved : Saved r.authority.incarnation (subject r) i
    · rw [if_pos hsaved] at hb'
      exact ⟨b', hb', hstate, rfl, rfl, rfl⟩
    · rw [if_neg hsaved] at hb'
      have hstep := decision_record e a r i
      rw [hd, show (Decision.proceed a').account.incarnations[i]? = _ from hb'] at hstep
      rcases RecordStep.reconciled_from hstep hstate with hfrom | ⟨-, hcaller, -⟩
      · exact hfrom
      · exact absurd (.inl hcaller) hsaved
  obtain ⟨b, hb, hbstate, hstamp, hstamp', hproof⟩ := hold
  have hlive := h i b hb hbstate
  refine ⟨?_, ?_, ?_⟩
  · rw [← hstamp, hepoch, hlive.epoch]
  · rw [← hstamp', hgeneration, hlive.generation]
  · rw [← hproof, hepoch, hgeneration]
    exact hlive.backed

omit [Journal J] in
/-- An applied decision: whoever is live behind it was live and is not ended by it, or is the
    caller of the Reconcile. -/
theorem AccountBacked.applied (h : AccountBacked e.challenge calls r.authority.account a)
    (hadmitted : Admitted e r a) {a' : AccountState} (hd : e.decision a r = .proceed a')
    {o : CreditOutcome} (ho : o.applied = true) :
    AccountBacked e.challenge (calls ++ [(r, o)]) r.authority.account a' := by
  have hbound := bound_of_bindAuthority hadmitted.bound
  intro i b' hb' hstate
  have hstep := decision_record e a r i
  rw [hd, show (Decision.proceed a').account.incarnations[i]? = _ from hb'] at hstep
  -- an advance leaves nobody live
  have hera : a'.epoch = a.epoch ∧ a'.generation = a.generation ∧
      ¬ (r.op = .advanceEpoch ∨ r.op = .rotate) := by
    have hnot : ¬ (r.op = .advanceEpoch ∨ r.op = .rotate) := by
      intro hop
      obtain ⟨-, -, hforget⟩ := decision_advanced hd hop
      rw [hforget i, Option.map_eq_some_iff] at hb'
      obtain ⟨b, -, rfl⟩ := hb'
      exact forgetLiveness_state b hstate
    have hheader := decision_header e a r
    rw [hd] at hheader
    cases hheader with
    | kept _ epoch generation _ => exact ⟨epoch, generation, hnot⟩
    | advanced _ op => exact absurd op hnot
    | fenced _ _ _ epoch generation => exact ⟨epoch, generation, hnot⟩
  obtain ⟨hepoch, hgeneration, hnot⟩ := hera
  rcases RecordStep.reconciled_from hstep hstate with
    ⟨b, hb, hold, hstamp, hstamp', hproof⟩ | ⟨hop, hcaller, -, hverify, hstamp, hstamp', hproof⟩
  · have hlive := h i b hb hold
    refine ⟨?_, ?_, ?_⟩
    · rw [← hstamp, hepoch, hlive.epoch]
    · rw [← hstamp', hgeneration, hlive.generation]
    · rw [← hproof, hepoch, hgeneration]
      refine hlive.backed.concat ?_
      rintro ⟨-, -, hadvance | ⟨hend, htarget⟩⟩
      · exact hnot hadvance
      · obtain ⟨b₁, hb₁, hstate₁⟩ := decision_target hd hend
        rw [show r.target = i from htarget, hb', Option.some.injEq] at hb₁
        rw [← hb₁] at hstate₁
        exact hstate₁ hstate
  · refine ⟨hstamp.trans hepoch.symm, hstamp'.trans hgeneration.symm, ?_⟩
    rw [hproof, hepoch, hgeneration]
    refine Proves.backed ⟨ho, .inr hop, ?_, rfl, ?_⟩ calls
    · rw [Tenure.of, hbound.epoch, hbound.generation, hcaller]
    · exact (ReconciliationChallenge.verify_iff _ _ _ _).mp hverify

omit [Journal J] in
/-- An accepted Open carries the proof of the boot. -/
theorem Opens.proof (h : Opens e r) :
    r.proof = ReconciliationChallenge.compute e.challenge.nonce r.presenter r.authority := by
  have haccepted := h.accepted
  unfold validateOpen at haccepted
  simp only at haccepted
  split_ifs at haccepted with _ _ _ _ _ _ _ _ _ hverify
  exact (ReconciliationChallenge.verify_iff _ _ _ _).mp (by simpa using hverify)

omit [Journal J] in
/-- An applied Open proves the opener's tenure. -/
private theorem opened_backed (hopens : Opens e r) {o : CreditOutcome} (ho : o.applied = true) :
    AccountBacked e.challenge (calls ++ [(r, o)]) r.authority.account (e.publishedOpen r) := by
  have hframe : e.publishedOpen r = { openedAccount e.limits r with
      window := (e.publishedOpen r).window
      incarnations := (e.publishedOpen r).incarnations
      ambiguous := (e.publishedOpen r).ambiguous } := AccountState.publishWindow_eq _ _ _
  intro i b hb hstate
  have hget := AccountState.getElem?_publishWindow (openedAccount e.limits r) r
    (e.openOutcome r) i
  rw [show (e.publishedOpen r).incarnations[i]? = _ from hget] at hb
  by_cases hi : i = r.authority.incarnation
  · have hopener : (openedAccount e.limits r).incarnations[r.authority.incarnation]? = some
        { markReconciled (freshRecord r) r.authority.epoch r.authority.generation r.proof with
          committedOps := 1 } := ExtTreeMap.getElem?_insert_self
    rw [if_pos hi, hopener, Option.map_some, Option.some.injEq] at hb
    rw [← hb, hframe]
    refine ⟨rfl, rfl, Proves.backed ⟨ho, .inl hopens.op, ?_, rfl, Opens.proof hopens⟩ calls⟩
    rw [Tenure.of, hi]
    rfl
  · have hnone : (openedAccount e.limits r).incarnations[i]? = none :=
      (Lib.getElem?_insert_of_ne _ _ hi).trans ExtTreeMap.getElem?_empty
    rw [if_neg hi, hnone] at hb
    exact absurd hb (by simp)

/-- **One call.**  Every Reconciled record of every account is backed behind the call. -/
theorem apply_backed
    (h : ∀ key a, e.accounts[key]? = some a → AccountBacked e.challenge calls key a)
    (key : UInt64) (a : AccountState) (ha : (e.apply r).2.accounts[key]? = some a) :
    AccountBacked e.challenge (calls ++ [(r, (e.apply r).1)]) key a := by
  -- only the account of the request is written
  by_cases hkey : key = r.authority.account
  swap
  · rw [getElem?_apply_of_ne e hkey] at ha
    exact (h key a ha).concat (.inr (Ne.symm hkey))
  subst hkey
  have hwritten : ∀ b, (e.apply r).2.accounts = e.accounts.insert r.authority.account b →
      AccountBacked e.challenge (calls ++ [(r, (e.apply r).1)]) r.authority.account b →
      AccountBacked e.challenge (calls ++ [(r, (e.apply r).1)]) r.authority.account a := by
    intro b haccounts hb
    rw [haccounts, ExtTreeMap.getElem?_insert_self, Option.some.injEq] at ha
    rw [← ha]
    exact hb
  have hundecided : ∀ a₀, Admitted e r a₀ → (∀ a', e.decision a₀ r ≠ .proceed a') →
      AccountBacked e.challenge calls r.authority.account (e.decision a₀ r).account :=
    fun a₀ hadmitted hd => (h _ a₀ hadmitted.found).decided hd
  cases (apply_accounts e r).1 with
  | same unapplied accounts =>
    rw [accounts] at ha
    -- no answer without an application adds a proof
    exact (h _ a ha).concat (.inl unapplied)
  | rejected a₀ hadmitted s a' hd unapplied accounts =>
    have hback := hundecided a₀ hadmitted (by simp [hd])
    rw [hd] at hback
    exact hwritten a' accounts (hback.concat (.inl unapplied))
  | opened hopens outcome accounts =>
    refine hwritten _ accounts (opened_backed hopens ?_)
    rw [outcome]
    rfl
  | refused a₀ hadmitted s a' hd outcome accounts =>
    have hback := hundecided a₀ hadmitted (by simp [hd])
    rw [hd] at hback
    refine hwritten _ accounts ((hback.congr (refusedAccount_sameStanding _ _ _ _)).concat ?_)
    rw [outcome]
    exact .inl rfl
  | refusalUndone a₀ hadmitted s a' hd unapplied _ accounts =>
    have hback := hundecided a₀ hadmitted (by simp [hd])
    rw [hd] at hback
    exact hwritten a' accounts (hback.concat (.inl unapplied))
  -- an applied Reconcile is the proof of the record it marks
  | applied a₀ hadmitted a' hd outcome accounts =>
    refine hwritten _ accounts (AccountBacked.congr ?_ (appliedAccount_sameStanding a₀ r a'))
    refine (h _ a₀ hadmitted.found).applied hadmitted hd ?_
    rw [outcome]
    rfl
  | undone a₀ hadmitted a' hd unapplied _ accounts =>
    exact hwritten _ accounts (((h _ a₀ hadmitted.found).restored hd).concat (.inl unapplied))

end Call

/-! ### Boots -/

variable {J : Type} [Journal J]

/-- Every Reconciled record of the engine is backed by a call of the boot. -/
def AllBacked (e : CreditEngine (Observed J)) (calls : List (CreditRequest × CreditOutcome)) :
    Prop :=
  ∀ key a, e.accounts[key]? = some a → AccountBacked e.challenge calls key a

/-- A recovery that returned Ok leaves nobody live. -/
theorem recover_forgets {e : CreditEngine (Observed J)} {image : Option SnapshotImage}
    {recs : List JournalRecord} {j' : Observed J} (hyields : Yields e.journal image recs j')
    (hok : e.recover.1.ok = true) {key : UInt64} {a : AccountState}
    (ha : e.recover.2.accounts[key]? = some a) {i : IncarnationId} {b : IncarnationRecord}
    (hb : a.incarnations[i]? = some b) : b.state ≠ .reconciled := by
  obtain ⟨j, s, e₁, e₂, -, -, -, heq⟩ := recover_inv hyields hok
  rw [heq] at ha
  have hmap : (e₂.accounts.map fun _ a => a.forgetLiveness)[key]? = some a := ha
  rw [ExtTreeMap.getElem?_map, Option.map_eq_some_iff] at hmap
  obtain ⟨a₂, -, rfl⟩ := hmap
  rw [AccountState.getElem?_forgetLiveness, Option.map_eq_some_iff] at hb
  obtain ⟨b₂, -, rfl⟩ := hb
  exact forgetLiveness_state b₂

end Deployment

end CreditFabric
