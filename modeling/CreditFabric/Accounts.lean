import CreditFabric.Refusal

namespace CreditFabric

open Std (ExtTreeMap)

/-!
# The accounts behind one call

`apply_accounts` says which account every call of the live engine writes and what it writes
there, with the rollbacks of a failed commit included.  The invariants of an account that are
kept over whole runs are read off it, one case at a time.

* At most the account the request addresses is written, and only an Open adds one.
* A failed commit writes the account its backup restores, and latches the engine.
-/

namespace CreditEngine

variable {J : Type}

/-- The account an applied decision publishes. -/
def appliedAccount (a : AccountState) (r : CreditRequest) (a' : AccountState) : AccountState :=
  (countCommitted a' r.authority.incarnation).publishWindow r (applicationOutcome a r a')

/-- The account an accepted Open publishes. -/
def publishedOpen (e : CreditEngine J) (r : CreditRequest) : AccountState :=
  (openedAccount e.limits r).publishWindow r (e.openOutcome r)

/-- The account the rollback of an applied decision leaves. -/
def restoredAccount (a : AccountState) (r : CreditRequest) (a' : AccountState) : AccountState :=
  restoreBackup (countCommitted a' r.authority.incarnation)
    (captureBackup a r.authority.incarnation (subject r)) r.authority.incarnation (subject r)

/-- What one call leaves of the accounts, besides its outcome. -/
inductive AccountsAfter (e : CreditEngine J) (r : CreditRequest) (o : CreditOutcome)
    (e' : CreditEngine J) : Prop
  | same (unapplied : o.applied = false) (accounts : e'.accounts = e.accounts)
  | rejected (a : AccountState) (h : Admitted e r a) (s : Status) (a' : AccountState)
      (hd : e.decision a r = .reject s a') (unapplied : o.applied = false)
      (accounts : e'.accounts = e.accounts.insert r.authority.account a')
  | opened (h : Opens e r) (outcome : o = e.openOutcome r)
      (accounts : e'.accounts = e.accounts.insert r.authority.account (e.publishedOpen r))
  | refused (a : AccountState) (h : Admitted e r a) (s : Status) (a' : AccountState)
      (hd : e.decision a r = .refuse s a') (outcome : o = refusalOutcome a r s a')
      (accounts : e'.accounts = e.accounts.insert r.authority.account
        (refusedAccount e.limits a' r (refusalOutcome a r s a')))
  | refusalUndone (a : AccountState) (h : Admitted e r a) (s : Status) (a' : AccountState)
      (hd : e.decision a r = .refuse s a') (unapplied : o.applied = false)
      (latched : e'.journalFailed = true)
      (accounts : e'.accounts = e.accounts.insert r.authority.account a')
  | applied (a : AccountState) (h : Admitted e r a) (a' : AccountState)
      (hd : e.decision a r = .proceed a') (outcome : o = applicationOutcome a r a')
      (accounts : e'.accounts = e.accounts.insert r.authority.account (appliedAccount a r a'))
  | undone (a : AccountState) (h : Admitted e r a) (a' : AccountState)
      (hd : e.decision a r = .proceed a') (unapplied : o.applied = false)
      (latched : e'.journalFailed = true)
      (accounts : e'.accounts = e.accounts.insert r.authority.account (restoredAccount a r a'))

/-- What every call leaves alone: the limits, the operator, the challenge of the boot and the
    recovery flag. -/
structure SameConfig (e e' : CreditEngine J) : Prop where
  limits : e'.limits = e.limits
  operatorIncarnation : e'.operatorIncarnation = e.operatorIncarnation
  challenge : e'.challenge = e.challenge
  recovered : e'.recovered = e.recovered

variable [Journal J]

section Settle

variable {e : CreditEngine J} {r : CreditRequest} {o : CreditOutcome} {a : AccountState}
  {c : Bool} {rollback publish : CreditEngine J → CreditEngine J}

/-- A settled call is published or rolled back, from an engine with the accounts of `e`. -/
theorem settle_accounts {P : CreditOutcome → CreditEngine J → Prop}
    (hpublish : ∀ e', SameLedger e e' → P o (publish e'))
    (hrollback : ∀ e' o', SameLedger e e' → o'.applied = false →
      P o' { rollback e' with journalFailed := true }) :
    P (e.settle r o a c rollback publish).1 (e.settle r o a c rollback publish).2 := by
  have hframe := persistLocked_frame e r o a c
  cases hok : (e.persistLocked r o a c).1.ok with
  | false =>
    rw [settle_of_failed hok]
    exact hrollback _ _ hframe rfl
  | true =>
    rw [settle_of_ok hok]
    exact hpublish _ hframe

end Settle

/-- What an Open that is admitted leaves. -/
theorem settleOpen_accounts {e : CreditEngine J} {r : CreditRequest} (h : Opens e r) :
    AccountsAfter e r (e.settleOpen r).1 (e.settleOpen r).2 ∧
      SameConfig e (e.settleOpen r).2 := by
  obtain ⟨hnone, hkey⟩ := h.fresh
  refine settle_accounts (P := fun o e' => AccountsAfter e r o e' ∧ SameConfig e e')
    (e := e.put (openedAccount e.limits r).account _) (fun e' hframe => ?_)
    fun e' o' hframe hunapplied => ?_
  · refine ⟨.opened h rfl ?_, hframe.limits, hframe.operatorIncarnation, hframe.challenge,
      hframe.recovered⟩
    show e'.accounts.insert r.config.account _ = _
    rw [hframe.accounts]
    show (e.accounts.insert r.config.account _).insert r.config.account _ = _
    rw [Lib.insert_insert_self, hkey]
    rfl
  · refine ⟨.same hunapplied ?_, hframe.limits, hframe.operatorIncarnation, hframe.challenge,
      hframe.recovered⟩
    show e'.accounts.erase r.config.account = _
    rw [hframe.accounts]
    show (e.accounts.insert r.config.account _).erase r.config.account = _
    rw [hkey]
    exact Lib.erase_insert_self _ _ hnone

/-- What a decision on an account that is there leaves. -/
private theorem settleDecision_accounts {e : CreditEngine J} {r : CreditRequest} {a : AccountState}
    (h : Admitted e r a) :
    AccountsAfter e r (e.settleDecision a r).1 (e.settleDecision a r).2 ∧
      SameConfig e (e.settleDecision a r).2 := by
  have hpublished : ∀ (a' b : AccountState) (e' : CreditEngine J),
      SameLedger (e.put r.authority.account a') e' →
      e'.accounts.insert r.authority.account b = e.accounts.insert r.authority.account b := by
    intro a' b e' hframe
    rw [hframe.accounts]
    exact Lib.insert_insert_self _ _ _ _
  unfold settleDecision follow
  cases hd : e.decision a r with
  | reject s a' => exact ⟨.rejected a h s a' hd rfl rfl, rfl, rfl, rfl, rfl⟩
  | refuse s a' =>
    simp only
    refine settle_accounts (P := fun o e' => AccountsAfter e r o e' ∧ SameConfig e e')
      (e := e.put r.authority.account _) (fun e' hframe => ?_)
      fun e' o' hframe hunapplied => ?_
    · refine ⟨.refused a h s a' hd rfl ?_, hframe.limits, hframe.operatorIncarnation,
        hframe.challenge, hframe.recovered⟩
      have hlimits : e'.limits = e.limits := hframe.limits
      show e'.accounts.insert r.authority.account _ = _
      rw [hlimits]
      exact hpublished _ _ e' hframe
    · refine ⟨.refusalUndone a h s a' hd hunapplied rfl ?_, hframe.limits,
        hframe.operatorIncarnation, hframe.challenge, hframe.recovered⟩
      show e'.accounts.insert r.authority.account _ = _
      -- the backup of a refusal is taken behind the decision, so it restores just that
      rw [restoreBackup_countRefused]
      exact hpublished _ _ e' hframe
  | proceed a' =>
    simp only
    refine settle_accounts (P := fun o e' => AccountsAfter e r o e' ∧ SameConfig e e')
      (e := e.put r.authority.account _) (fun e' hframe => ?_)
      fun e' o' hframe hunapplied => ?_
    · exact ⟨.applied a h a' hd rfl (hpublished _ _ e' hframe), hframe.limits,
        hframe.operatorIncarnation, hframe.challenge, hframe.recovered⟩
    · exact ⟨.undone a h a' hd hunapplied rfl (hpublished _ _ e' hframe), hframe.limits,
        hframe.operatorIncarnation, hframe.challenge, hframe.recovered⟩

/-- **The accounts behind one call.** -/
theorem apply_accounts (e : CreditEngine J) (r : CreditRequest) :
    AccountsAfter e r (e.apply r).1 (e.apply r).2 ∧ SameConfig e (e.apply r).2 := by
  have hcase := apply_cases e r
  generalize e.apply r = result at hcase ⊢
  cases hcase with
  | answered o happlied _ => exact ⟨.same happlied rfl, rfl, rfl, rfl, rfl⟩
  | absorbed a existing _ _ => exact ⟨.same rfl rfl, rfl, rfl, rfl, rfl⟩
  | opened h => exact settleOpen_accounts h
  | decided a h => exact settleDecision_accounts h

/-- A call changes none of the settings of the engine. -/
theorem apply_sameConfig (e : CreditEngine J) (r : CreditRequest) :
    SameConfig e (e.apply r).2 := (apply_accounts e r).2

/-- Only the account the request addresses may change. -/
theorem getElem?_apply_of_ne (e : CreditEngine J) {r : CreditRequest} {key : UInt64}
    (h : key ≠ r.authority.account) : (e.apply r).2.accounts[key]? = e.accounts[key]? := by
  have hinsert : ∀ a : AccountState,
      (e.accounts.insert r.authority.account a)[key]? = e.accounts[key]? :=
    fun a => Lib.getElem?_insert_of_ne _ _ h
  cases (apply_accounts e r).1 with
  | same _ accounts => rw [accounts]
  | rejected _ _ _ _ _ _ accounts => rw [accounts, hinsert]
  | opened _ _ accounts => rw [accounts, hinsert]
  | refused _ _ _ _ _ _ accounts => rw [accounts, hinsert]
  | refusalUndone _ _ _ _ _ _ _ accounts => rw [accounts, hinsert]
  | applied _ _ _ _ _ accounts => rw [accounts, hinsert]
  | undone _ _ _ _ _ _ accounts => rw [accounts, hinsert]

/-- An applied call has opened its account or carried a decision through. -/
theorem applied_inv {e : CreditEngine J} {r : CreditRequest}
    (happlied : (e.apply r).1.applied = true) :
    Opens e r ∨ ∃ a a', Admitted e r a ∧ e.decision a r = .proceed a' ∧
      (e.apply r).2.accounts[r.authority.account]? = some (appliedAccount a r a') := by
  have hunapplied : ∀ {P : Prop}, (e.apply r).1.applied = false → P := by
    intro P hfalse
    rw [hfalse] at happlied
    exact absurd happlied (by decide)
  cases (apply_accounts e r).1 with
  | same unapplied => exact hunapplied unapplied
  | rejected _ _ _ _ _ unapplied => exact hunapplied unapplied
  | opened hopens => exact .inl hopens
  | refused a hadmitted s a' hd outcome => exact hunapplied (by rw [outcome]; rfl)
  | refusalUndone _ _ _ _ _ unapplied => exact hunapplied unapplied
  | applied a hadmitted a' hd _ accounts =>
    refine .inr ⟨a, a', hadmitted, hd, ?_⟩
    rw [accounts, ExtTreeMap.getElem?_insert_self]
  | undone _ _ _ _ unapplied => exact hunapplied unapplied

end CreditEngine

end CreditFabric
