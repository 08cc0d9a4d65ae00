import CreditFabric.Window
import CreditFabric.Standing
import CreditFabric.Sequencing

namespace CreditFabric

open Std (ExtTreeMap)

/-!
# Windows behind the watermarks

A decision is taken at the place behind its caller's watermark, so its key is a new one: no
key of the window is ahead of the watermark of its incarnation (`Windowed`).  Every call keeps
this for every account.
-/

/-- What the window remembers of a published decision. -/
def windowEntry (r : CreditRequest) (o : CreditOutcome) : WindowEntry where
  key := { incarnation := r.authority.incarnation, sequence := r.sequence }
  attempt := r.attempt
  request := r.digest
  status := o.status
  applied := o.applied
  view := o.view

/-- The window after a published outcome. -/
theorem window_publishWindow (a : AccountState) (r : CreditRequest) (o : CreditOutcome) :
    (a.publishWindow r o).window = a.window.insert (windowEntry r o) := by
  unfold AccountState.publishWindow AccountState.resolveAmbiguous
  simp only
  rw [AccountState.updateIncarnation_eq]
  rfl

/-- The queue is indexed, and no key is ahead of the watermark. -/
structure Windowed (a : AccountState) : Prop where
  indexed : a.window.Indexed
  behind : ∀ k ∈ a.window.order, k.sequence.toNat ≤ (a.countersAt k.incarnation).last.toNat

/-- The invariant speaks of the window and the last sequences only. -/
theorem Windowed.congr {a a' : AccountState} (h : Windowed a) (hwindow : a'.window = a.window)
    (hlast : ∀ i, (a'.countersAt i).last = (a.countersAt i).last) : Windowed a' where
  indexed := by
    rw [hwindow]
    exact h.indexed
  behind k hk := by
    rw [hwindow] at hk
    rw [hlast]
    exact h.behind k hk

/-- The place behind the watermark is a new key. -/
theorem Windowed.fresh {a : AccountState} (h : Windowed a) {k : WindowKey}
    (hk : (a.countersAt k.incarnation).last.toNat < k.sequence.toNat) : k ∉ a.window.order := by
  intro hmem
  have hbehind := h.behind k hmem
  omega

/-- Publishing a decision beyond the watermark, and moving the watermark there. -/
theorem Windowed.publish {a a' : AccountState} (h : Windowed a) {r : CreditRequest}
    {o : CreditOutcome} (hwindow : a'.window = a.window.insert (windowEntry r o))
    (hseq : (a.countersAt r.authority.incarnation).last.toNat < r.sequence.toNat)
    (hcaller : (a'.countersAt r.authority.incarnation).last = r.sequence)
    (hothers : ∀ i, i ≠ r.authority.incarnation →
      (a'.countersAt i).last = (a.countersAt i).last) : Windowed a' := by
  have hfresh : (windowEntry r o).key ∉ a.window.order := h.fresh hseq
  refine ⟨?_, fun k hk => ?_⟩
  · rw [hwindow]
    exact (h.indexed.insert hfresh).1
  · rw [hwindow] at hk
    rcases AttemptWindow.mem_order_insert h.indexed hfresh hk with hold | rfl
    · have hbehind := h.behind k hold
      by_cases hi : k.incarnation = r.authority.incarnation
      · rw [hi] at hbehind ⊢
        rw [hcaller]
        omega
      · rw [hothers _ hi]
        exact hbehind
    · show r.sequence.toNat ≤ _
      rw [show (windowEntry r o).key.incarnation = r.authority.incarnation from rfl, hcaller]

namespace CreditEngine

variable {J : Type} [Journal J]

/-- Every account has its window behind its watermarks. -/
def AllWindowed (accounts : ExtTreeMap UInt64 AccountState) : Prop :=
  ∀ (key : UInt64) (a : AccountState), accounts[key]? = some a → Windowed a

/-- Every account keeps it when the one that was put does. -/
theorem AllWindowed.insert {accounts : ExtTreeMap UInt64 AccountState}
    (h : AllWindowed accounts) {key : UInt64} {a : AccountState} (ha : Windowed a) :
    AllWindowed (accounts.insert key a) := by
  intro key' a' hget
  by_cases hkey : key' = key
  · rw [hkey, ExtTreeMap.getElem?_insert_self, Option.some.injEq] at hget
    rw [← hget]
    exact ha
  · rw [Lib.getElem?_insert_of_ne _ _ hkey] at hget
    exact h key' a' hget

omit [Journal J] in
/-- A decision does not touch the window. -/
theorem decision_windowed (e : CreditEngine J) {a : AccountState} (r : CreditRequest)
    (h : Windowed a) : Windowed (e.decision a r).account :=
  h.congr (decision_unwritten e a r).1 fun i => by
    rw [(decision_sameCounters e a r).records i]

omit [Journal J] in
/-- The counters behind a published decision. -/
theorem Admitted.published {e : CreditEngine J} {r : CreditRequest} {a x : AccountState}
    (h : Admitted e r a) (hd : ∀ s a', e.decision a r ≠ .reject s a') {o : CreditOutcome}
    (hwindow : x.window = (e.decision a r).account.window.insert (windowEntry r o))
    {f : IncarnationRecord → IncarnationRecord} (hf : ∀ b, (f b).lastSequence = r.sequence)
    (hrecords : ∀ i : IncarnationId, x.incarnations[i]? = if i = r.authority.incarnation then
        ((e.decision a r).account.incarnations[r.authority.incarnation]?).map f
      else (e.decision a r).account.incarnations[i]?) (hwindowed : Windowed a) : Windowed x := by
  have hsame := (decision_sameCounters e a r).records
  have hseq := sequence_of_admitted h.placed
  refine hwindowed.publish (r := r) (o := o) ?_ (by omega) ?_ fun i hi => ?_
  · rw [hwindow, (decision_unwritten e a r).1]
  · obtain ⟨b, hb⟩ := decision_caller_known h hd
    have hget := hrecords r.authority.incarnation
    rw [if_pos rfl, hb] at hget
    rw [AccountState.countersAt_of_some hget]
    exact hf b
  · rw [← hsame i]
    unfold AccountState.countersAt
    rw [hrecords i, if_neg hi]

omit [Journal J] in
/-- The window after an application. -/
theorem window_appliedAccount (a : AccountState) (r : CreditRequest) (a' : AccountState) :
    (appliedAccount a r a').window =
      a'.window.insert (windowEntry r (applicationOutcome a r a')) := by
  unfold appliedAccount countCommitted
  rw [window_publishWindow, AccountState.updateIncarnation_eq]

omit [Journal J] in
/-- The window after a decided refusal. -/
theorem window_refusedAccount (limits : EngineLimits) (a' : AccountState) (r : CreditRequest)
    (o : CreditOutcome) :
    (refusedAccount limits a' r o).window = a'.window.insert (windowEntry r o) := by
  unfold refusedAccount countRefused
  rw [AccountState.recordRefusal_eq]
  show (AccountState.publishWindow _ _ _).window = _
  rw [window_publishWindow, AccountState.updateIncarnation_eq]

omit [Journal J] in
/-- An application keeps the invariant. -/
theorem appliedAccount_windowed {e : CreditEngine J} {r : CreditRequest} {a a' : AccountState}
    (h : Admitted e r a) (hd : e.decision a r = .proceed a') (hwindowed : Windowed a) :
    Windowed (appliedAccount a r a') := by
  refine h.published (o := applicationOutcome a r a') (by simp [hd]) ?_
    (f := fun b => { b with committedOps := b.committedOps + 1, lastSequence := r.sequence })
    (fun b => rfl) ?_ hwindowed
  · rw [hd]
    exact window_appliedAccount a r a'
  · rw [hd]
    exact getElem?_appliedAccount a r a'

omit [Journal J] in
/-- A decided refusal does. -/
theorem refusedAccount_windowed {e : CreditEngine J} {r : CreditRequest} {a a' : AccountState}
    {s : Status} (h : Admitted e r a) (hd : e.decision a r = .refuse s a')
    (hwindowed : Windowed a) :
    Windowed (refusedAccount e.limits a' r (refusalOutcome a r s a')) := by
  refine h.published (o := refusalOutcome a r s a') (by simp [hd]) ?_
    (f := fun b => { b with refusedOps := b.refusedOps + 1, lastSequence := r.sequence })
    (fun b => rfl) ?_ hwindowed
  · rw [hd]
    exact window_refusedAccount e.limits a' r _
  · rw [hd]
    exact getElem?_refusedAccount e.limits a' r _

omit [Journal J] in
/-- An account is opened with an empty window. -/
theorem openedAccount_fresh (limits : EngineLimits) (r : CreditRequest) :
    Windowed (openedAccount limits r) :=
  ⟨AttemptWindow.make_indexed _, fun _ hk => absurd hk List.not_mem_nil⟩

omit [Journal J] in
/-- An opened account has one decision, by the opener. -/
theorem openedAccount_windowed (limits : EngineLimits) {r : CreditRequest} (o : CreditOutcome)
    (hseq : r.sequence = 1) : Windowed ((openedAccount limits r).publishWindow r o) := by
  have hfresh := openedAccount_fresh limits r
  obtain ⟨opener, hopener⟩ : ∃ b,
      (openedAccount limits r).incarnations[r.authority.incarnation]? = some b ∧
        b.lastSequence = 0 := ⟨_, ExtTreeMap.getElem?_insert_self, rfl⟩
  have hget := AccountState.getElem?_publishWindow (openedAccount limits r) r o
  refine hfresh.publish (r := r) (o := o) (window_publishWindow _ _ _) ?_ ?_ fun i hi => ?_
  · rw [AccountState.countersAt_of_some hopener.1]
    show opener.lastSequence.toNat < r.sequence.toNat
    rw [hopener.2, hseq]
    decide
  · have hcaller := hget r.authority.incarnation
    rw [if_pos rfl, hopener.1] at hcaller
    exact congrArg Counters.last (AccountState.countersAt_of_some hcaller)
  · have hother := hget i
    rw [if_neg hi] at hother
    unfold AccountState.countersAt
    rw [hother]

omit [Journal J] in
/-- A rollback leaves the window of the decision. -/
theorem window_restoredAccount (a : AccountState) (r : CreditRequest) (a' : AccountState) :
    (restoredAccount a r a').window = a'.window := by
  show (countCommitted a' r.authority.incarnation).window = _
  unfold countCommitted
  rw [AccountState.updateIncarnation_eq]

omit [Journal J] in
/-- A rollback does. -/
theorem restoredAccount_windowed {e : CreditEngine J} {r : CreditRequest} {a a' : AccountState}
    (hd : e.decision a r = .proceed a') (h : Windowed a) : Windowed (restoredAccount a r a') := by
  classical
  have hsame := (decision_sameCounters e a r).records
  have hunwritten := (decision_unwritten e a r).1
  rw [hd] at hsame hunwritten
  refine h.congr ?_ fun i => ?_
  · rw [← hunwritten]
    exact window_restoredAccount a r a'
  · have hget := getElem?_restoredAccount a r a' i
    by_cases hsaved : Saved r.authority.incarnation (subject r) i
    · rw [if_pos hsaved] at hget
      unfold AccountState.countersAt
      rw [hget]
    · rw [if_neg hsaved] at hget
      rw [← hsame i]
      unfold AccountState.countersAt
      rw [hget]
      rfl

/-- **Step lemma.**  Every call keeps every window behind its watermarks. -/
theorem apply_windowed {e : CreditEngine J} (h : AllWindowed e.accounts) (r : CreditRequest) :
    AllWindowed (e.apply r).2.accounts := by
  have hdecision : ∀ a, Admitted e r a → Windowed (e.decision a r).account :=
    fun a hadmitted => decision_windowed e r (h _ a hadmitted.found)
  cases (apply_accounts e r).1 with
  | same _ accounts =>
    rw [accounts]
    exact h
  | rejected a hadmitted s a' hd _ accounts =>
    have ha' := hdecision a hadmitted
    rw [hd] at ha'
    rw [accounts]
    exact h.insert ha'
  | opened hopens _ accounts =>
    rw [accounts]
    exact h.insert (openedAccount_windowed e.limits _ hopens.sequence)
  | refused a hadmitted s a' hd _ accounts =>
    rw [accounts]
    exact h.insert (refusedAccount_windowed hadmitted hd (h _ a hadmitted.found))
  | refusalUndone a hadmitted s a' hd _ _ accounts =>
    have ha' := hdecision a hadmitted
    rw [hd] at ha'
    rw [accounts]
    exact h.insert ha'
  | applied a hadmitted a' hd _ accounts =>
    rw [accounts]
    exact h.insert (appliedAccount_windowed hadmitted hd (h _ a hadmitted.found))
  | undone a hadmitted a' hd _ _ accounts =>
    rw [accounts]
    exact h.insert (restoredAccount_windowed hd (h _ a hadmitted.found))

end CreditEngine

end CreditFabric
