import CreditFabric.Retry
import CreditFabric.Tracking

namespace CreditFabric

/-!
# Verbatim retries of a deployment

In every state of a deployment, behind any calls, snapshots, crashes and restarts, a committed
request that is presented again at once is absorbed, unless it has silenced itself
(`retry_absorbed_iff`).  The Open of a new account is the first request that has.
-/

open CreditEngine in
/-- **Retries of a deployment.** -/
theorem Deployment.retry_absorbed_iff {J : Type} [Journal J] {limits : EngineLimits}
    {journal : J} {operator : Incarnation} {nonce : Digest128} {acts : List Act}
    {w : Deployment J} (hrun : Run (start limits journal operator nonce) acts w)
    (hn : acts.length ≤ 2 ^ 60) {r : CreditRequest} (h : Committed w.engine r) :
    RetryAbsorbed w.engine r ↔ ¬ Silences r := by
  have hkept := hrun.kept hn
  exact h.absorbed_iff hkept.standing hkept.windowed

namespace RepeatedOpen

open Fixture CreditEngine

/-- The nonce of the fixture's boot. -/
def nonce : Digest128 := ⟨0x15, 0x51⟩

/-- The Open of the fixture. -/
def opening : CreditRequest := request nonce me .open_ 1

/-- The Issue of the fixture. -/
def issuing : CreditRequest := request nonce me .issue 2

/-- The engine of the fixture. -/
def booted : CreditEngine (Observed InMemoryJournal) := boot {} (Observed.mk {} []) nonce

/-- The deployment behind a first boot. -/
theorem exists_booted : ∃ w : Deployment InMemoryJournal,
    Deployment.Run (Deployment.start {} {} me nonce) [.restart] w ∧ w.engine = booted := by
  obtain ⟨w, hrun, hengine⟩ := Deployment.RunWhere.first (fun _ _ => True) {} nonce
  exact ⟨w, hrun.run, hengine⟩

/-- The deployment behind a first boot and the Open. -/
theorem exists_opened : ∃ w : Deployment InMemoryJournal,
    Deployment.Run (Deployment.start {} {} me nonce) [.restart, .call opening] w ∧
      w.engine = booted.run [opening] := by
  obtain ⟨w, hrun, hengine⟩ := Deployment.exists_runWhere (C := fun _ _ => True) {} nonce
    [opening] ⟨trivial, trivial⟩
  exact ⟨w, hrun.run, hengine⟩

/-- Both retries, evaluated once. -/
theorem evaluated : (booted.apply opening).1.applied = true ∧
    ((booted.apply opening).2.apply opening).1.status.reason = .accountExists ∧
    ((booted.apply opening).2.apply opening).1.duplicate = false ∧
    ((booted.run [opening]).apply issuing).1.applied = true := by
  decide +kernel

/-- An Issue behind the Open is committed, and is absorbed when it is presented again. -/
theorem issue_absorbed : ∃ w : Deployment InMemoryJournal, w.engine = booted.run [opening] ∧
    Committed w.engine issuing ∧ (RetryAbsorbed w.engine issuing ↔ ¬ Silences issuing) := by
  obtain ⟨w, hrun, hengine⟩ := exists_opened
  have hcommitted : Committed w.engine issuing := by
    rw [hengine]
    exact committed_of_applied evaluated.2.2.2
  exact ⟨w, hengine, hcommitted, Deployment.retry_absorbed_iff hrun (by decide) hcommitted⟩

/-- **The Open is not absorbed.**  The request that opened the account is refused when it is
    presented again: the account exists. -/
theorem open_not_absorbed :
    ((booted.apply opening).2.apply opening).1.duplicate = false ∧
    ¬ ∀ (limits : EngineLimits) (journal : InMemoryJournal) (operator : Incarnation)
        (nonce : Digest128) (acts : List Deployment.Act) (w : Deployment InMemoryJournal)
        (r : CreditRequest), Deployment.Run (Deployment.start limits journal operator nonce) acts w →
      r.op ≠ .describe → Committed w.engine r → RetryAbsorbed w.engine r := by
  refine ⟨evaluated.2.2.1, fun hclaim => ?_⟩
  obtain ⟨w, hrun, hengine⟩ := exists_booted
  have hcommitted : Committed w.engine opening := by
    rw [hengine]
    exact committed_of_applied evaluated.1
  have habsorbed := hclaim {} {} me nonce _ w opening hrun (by decide) hcommitted
  have hduplicate := habsorbed.duplicate
  rw [hengine, evaluated.2.2.1] at hduplicate
  exact absurd hduplicate (by decide)

end RepeatedOpen

end CreditFabric
