import CreditFabric.Fences
import CreditFabric.Era
import CreditFabric.Liveness

namespace CreditFabric

open Std (ExtTreeMap)

/-!
# Whose authority a process acts on

Behind any calls, snapshots, crashes and restarts,

* every applied call but an Open or a Reconcile is backed by a proof of the current boot and of
  the account's era, and so is every Reconciled record (`Run.proved`);
* an applied advance begins a later epoch and the next generation, nothing takes an era back,
  and a vector of an earlier era is answered in front of the journal from then on, as long as
  explicit snapshots return Ok.

`Process.authority_proved` puts the two together.  `SecondEra.era_taken_back` is a run behind a
failed snapshot whose second era does not outlive its process.
-/

namespace Process

open CreditEngine StoredJournal
open Deployment (Act AccountBacked AllBacked Backed LiveBacked Proves Tenure apply_backed
  recover_forgets)

variable {J : Type} [Journal J]

/-- Every applied call but an Open or a Reconcile, and every Reconciled record, has its proof
    among the calls of the boot. -/
structure ProvedHere (v : Process J) : Prop where
  applied : ∀ r : CreditRequest, (v.engine.apply r).1.applied = true → r.op ≠ .open_ →
    r.op ≠ .reconcile → ∃ proof, Backed v.engine.challenge (Tenure.of r) proof v.calls
  live : ∀ (key : UInt64) (a : AccountState) (i : IncarnationId) (b : IncarnationRecord),
    v.engine.accounts[key]? = some a → a.incarnations[i]? = some b → b.state = .reconciled →
    LiveBacked v.engine.challenge v.calls key a i b

/-- A request with a vector that is not of a later era than `a` is answered in front of the
    window and of the journal. -/
def Superseded (e : CreditEngine (Observed J)) (key : UInt64) (a : AccountState) : Prop :=
  ∀ r : CreditRequest, r.authority.account = key →
    r.authority.epoch.toNat ≤ a.epoch.toNat ∨ r.authority.generation.toNat ≤ a.generation.toNat →
    (e.apply r).1.applied = false ∧ (e.apply r).1.decided = false ∧
      (e.apply r).2.journal = e.journal

/-- The call has taken the account `a` under `key` to a later epoch and to the next
    generation. -/
structure EraBegins (e : CreditEngine (Observed J)) (r : CreditRequest) (key : UInt64)
    (a a' : AccountState) : Prop where
  before : e.accounts[key]? = some a
  after : (e.apply r).2.accounts[key]? = some a'
  epoch : a.epoch.toNat < a'.epoch.toNat
  generation : a'.generation.toNat = a.generation.toNat + 1

variable [StoredJournal J]

/-- What is said of the authority behind `n` steps that have led to `v`, where `Goes` are the
    runs from there: it is proved in this boot and in this era, no era is taken back, and an
    applied advance begins one whose predecessors are never admitted again. -/
structure Proved (Goes : Process J → List Act → Process J → Prop) (n : Nat) (v : Process J) :
    Prop where
  here : ProvedHere v
  grown : ∀ later v', Goes v later v' → n + later.length ≤ 2 ^ 60 →
    Grown v.engine.accounts v'.engine.accounts
  advanced : ∀ r v₁ key, Step v (.call r) v₁ → Advances key v.engine r →
    ∃ a a', EraBegins v.engine r key a a' ∧ ∀ later v₂, Goes v₁ later v₂ →
      n + 1 + later.length ≤ 2 ^ 60 → Superseded v₂.engine key a

/-! ### Proofs of the boot -/

/-- **Step lemma.** -/
theorem Step.backed {v v' : Process J} {act : Act} (h : AllBacked v.engine v.calls)
    (hstep : Step v act v') : AllBacked v'.engine v'.calls := by
  cases hstep with
  | called r =>
    intro key a ha
    rw [show (v.engine.apply r).2.challenge = v.engine.challenge from
      (apply_sameConfig v.engine r).challenge]
    exact apply_backed h key a ha
  | snapshotted =>
    have hframe := Deployment.snapshot_sameLedger v.engine
    intro key a ha
    rw [show v.engine.snapshot.2.challenge = v.engine.challenge from hframe.challenge]
    rw [show v.engine.snapshot.2.accounts = v.engine.accounts from hframe.accounts] at ha
    exact h key a ha
  | restarted limits left journal operator nonce ends reopens snap recs o' yields ok =>
    intro key a ha i b hb hstate
    exact absurd hstate (recover_forgets yields ok ha hb)

/-- **Run lemma.**  Whatever fails: what a restart finds on the storage does not prove authority,
    and nothing else does but the calls of the boot. -/
theorem Run.proved {limits : EngineLimits} {journal : J} {operator : Incarnation}
    {nonce : Digest128} {acts : List Act} {v : Process J}
    (hrun : Run (start limits journal operator nonce) acts v) : ProvedHere v := by
  have hbacked : AllBacked v.engine v.calls := by
    induction hrun with
    | nil => exact fun key a ha => absurd ha (by simp [start, make])
    | concat run step ih => exact step.backed ih
  refine ⟨fun r happlied hopen hreconcile => ?_, fun key a i b ha hb hstate => ?_⟩
  · rcases applied_inv happlied with hopens | ⟨a, a', hadmitted, -, -⟩
    · exact absurd hopens.op hopen
    · have hbound := bound_of_bindAuthority hadmitted.bound
      obtain ⟨b, hb, hlive⟩ := live_of_bindIncarnation hbound.incarnation hreconcile
      have hstate : b.state = .reconciled := by
        simp only [IncarnationRecord.isLive, Bool.and_eq_true, beq_iff_eq] at hlive
        exact hlive.1.1
      have htenure : Tenure.of r =
          ⟨r.authority.account, a.epoch, a.generation, r.authority.incarnation⟩ := by
        rw [Tenure.of, hbound.epoch, hbound.generation]
      rw [htenure]
      exact ⟨_, (hbacked _ a hadmitted.found _ b hb hstate).backed⟩
  · exact hbacked key a ha i b hb hstate

/-! ### Eras -/

omit [StoredJournal J] in
/-- An applied advance begins an era. -/
theorem begins_of_advances {e : CreditEngine (Observed J)} {r : CreditRequest} {key : UInt64}
    (h : Advances key e r) : ∃ a a', EraBegins e r key a a' := by
  obtain ⟨hop, rfl, happlied⟩ := h
  rcases applied_inv happlied with hopens | ⟨a, a', hadmitted, hd, hfound⟩
  · rw [hopens.op] at hop
    exact absurd hop (by decide)
  obtain ⟨hepoch, hgeneration, -⟩ := decision_advanced hd hop
  obtain ⟨hlater, hnext⟩ := decision_advance hd hop
  have hsame := appliedAccount_sameStanding a r a'
  refine ⟨a, _, hadmitted.found, hfound, ?_, ?_⟩
  · rw [hsame.epoch, hepoch]
    exact hlater
  · rw [hsame.generation, hgeneration]
    exact hnext

omit [StoredJournal J] in
/-- An account in a later era than `a` binds no vector of `a`. -/
private theorem superseded_of_later {e : CreditEngine (Observed J)} {key : UInt64}
    {a a' : AccountState}
    (ha' : e.accounts[key]? = some a') (hepoch : a.epoch.toNat < a'.epoch.toNat)
    (hgeneration : a.generation.toNat < a'.generation.toNat) : Superseded e key a := by
  rintro r rfl hold
  refine answered_of_unbound ha' fun hfound hnone => ?_
  have hbound := bound_of_bindAuthority hnone
  rcases hold with hold | hold
  · rw [hbound.epoch] at hold
    omega
  · rw [hbound.generation] at hold
    omega

/-- **Authority is proved in this boot and this era.**  In every state of a process whoever acts,
    or is recorded as Reconciled, has proved its authority to this boot and in the era of the
    account, and nothing has ended it since; no later state takes an era back; and an applied
    advance begins an era whose predecessors are never admitted again.  The journal keeps its
    contract, and explicit snapshots have returned Ok. -/
theorem authority_proved {limits : EngineLimits} {journal : J} {operator : Incarnation}
    {nonce : Digest128} {acts : List Act} {v : Process J}
    (hrun : RunAnswered (start limits journal operator nonce) acts v)
    (hempty : Leaves journal {}) : Proved RunAnswered acts.length v := by
  refine ⟨hrun.run.proved, fun later v' hlater hn => ?_, fun r v₁ key hstep hadvances => ?_⟩
  · obtain ⟨w, hfollows, hkept⟩ := hrun.kept hempty (by omega)
    obtain ⟨w', hfollows', hkept'⟩ := hfollows.grown hkept hlater hn
    rw [← hfollows'.engine]
    exact hkept'.live
  · obtain ⟨a, a', hbegins⟩ := begins_of_advances hadvances
    refine ⟨a, a', hbegins, fun later v₂ hlater hn => ?_⟩
    obtain ⟨w₁, hfollows₁, hkept₁⟩ := (hrun.concat hstep nofun).kept hempty
      (by rw [List.length_append, List.length_singleton]; omega)
    rw [List.length_append, List.length_singleton] at hkept₁
    have hfound₁ : v₁.engine.accounts[key]? = some a' := by
      cases hstep with
      | called => exact hbegins.after
    obtain ⟨w₂, hfollows₂, hkept₂⟩ := hfollows₁.grown hkept₁ hlater hn
    have hlive := hkept₂.live
    rw [hfollows₂.engine] at hlive
    obtain ⟨a₂, ha₂, hprecedes⟩ := hlive key a' hfound₁
    have hepoch := hbegins.epoch
    have hgeneration := hbegins.generation
    have hepoch₂ := hprecedes.epoch
    have hgeneration₂ := hprecedes.generation
    exact superseded_of_later ha₂ (by omega) (by omega)

end Process

/-! ### An era that is taken back -/

namespace SecondEra

open Fixture CreditEngine Process LostPlace
open Deployment (Backed Tenure)

/-- The operator advances the epoch. -/
def advancing : CreditRequest := request nonce me .advanceEpoch 2

set_option maxRecDepth 20000 in
/-- The advance is acknowledged behind the failed snapshot, and two restarts later the operator
    reconciles in the first era. -/
theorem evaluated : Boots advancing ∧ (unsaved.apply advancing).1.applied = true ∧
    (unsaved.accounts[account]?.map AccountState.generation) = some 1 ∧
    ((third advancing).apply (request last me .reconcile 2)).1.applied = true := by
  decide +kernel

/-- An era that was proved can be taken back behind a snapshot that failed. -/
theorem era_taken_back : ¬ ∀ (limits : EngineLimits) (journal : FileJournal)
    (operator : Incarnation) (nonce : Digest128) (acts : List Deployment.Act)
    (v : Process FileJournal), StoredJournal.Leaves journal {} →
    Run (start limits journal operator nonce) acts v → Proved Run acts.length v := by
  intro hclaim
  obtain ⟨hboots, happlied, hfirst, hreconciled⟩ := evaluated
  obtain ⟨v, v₁, v₂, hrun, hunsaved, hcall, -, hlater, hthird⟩ := runs hboots
  have hadvances : Advances account v.engine advancing := by
    refine ⟨.inl rfl, rfl, ?_⟩
    rw [hunsaved]
    exact happlied
  obtain ⟨a, a', hbegins, hnever⟩ :=
    (hclaim {} files me nonce _ v files_empty hrun).advanced advancing v₁ account hcall hadvances
  have hbefore := hbegins.before
  rw [hunsaved] at hbefore
  rw [hbefore, Option.map_some, Option.some.injEq] at hfirst
  have hrefused := (hnever _ v₂ hlater (by decide) (request last me .reconcile 2) rfl
    (.inr (by rw [hfirst]; decide))).1
  rw [hthird, hreconciled] at hrefused
  exact absurd hrefused (by decide)

/-! A run in which nothing fails. -/

/-- The engine after the AdvanceEpoch. -/
def advanced : CreditEngine (Observed FileJournal) := beforehand.run [advancing]

/-- The engine after a snapshot that succeeded. -/
def saved : CreditEngine (Observed FileJournal) := advanced.saved

/-- The engine of the boot after it. -/
def restored : CreditEngine (Observed FileJournal) := boot {} ⟨reopened saved, []⟩ later

/-- The incarnation proves the second era. -/
def reconciling : CreditRequest := requestIn 2 2 later me .reconcile 3

/-- It issues in it. -/
def issuing : CreditRequest := requestIn 2 2 later me .issue 4

set_option maxRecDepth 20000 in
/-- Every step of the history, evaluated. -/
theorem evaluated_calm :
    (Replayable 1 untouched ∧
      (make {} (Observed.mk untouched []) me nonce).recover.1.ok = true) ∧
    (beforehand.apply advancing).1.applied = true ∧ advanced.snapshot.1.ok = true ∧
    (Replayable 1 (reopened saved) ∧
      (make {} (Observed.mk (reopened saved) []) me later).recover.1.ok = true) ∧
    ((restored.run [reconciling]).apply issuing).1.applied = true := by
  decide +kernel

/-- The AdvanceEpoch of the first boot begins an era, in which the first one is superseded behind
    a snapshot, a restart and a Reconcile; and the Issue that follows is backed by the Reconcile of
    its own boot. -/
theorem opener_proved : ∃ v v₁ v₂ : Process FileJournal,
    Step v (.call advancing) v₁ ∧
    RunAnswered v₁ [.snapshot, .restart, .call reconciling] v₂ ∧
    (∃ proof, Backed v₂.engine.challenge (Tenure.of issuing) proof v₂.calls) ∧
    Grown v.engine.accounts v₂.engine.accounts ∧
    ∃ a a', EraBegins v.engine advancing account a a' ∧ Superseded v₂.engine account a := by
  obtain ⟨⟨hfirst, hfirst'⟩, happlied, hsaved, ⟨hsecond, hsecond'⟩, hissued⟩ := evaluated_calm
  -- the engine behind each step of the two boots
  obtain ⟨v₀, hboot, hbooted⟩ := exists_boot hfirst hfirst'
  obtain ⟨v, hopen, hopened⟩ := exists_call hbooted opening
  have hbefore : v.engine = beforehand := hopened
  obtain ⟨v₁, hadvance, hafter⟩ := exists_call hbefore advancing
  have hadvanced : v₁.engine = advanced := hafter
  obtain ⟨v', hsnapshot, hkept⟩ := exists_snapshot hadvanced
  obtain ⟨v'', hrestart, hagain⟩ := exists_restart hkept {} (reopened saved) later (over_reopened _)
    hsecond hsecond'
  have hrestored : v''.engine = restored := hagain
  obtain ⟨v₂, hreconcile, hreconciled⟩ := exists_call hrestored reconciling
  -- the explicit snapshot was answered Ok
  have hrun : RunAnswered (start {} untouched me nonce) [.restart, .call opening] v :=
    .concat (.concat .nil hboot nofun) hopen nofun
  have hanswered : v₁.Answered .snapshot := by
    intro _
    rw [hadvanced]
    exact hsaved
  have hlater : RunAnswered v₁ [.snapshot, .restart, .call reconciling] v₂ :=
    .concat (.concat (.concat .nil hsnapshot hanswered) hrestart nofun) hreconcile nofun
  have hproved := authority_proved hrun untouched_empty
  -- the advance was applied, so its era is never taken back
  have hadvances : Advances account v.engine advancing := by
    refine ⟨.inl rfl, rfl, ?_⟩
    rw [hbefore]
    exact happlied
  obtain ⟨a, a', hera, hsuperseded⟩ := hproved.advanced advancing v₁ account hadvance hadvances
  have hlong := authority_proved ((((hrun.concat hadvance nofun).concat hsnapshot hanswered).concat
    hrestart nofun).concat hreconcile nofun) untouched_empty
  have hissued : (v₂.engine.apply issuing).1.applied = true := by
    rw [hreconciled]
    exact hissued
  refine ⟨v, v₁, v₂, hadvance, hlater, hlong.here.applied issuing hissued (by decide) (by decide),
    hproved.grown [.call advancing, .snapshot, .restart, .call reconciling] v₂ ?_ (by decide),
    a, a', hera, hsuperseded _ v₂ hlater (by decide)⟩
  exact .concat (.concat (.concat (.concat .nil hadvance nofun) hsnapshot hanswered) hrestart nofun)
    hreconcile nofun

end SecondEra

end CreditFabric
