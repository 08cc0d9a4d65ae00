import CreditFabric.Restart

namespace CreditFabric

open Std (ExtTreeMap)

/-!
# Any number of boots over one journal

A history is a list of restarts and calls over one journal.  Beside the engine, a `Site` keeps
each account as its last attempt left it, in whatever boot that was; this is what a replay of
the journal rebuilds.

A recovery forgets the liveness of every incarnation and does not journal that, while the
digest of every later attempt on the account covers it.  `history_rebuilt`: every restart of a
history rebuilds the books of the engine before it, if in front of every attempt the
incarnations that the last attempt on the account left reconciled are reconciled again, the
caller excepted.  `SecondRestart` is a history without that.
-/

namespace CreditEngine

variable {J : Type} [LawfulJournal J]

/-- One event in the life of a journal. -/
inductive Event where
  | restart (operator : Incarnation) (nonce : Digest128)
  | call (r : CreditRequest)
deriving DecidableEq

/-- The running engine, and each account as its last attempt left it. -/
structure Site (J : Type) where
  engine : CreditEngine J
  left : ExtTreeMap UInt64 AccountState := ∅

/-- The event happens: the next engine takes over, or the running one is called. -/
def Site.step (limits : EngineLimits) (s : Site J) : Event → Site J
  | .restart operator nonce => { s with engine := (s.engine.restarted limits operator nonce).2 }
  | .call r =>
    let e := (s.engine.apply r).2
    { engine := e
      left := match e.accounts[r.authority.account]? with
        | some a => s.left.insert r.authority.account a
        | none => s.left }

/-- Every event of the history meets the condition at the site where it happens. -/
def EachEvent (limits : EngineLimits) (P : Site J → Event → Prop) : Site J → List Event → Prop
  | _, [] => True
  | s, ev :: evs => P s ev ∧ EachEvent limits P (s.step limits ev) evs

instance (limits : EngineLimits) (P : Site J → Event → Prop) [∀ s ev, Decidable (P s ev)] :
    (s : Site J) → (evs : List Event) → Decidable (EachEvent limits P s evs)
  | _, [] => .isTrue trivial
  | s, ev :: evs =>
    have := instDecidableEachEvent limits P (s.step limits ev) evs
    inferInstanceAs (Decidable (_ ∧ _))

/-! ### What is assumed and what is promised -/

/-- Every call is an applied attempt that takes no snapshot. -/
def AppliedOnly (s : Site J) : Event → Prop
  | .restart _ _ => True
  | .call r => (s.engine.apply r).1.applied = true ∧
      (s.engine.apply r).2.snapshots = s.engine.snapshots

instance (s : Site J) : (ev : Event) → Decidable (AppliedOnly s ev)
  | .restart _ _ => .isTrue trivial
  | .call _ => inferInstanceAs (Decidable (_ ∧ _))

/-- Every restart recovers the books of the engine that stopped. -/
def Rebuilds (limits : EngineLimits) (s : Site J) : Event → Prop
  | .restart operator nonce => Recoverable limits s.engine operator nonce
  | .call _ => True

instance (limits : EngineLimits) (s : Site J) : (ev : Event) → Decidable (Rebuilds limits s ev)
  | .restart _ _ => inferInstanceAs (Decidable (Recoverable _ _ _ _))
  | .call _ => .isTrue trivial

/-- The incarnations that are reconciled in the account under the key. -/
def reconciledIn (accounts : ExtTreeMap UInt64 AccountState) (key : UInt64) :
    List IncarnationId :=
  match accounts[key]? with
  | none => []
  | some a => (a.incarnations.toList.filter fun entry => entry.2.state = .reconciled).map Prod.fst

/-- Who was reconciled on an account. -/
theorem mem_reconciledIn {accounts : ExtTreeMap UInt64 AccountState} {key : UInt64}
    {a : AccountState} (found : accounts[key]? = some a) (i : IncarnationId) :
    i ∈ reconciledIn accounts key ↔
      ∃ b, a.incarnations[i]? = some b ∧ b.state = .reconciled := by
  unfold reconciledIn
  simp only [found, List.mem_map, List.mem_filter, decide_eq_true_eq, Prod.exists,
    ExtTreeMap.mem_toList_iff_getElem?_eq_some]
  constructor
  · rintro ⟨i', b, ⟨hb, hstate⟩, rfl⟩
    exact ⟨b, hb, hstate⟩
  · rintro ⟨b, hb, hstate⟩
    exact ⟨i, b, ⟨hb, hstate⟩, rfl⟩

/-- In front of an attempt, every incarnation besides the caller that the last attempt on the
    account left reconciled is reconciled; and the note is one the encoder writes. -/
def Reestablished (s : Site J) : Event → Prop
  | .restart _ _ => True
  | .call r => r.note.length ≤ 4096 ∧
      ∀ i ∈ reconciledIn s.left r.authority.account, i ≠ r.authority.incarnation →
        i ∈ reconciledIn s.engine.accounts r.authority.account

-- the quantifier is decided over the list, never over all identifiers
instance (s : Site J) : (ev : Event) → Decidable (Reestablished s ev)
  | .restart _ _ => .isTrue trivial
  | .call _ => @instDecidableAnd _ _ inferInstance (List.decidableBAll _ _)

/-! ### The invariant -/

/-- The engine's account is the one the last attempt left, with or without its liveness. -/
def Trailing (live left : Option AccountState) : Prop :=
  live = left ∨ live = left.map AccountState.forgetLiveness

/-- The invariant of a history. -/
structure Consistent (limits : EngineLimits) (s : Site J) (recs : List JournalRecord) : Prop where
  journaled : Journaled limits s.left s.engine recs
  trailing : ∀ key : UInt64, Trailing s.engine.accounts[key]? s.left[key]?

section Consistent

variable {limits : EngineLimits} {s : Site J} {recs : List JournalRecord}

/-- The site and its engine agree up to liveness. -/
theorem Consistent.forgetLiveness (h : Consistent limits s recs) :
    (s.engine.accounts.map fun _ a => a.forgetLiveness) =
      s.left.map fun _ a => a.forgetLiveness := by
  refine ExtTreeMap.ext_getElem? fun key => ?_
  rw [ExtTreeMap.getElem?_map, ExtTreeMap.getElem?_map]
  rcases h.trailing key with heq | heq
  · rw [heq]
  · rw [heq]
    cases s.left[key]? with
    | none => rfl
    | some a => exact congrArg some (forgetLiveness_idem a)

/-- No notes are left behind a recovery. -/
theorem Consistent.noNotes (h : Consistent limits s recs) : NoNotes s.engine.accounts := by
  intro key a ha
  rcases h.trailing key with heq | heq
  · exact h.journaled.noNotes key a (heq.symm.trans ha)
  · rw [ha, eq_comm, Option.map_eq_some_iff] at heq
    obtain ⟨g, hg, rfl⟩ := heq
    exact h.journaled.noNotes key g hg

omit [LawfulJournal J] in
/-- With forgotten liveness only a Reconcile is admitted. -/
theorem Admitted.op_of_forgetLiveness {e : CreditEngine J} {r : CreditRequest}
    {g : AccountState} (h : Admitted e r g.forgetLiveness) : r.op = .reconcile := by
  by_contra hop
  obtain ⟨b, hb, hlive⟩ :=
    live_of_bindIncarnation (bound_of_bindAuthority h.bound).incarnation hop
  rw [AccountState.getElem?_forgetLiveness, Option.map_eq_some_iff] at hb
  obtain ⟨c, -, rfl⟩ := hb
  have hstate : c.forgetLiveness.state = .reconciled := by
    unfold IncarnationRecord.isLive at hlive
    simp only [Bool.and_eq_true, beq_iff_eq] at hlive
    exact hlive.1.1
  exact forgetLiveness_state c hstate

/-- An applied attempt finds the accounts of the journal trailing the live ones: the first
    attempt of a boot on an account is a Reconcile. -/
theorem Consistent.trails (h : Consistent limits s recs) {r : CreditRequest}
    {t : JournalRecord} {a : AccountState} (hd : Decides s.engine r t a)
    (hlive : Reestablished s (.call r)) : Trails s.engine s.left r := by
  refine ⟨fun hnone => ?_, fun b hb => ?_⟩
  · rcases h.trailing r.authority.account with heq | heq
    · exact heq.symm.trans hnone
    · rw [hnone, eq_comm, Option.map_eq_none_iff] at heq
      exact heq
  · rcases h.trailing r.authority.account with heq | heq
    · exact ⟨b, heq.symm.trans hb, rfl, .inl rfl⟩
    · rw [hb, eq_comm, Option.map_eq_some_iff] at heq
      obtain ⟨g, hg, hforgotten⟩ := heq
      subst hforgotten
      refine ⟨g, hg, rfl, .inr ?_⟩
      cases hd with
      | opened hopens => exact absurd (hopens.fresh.1.symm.trans hb) (by simp)
      | applied a hadmitted a' _ =>
        rw [hadmitted.found, Option.some.injEq] at hb
        subst hb
        refine ⟨hadmitted.op_of_forgetLiveness, fun i hi => ?_, AccountState.getElem?_forgetLiveness g _⟩
        rw [AccountState.getElem?_forgetLiveness]
        cases hget : g.incarnations[i]? with
        | none => rfl
        | some c =>
          -- a reconciled record would have to be reconciled again, which a forgotten one is not
          by_cases hstate : c.state = .reconciled
          · have hmem := hlive.2 i ((mem_reconciledIn hg i).mpr ⟨c, hget, hstate⟩) hi
            obtain ⟨b₁, hb₁, hagain⟩ := (mem_reconciledIn hadmitted.found i).mp hmem
            rw [AccountState.getElem?_forgetLiveness, Option.map_eq_some_iff] at hb₁
            obtain ⟨c₁, -, rfl⟩ := hb₁
            exact absurd hagain (forgetLiveness_state c₁)
          · rw [Option.map_some, (forgetLiveness_eq_self_iff c).mpr hstate]

end Consistent

/-! ### Histories -/

/-- A restart keeps the invariant. -/
theorem Consistent.restart {limits : EngineLimits} {s : Site J} {recs : List JournalRecord}
    (h : Consistent limits s recs) (operator : Incarnation) (nonce : Digest128) :
    Consistent limits (s.step limits (.restart operator nonce)) recs := by
  obtain ⟨e', heq, haccounts, hjournaled⟩ := h.journaled.restarted operator nonce
  have hsite : s.step limits (.restart operator nonce) = { s with engine := e' } := by
    show ({ s with engine := (s.engine.restarted limits operator nonce).2 } : Site J) = _
    rw [heq]
  rw [hsite]
  refine ⟨hjournaled, fun key => .inr ?_⟩
  show e'.accounts[key]? = _
  rw [haccounts, ExtTreeMap.getElem?_map]

/-- An applied call keeps the invariant. -/
theorem Consistent.call {limits : EngineLimits} {s : Site J} {recs : List JournalRecord}
    (h : Consistent limits s recs) {r : CreditRequest} (happlied : AppliedOnly s (.call r))
    (hlive : Reestablished s (.call r)) :
    ∃ recs', Consistent limits (s.step limits (.call r)) recs' := by
  obtain ⟨t, a, hcommits⟩ := apply_commits happlied.1 happlied.2
  have hnext := h.journaled.commits hcommits hlive.1 h.noNotes (h.trails hcommits.decides hlive)
  have hsite : s.step limits (.call r) =
      { engine := (s.engine.apply r).2, left := s.left.insert r.authority.account a } := by
    unfold Site.step
    simp only [hcommits.accounts, ExtTreeMap.getElem?_insert_self]
  rw [hsite]
  refine ⟨_, hnext, fun key => ?_⟩
  show Trailing (s.engine.apply r).2.accounts[key]? (s.left.insert r.authority.account a)[key]?
  rw [hcommits.accounts]
  by_cases hkey : key = r.authority.account
  · subst hkey
    exact .inl (by rw [ExtTreeMap.getElem?_insert_self, ExtTreeMap.getElem?_insert_self])
  · rw [Lib.getElem?_insert_of_ne _ _ hkey, Lib.getElem?_insert_of_ne _ _ hkey]
    exact h.trailing key

/-- **Run lemma.** -/
theorem Consistent.history {limits : EngineLimits} {s : Site J} {recs : List JournalRecord}
    (h : Consistent limits s recs) {evs : List Event}
    (happlied : EachEvent limits AppliedOnly s evs)
    (hlive : EachEvent limits Reestablished s evs) :
    EachEvent limits (Rebuilds limits) s evs := by
  induction evs generalizing s recs with
  | nil => trivial
  | cons ev evs ih =>
    cases ev with
    | restart operator nonce =>
      exact ⟨h.journaled.recoverable h.forgetLiveness operator nonce,
        ih (h.restart operator nonce) happlied.2 hlive.2⟩
    | call r =>
      obtain ⟨recs', hnext⟩ := h.call happlied.1 hlive.1
      exact ⟨trivial, ih hnext happlied.2 hlive.2⟩

/-- **Recoverability across restarts.**  In every history over one journal, empty at the
    start, whose calls are applied attempts without a snapshot, every restart recovers the
    books of the engine before it, if every attempt finds the incarnations reconciled that the
    last attempt on its account left so. -/
theorem history_rebuilt (limits : EngineLimits) {j : J} (hj : LawfulJournal.Holds j none [])
    (operator : Incarnation) (nonce : Digest128) (evs : List Event)
    (happlied : EachEvent limits AppliedOnly { engine := make limits j operator nonce } evs)
    (hlive : EachEvent limits Reestablished { engine := make limits j operator nonce } evs) :
    EachEvent limits (Rebuilds limits) { engine := make limits j operator nonce } evs := by
  have hstart : Consistent limits { engine := make limits j operator nonce } [] :=
    ⟨make_journaled limits hj operator nonce, fun _ => .inl rfl⟩
  exact hstart.history happlied hlive

/-! ### A second restart

The operator opens the account and another incarnation reconciles.  After a restart the
operator reconciles again and the other incarnation does not: the journaled digest has it
unknown, the replay has it reconciled, and the next recovery fails. -/

namespace SecondRestart

/-- A second incarnation. -/
def other : Incarnation := .make 0x0DEB 0x0B008

/-- A site in front of its first boot. -/
def site : Site InMemoryJournal := { engine := make {} {} Fixture.me ⟨4, 4⟩ }

/-- Two boots, and what is asked of them. -/
def events : List Event :=
  [.restart Fixture.me ⟨5, 5⟩, .call (Fixture.request ⟨5, 5⟩ Fixture.me .open_ 1),
    .call (Fixture.request ⟨5, 5⟩ other .reconcile 1),
    .restart Fixture.me ⟨6, 6⟩, .call (Fixture.request ⟨6, 6⟩ Fixture.me .reconcile 2)]

/-- The second restart of a history need not succeed: an incarnation that the first one has set back
    to Unknown does not match what its next record says. -/
theorem secondRestart_fails :
    EachEvent {} AppliedOnly site (events ++ [.restart Fixture.me ⟨7, 7⟩]) ∧
      ¬ EachEvent {} (Rebuilds {}) site (events ++ [.restart Fixture.me ⟨7, 7⟩]) ∧
      ((events.foldl (Site.step {}) site).engine.restarted {} Fixture.me ⟨7, 7⟩).1 =
        .refused .journalDigestMismatch 135 := by
  decide +kernel

/-- The operator alone, over two restarts. -/
def aloneEvents : List Event :=
  [.restart Fixture.me ⟨5, 5⟩, .call (Fixture.request ⟨5, 5⟩ Fixture.me .open_ 1),
    .restart Fixture.me ⟨6, 6⟩, .call (Fixture.request ⟨6, 6⟩ Fixture.me .reconcile 2),
    .call (Fixture.request ⟨6, 6⟩ Fixture.me .issue 3), .restart Fixture.me ⟨7, 7⟩]

/-- With one incarnation each restart rebuilds the engine. -/
theorem alone_rebuilt : EachEvent {} (Rebuilds {}) site aloneEvents := by
  have hempty : LawfulJournal.Holds ({} : InMemoryJournal) none [] := ⟨rfl, rfl⟩
  unfold site
  exact history_rebuilt {} hempty Fixture.me ⟨4, 4⟩ aloneEvents (by decide +kernel)
    (by decide +kernel)

end SecondRestart

end CreditEngine

end CreditFabric
