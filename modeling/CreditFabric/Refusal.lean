import CreditFabric.Rollback
import CreditFabric.LedgerInvariant

namespace CreditFabric

open Std (ExtTreeMap)

/-!
# Decided refusals

A refusal that is decided against the ledger is journaled and consumes its sequence number.
It is meant to change bookkeeping only, and to be replayed from the same state.  An Issue
writes its bindings before the last check, so a refusal may leave a producer, consumer or
grant bound that replay, which re-derives the refusal without the writes, never binds.
`apply_refusal_iff` shows that this is the only way the two can differ.
-/

/-- `a'` is `a` after a decided refusal of `r`: only the counters of the refusal, the caller's
    watermark, the window, the refusal log and the resolved ambiguous notes differ. -/
structure OnlyBookkeeping (a a' : AccountState) (r : CreditRequest) : Prop where
  frame : a' = { a with
    refusedAttempts := a'.refusedAttempts, incarnations := a'.incarnations,
    window := a'.window, refusals := a'.refusals, refusalCursor := a'.refusalCursor,
    ambiguous := a'.ambiguous }
  others : ∀ i, i ≠ r.authority.incarnation → a'.incarnations[i]? = a.incarnations[i]?
  caller : a'.incarnations[r.authority.incarnation]? =
    (a.incarnations[r.authority.incarnation]?).map fun b =>
      { b with refusedOps := b.refusedOps + 1, lastSequence := r.sequence }
  ambiguous : a'.ambiguous =
    (a.resolveAmbiguous r.authority.incarnation r.sequence).ambiguous

/-- The account a refused decision publishes, when it is decided on `a`. -/
def refusedAccount (limits : EngineLimits) (a : AccountState) (r : CreditRequest)
    (outcome : CreditOutcome) : AccountState :=
  ((countRefused a r.authority.incarnation).publishWindow r outcome).recordRefusal
    limits.maxRefusalLog r outcome

/-- A refusal changes the record of its caller only. -/
theorem getElem?_refusedAccount (limits : EngineLimits) (a : AccountState) (r : CreditRequest)
    (o : CreditOutcome) (i : IncarnationId) :
    (refusedAccount limits a r o).incarnations[i]? =
      if i = r.authority.incarnation then
        (a.incarnations[r.authority.incarnation]?).map fun b =>
          { b with refusedOps := b.refusedOps + 1, lastSequence := r.sequence }
      else a.incarnations[i]? := by
  unfold refusedAccount
  rw [AccountState.recordRefusal_eq]
  simp only [AccountState.getElem?_publishWindow, countRefused,
    AccountState.getElem?_updateIncarnation, if_true, Option.map_map]
  by_cases hi : i = r.authority.incarnation
  · rw [if_pos hi, if_pos hi]
    rfl
  · rw [if_neg hi, if_neg hi, if_neg hi]

/-- And in it the counters and the place only. -/
theorem refusedAccount_onlyBookkeeping (limits : EngineLimits) (a : AccountState)
    (r : CreditRequest) (o : CreditOutcome) :
    OnlyBookkeeping a (refusedAccount limits a r o) r where
  frame := by
    unfold refusedAccount
    rw [AccountState.recordRefusal_eq, AccountState.publishWindow_eq, countRefused,
      AccountState.updateIncarnation_eq]
  others i hi := by rw [getElem?_refusedAccount, if_neg hi]
  caller := by rw [getElem?_refusedAccount, if_pos rfl]
  ambiguous := by
    unfold refusedAccount
    rw [AccountState.recordRefusal_eq]
    unfold AccountState.publishWindow AccountState.resolveAmbiguous countRefused
    simp only
    rw [AccountState.updateIncarnation_eq]
    simp only
    rw [AccountState.updateIncarnation_eq]

namespace CreditEngine

variable {J : Type} [Journal J]

/-- The call ended in a journaled refusal: the outcome is decided and not applied, and an
    Attempt record was appended. -/
structure JournaledRefusal (e : CreditEngine (Observed J)) (r : CreditRequest) : Prop where
  decided : (e.apply r).1.decided = true
  notApplied : (e.apply r).1.applied = false
  journaled : ∃ events t s, (e.apply r).2.journal.log = e.journal.log ++ events ∧
    .appended t s ∈ events ∧ t.kind = .attempt ∧ s.ok = true

/-- What a journaled refusal promises: the account of the request differs in bookkeeping only,
    the other accounts not at all, and the record that was journaled is read back as this refusal
    and replays from the accounts and the chain before the call. -/
structure RefusalKept (e : CreditEngine (Observed J)) (r : CreditRequest) : Prop where
  account : ∃ a a', e.accounts[r.authority.account]? = some a ∧
    (e.apply r).2.accounts[r.authority.account]? = some a' ∧ OnlyBookkeeping a a' r
  others : ∀ key, key ≠ r.authority.account →
    (e.apply r).2.accounts[key]? = e.accounts[key]?
  replays : ∃ events t s d, (e.apply r).2.journal.log = e.journal.log ++ events ∧
    .appended t s ∈ events ∧ t.kind = .attempt ∧ s.ok = true ∧
    decodeDurableAttempt t.payload = .ok d ∧ d.request = r ∧ d.outcome = (e.apply r).1 ∧
    ∀ ρ : CreditEngine (Observed J), ρ.accounts = e.accounts → ρ.chain = e.chain →
      (ρ.replayAttemptRecord t).1.ok = true

/-- **Inversion of a journaled refusal.**  It comes from a refused decision on an admitted
    request whose records are durable. -/
theorem JournaledRefusal.inv {e : CreditEngine (Observed J)} {r : CreditRequest}
    (h : JournaledRefusal e r) :
    ∃ a s a', Admitted e r a ∧ e.decision a r = .refuse s a' ∧
      ((e.refusing r a').persistLocked r (refusalOutcome a r s a')
        (countRefused a' r.authority.incarnation) false).1.ok = true ∧
      e.apply r = (refusalOutcome a r s a',
        publishRefused r.authority.account (countRefused a' r.authority.incarnation) r
          (refusalOutcome a r s a')
          ((e.refusing r a').persistLocked r (refusalOutcome a r s a')
            (countRefused a' r.authority.incarnation) false).2) := by
  obtain ⟨hdecided, happlied, events, t, st, hlog, hmem, -, -⟩ := h
  -- a call that leaves the log alone has appended nothing
  have hquiet : (e.apply r).2.journal.log ≠ e.journal.log := by
    intro heq
    have hnil : events = [] := by simpa [heq] using hlog
    rw [hnil] at hmem
    exact absurd hmem (by simp)
  have heffect := apply_effect e r
  generalize e.apply r = result at heffect hdecided happlied hquiet
  obtain ⟨o, e'⟩ := result
  cases heffect with
  | answered o _ _ => exact absurd rfl hquiet
  | absorbed a existing _ _ => exact absurd rfl hquiet
  | rejected a h s a' hd => exact absurd rfl hquiet
  | opened h hok => exact absurd (show true = false from happlied) (by decide)
  | refused a h s a' hd hok => exact ⟨a, s, a', h, hd, hok, rfl⟩
  | applied a h a' hd hok => exact absurd (show true = false from happlied) (by decide)
  | failed o e' _ hundecided _ _ => exact absurd (hdecided.symm.trans hundecided) (by decide)

omit [Journal J] in
/-- A refusal decided on the unchanged account replays from it. -/
private theorem replayAttempt_refusal {e ρ : CreditEngine J} {r : CreditRequest} {a : AccountState}
    {o : CreditOutcome} (happlied : o.applied = false) (hdecided : o.decided = true)
    (hfound : ρ.accounts[r.authority.account]? = some a) :
    (ρ.replayAttempt (e.durableAttempt r o (countRefused a r.authority.incarnation)
      false)).1.ok = true := by
  unfold replayAttempt
  simp only [durableAttempt, hfound, Bool.false_eq_true, if_false, replayDecision, happlied,
    hdecided, if_true, Status.ok_success, Bool.not_true, finishReplay, verifyReplay,
    AccountState.buildDurable, Bool.not_false, ne_eq, not_true_eq_false]

omit [Journal J] in
/-- The record of such a refusal replays when its note has been encoded. -/
private theorem replayAttemptRecord_refusal {e ρ : CreditEngine J} {r : CreditRequest}
    {a : AccountState}
    {o : CreditOutcome} (happlied : o.applied = false) (hdecided : o.decided = true)
    (hdecode : decodeDurableAttempt
      (e.attemptRecord r o (countRefused a r.authority.incarnation) false).payload =
        .ok (e.durableAttempt r o (countRefused a r.authority.incarnation) false))
    (hfound : ρ.accounts[r.authority.account]? = some a) (hchain : ρ.chain = e.chain) :
    (ρ.replayAttemptRecord
      (e.attemptRecord r o (countRefused a r.authority.incarnation) false)).1.ok = true := by
  have hreplays := replayAttempt_refusal (e := e) (ρ := ρ) happlied hdecided hfound
  have hexpected : expectedChain ρ.chain
      (e.attemptRecord r o (countRefused a r.authority.incarnation) false).sequence
      (e.durableAttempt r o (countRefused a r.authority.incarnation) false) =
      (e.attemptRecord r o (countRefused a r.authority.incarnation) false).chain := by
    rw [hchain]
    rfl
  unfold replayAttemptRecord
  rw [hdecode]
  simp only [hexpected, hreplays, ne_eq, not_true_eq_false, if_false, Bool.not_true,
    Bool.false_eq_true, Status.ok_success]

/-- **Decided refusals.**  A journaled refusal changes only bookkeeping and its record replays
    from the state before it, exactly when it is not an Issue that was refused after writing a
    binding and its note fits the 4096 bytes of the encoder. -/
theorem apply_refusal_iff (e : CreditEngine (Observed J)) (r : CreditRequest)
    (h : JournaledRefusal e r) :
    RefusalKept e r ↔ r.note.length ≤ 4096 ∧
      ∀ a, e.accounts[r.authority.account]? = some a → ¬ LeaksBinding a r := by
  obtain ⟨a, s, a', hadmitted, hdec, hok, heq⟩ := h.inv
  have hfound := hadmitted.found
  have haccounts : (e.apply r).2.accounts = e.accounts.insert r.authority.account
      (refusedAccount e.limits a' r (refusalOutcome a r s a')) := by
    have hframe := persistLocked_frame (e.refusing r a') r (refusalOutcome a r s a')
      (countRefused a' r.authority.incarnation) false
    rw [heq]
    show (persistLocked _ _ _ _ _).2.accounts.insert _ (AccountState.recordRefusal _
      (persistLocked _ _ _ _ _).2.limits.maxRefusalLog _ _) = _
    rw [hframe.accounts, hframe.limits, refusing, put_accounts, put_limits,
      Lib.insert_insert_self]
    rfl
  have hsame : a' = a ↔ ¬ LeaksBinding a r := by
    rw [decision_refuse_account_iff hdec, RollbackCovers]
    refine and_iff_right_of_imp fun _ hop => ?_
    -- an epoch advance is rejected or applied, never refused
    rcases decision_cases e a r with ⟨hc, -⟩ | ⟨hc, hrec⟩ | ⟨-, hdata, -⟩
    · rw [hdec] at hc
      cases hc with
      | refused _ hne => exact absurd hop (by simp [hne])
    · rcases hop with hop | hop <;> exact absurd (hop.symm.trans hrec) (by decide)
    · rcases hop with hop | hop <;> simp [hop, classify] at hdata
  have hgoal : (∀ a, e.accounts[r.authority.account]? = some a → ¬ LeaksBinding a r) ↔
      a' = a := by
    rw [hsame]
    simp only [hfound, Option.some.injEq, forall_eq']
  rw [hgoal]
  constructor
  · rintro ⟨⟨b, b', hb, hb', hkept⟩, -, _, _, _, d, -, -, -, -, hdecode, hrequest, -⟩
    refine ⟨?_, ?_⟩
    · -- what has been decoded has a note that was encoded
      rw [← hrequest]
      exact ((decodeDurableAttempt_eq_ok _ _).mp hdecode).1.note
    rw [hfound, Option.some.injEq] at hb
    subst hb
    rw [haccounts, ExtTreeMap.getElem?_insert_self, Option.some.injEq] at hb'
    subst hb'
    -- compare the caller's record with the one the decision handed over
    rcases decision_cases e a r with ⟨hc, -⟩ | ⟨hc, -⟩ | ⟨hc, -⟩ <;> rw [hdec] at hc
    · cases hc with
      | refused => rfl
    · cases hc
    · cases hc with
      | refused => rfl
      | refusedBound op hopen b found _ hrefused =>
        rw [setIncarnation_eq_self_iff found]
        have hcaller := hkept.caller
        rw [getElem?_refusedAccount, if_pos rfl, found, AccountState.setIncarnation,
          ExtTreeMap.getElem?_insert_self, Option.map_some, Option.map_some,
          Option.some.injEq] at hcaller
        rw [bindIssue_eq b r] at hcaller ⊢
        simp only [IncarnationRecord.mk.injEq] at hcaller
        rw [hcaller.2.2.2.2.2.2.2.1, hcaller.2.2.2.2.2.2.2.2.1, hcaller.2.2.2.2.2.2.2.2.2.1]
  · rintro ⟨hnote, ha⟩
    rw [ha] at haccounts hok heq
    refine ⟨⟨a, _, hfound, ?_, refusedAccount_onlyBookkeeping e.limits a r
      (refusalOutcome a r s a)⟩, ?_, ?_⟩
    · rw [haccounts, ExtTreeMap.getElem?_insert_self]
    · intro key hkey
      rw [haccounts, Lib.getElem?_insert_of_ne _ _ hkey]
    · obtain ⟨events, hlog, htrace⟩ := persistLocked_trace (e.refusing r a) r
        (refusalOutcome a r s a) (countRefused a r.authority.incarnation) false
      have hrecord : ∃ st, .appended ((e.refusing r a).attemptRecord r (refusalOutcome a r s a)
          (countRefused a r.authority.incarnation) false) st ∈ events ∧ st.ok = true := by
        obtain ⟨s₁, s₂, more, rfl, -, hs₂, -⟩ := htrace.of_ok hok
        exact ⟨s₂, by simp, hs₂⟩
      obtain ⟨st, hmem, hst⟩ := hrecord
      have hdecode := decodeDurableAttempt_encode (durableAttempt_written (e.refusing r a) r
        (o := refusalOutcome a r s a) (countRefused a r.authority.incarnation)
        (c := false) (quarantined_computeView _ _) fun hc => absurd hc (by decide)) hnote
      refine ⟨events, (e.refusing r a).attemptRecord r (refusalOutcome a r s a)
          (countRefused a r.authority.incarnation) false, st, _, ?_, hmem, rfl, hst, hdecode, rfl,
        congrArg Prod.fst heq.symm, fun ρ hρ hchain => ?_⟩
      · rw [heq]
        exact hlog
      · exact replayAttemptRecord_refusal rfl rfl hdecode (by rw [hρ]; exact hfound) hchain

/-! ### A binding that outlives its refusal

The operator opens an account of capacity 8 and issues 100 credits with producer 5: the ledger
refuses, the producer stays bound.  An Issue without bindings is refused cleanly. -/

namespace OverIssue

/-- The engine in front of the refusal. -/
def before : CreditEngine (Observed InMemoryJournal) :=
  (Fixture.boot {} { journal := {} } ⟨5, 5⟩).run [Fixture.request ⟨5, 5⟩ Fixture.me .open_ 1]

/-- A refused request with no producer. -/
def unbound : CreditRequest :=
  { Fixture.request ⟨5, 5⟩ Fixture.me .issue 2 with count := 100 }

/-- The same with a producer. -/
def bound : CreditRequest := { unbound with producer := 5 }

/-- The producer bound to the operator's record. -/
def producer (e : CreditEngine (Observed InMemoryJournal)) : Option ProducerId :=
  (e.accounts[Fixture.account]?.bind fun a => a.incarnations[Fixture.me.id]?).map
    IncarnationRecord.producer

/-- The last call was a successful Attempt append. -/
def attemptAppended : List JournalEvent → Bool
  | [.appended i _, .appended t s] => i.kind == .intent && t.kind == .attempt && s.ok
  | _ => false

/-- Both refusals are journaled, and one binds the producer; evaluated once. -/
theorem evaluated :
    (∀ r ∈ [bound, unbound], (before.apply r).1.decided = true ∧
      (before.apply r).1.applied = false ∧
      (before.apply r).2.journal.log.take before.journal.log.length = before.journal.log ∧
      attemptAppended ((before.apply r).2.journal.log.drop before.journal.log.length) = true) ∧
    producer before = some 0 ∧ producer (before.apply bound).2 = some 5 := by
  decide +kernel

end OverIssue

/-- The last two calls of a list, when they are appends, belong to it. -/
theorem journaled_of_attemptAppended (log : List JournalEvent) {events : List JournalEvent}
    (h : OverIssue.attemptAppended events = true) :
    ∃ events' t s, log ++ events = log ++ events' ∧ .appended t s ∈ events' ∧
      t.kind = .attempt ∧ s.ok = true := by
  unfold OverIssue.attemptAppended at h
  split at h
  · rename_i i _ t s
    simp only [Bool.and_eq_true, beq_iff_eq] at h
    exact ⟨_, t, s, rfl, by simp, h.1.2, h.2⟩
  · exact absurd h (by simp)

/-- A refusal whose events are in the log was journaled. -/
theorem journaledRefusal_of_events {e : CreditEngine (Observed J)} {r : CreditRequest}
    (hdecided : (e.apply r).1.decided = true) (happlied : (e.apply r).1.applied = false)
    (hheld : (e.apply r).2.journal.log.take e.journal.log.length = e.journal.log)
    (hevents : OverIssue.attemptAppended
      ((e.apply r).2.journal.log.drop e.journal.log.length) = true) : JournaledRefusal e r := by
  refine ⟨hdecided, happlied, ?_⟩
  obtain ⟨events, t, s, heq, hmem⟩ := journaled_of_attemptAppended e.journal.log hevents
  refine ⟨events, t, s, ?_, hmem⟩
  rw [← heq, ← List.take_append_drop e.journal.log.length (e.apply r).2.journal.log, hheld]
  simp

/-- A request that names no producer, consumer or grant binds none. -/
theorem not_leaksBinding_of_unset (a : AccountState) {r : CreditRequest}
    (hproducer : isSet r.producer = false) (hconsumer : isSet r.consumer = false)
    (hgrant : isSet r.grant = false) : ¬ LeaksBinding a r := by
  have hnever : ∀ {requested held : UInt64}, isSet requested = false →
      ¬ NewlyBound requested held := by
    rintro requested held hunset ⟨hset, -⟩
    rw [hunset] at hset
    exact absurd hset (by decide)
  rintro ⟨-, -, b, -, -, hleak⟩
  rcases hleak with ⟨-, hnew⟩ | ⟨-, -, hnew | hnew⟩ | ⟨-, -, -, hnew | hnew | hnew⟩
  · exact hnever hproducer hnew
  · exact hnever hproducer hnew
  · exact hnever hconsumer hnew
  · exact hnever hproducer hnew
  · exact hnever hconsumer hnew
  · exact hnever hgrant hnew

/-- The refused Issue changes the operator's binding, so the refusal is not kept. -/
theorem issue_refusal_leaks :
    JournaledRefusal OverIssue.before OverIssue.bound ∧
      OverIssue.producer OverIssue.before = some 0 ∧
      OverIssue.producer (OverIssue.before.apply OverIssue.bound).2 = some 5 ∧
      ¬ RefusalKept OverIssue.before OverIssue.bound := by
  obtain ⟨hjournaled, hbefore, hafter⟩ := OverIssue.evaluated
  obtain ⟨hdecided, happlied, hheld, hevents⟩ := hjournaled OverIssue.bound (by simp)
  refine ⟨journaledRefusal_of_events hdecided happlied hheld hevents, hbefore, hafter, ?_⟩
  rintro ⟨⟨a, a', hfound, hfound', hkept⟩, -, -⟩
  have hcaller := hkept.caller
  unfold OverIssue.producer at hbefore hafter
  have hkey : OverIssue.bound.authority.account = Fixture.account := rfl
  have hid : OverIssue.bound.authority.incarnation = Fixture.me.id := rfl
  rw [hkey] at hfound hfound'
  rw [hid] at hcaller
  rw [hfound, Option.bind_some] at hbefore
  rw [hfound', Option.bind_some, hcaller, Option.map_map] at hafter
  exact absurd (hbefore.symm.trans hafter) (by decide)

/-- The refusal of the Issue without bindings is kept. -/
theorem issue_refusal_kept : RefusalKept OverIssue.before OverIssue.unbound := by
  obtain ⟨hdecided, happlied, hheld, hevents⟩ := OverIssue.evaluated.1 OverIssue.unbound (by simp)
  refine (apply_refusal_iff OverIssue.before OverIssue.unbound
    (journaledRefusal_of_events hdecided happlied hheld hevents)).mpr ⟨by decide, fun a _ => ?_⟩
  exact not_leaksBinding_of_unset a rfl rfl rfl

end CreditEngine

end CreditFabric
