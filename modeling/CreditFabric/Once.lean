import CreditFabric.Answers
import CreditFabric.BucketMachine
import CreditFabric.Client
import CreditFabric.Trace
import CreditFabric.Sequencing

namespace CreditFabric

open Lib
open Lib.Decoder
open CoordinatorClient (demandsReconcile)

/-!
# One attempt, one commit

A caller tries again behind three refusals only.  `apply_appends` shows that none of them is
the answer to a call that appended an Attempt record, unless the journal failed there, and then
the engine decides nothing more.
-/

/-! ### The refusals of a decision -/

/-- The refusals of a request that stands at another place than its caller's next one. -/
def refusesPlace (reason : Reason) : Bool :=
  reason = .sequenceGap || reason = .staleReplay || reason = .attemptConflict

/-- The status does not make a caller try again, from where it is or from another place. -/
def Final (s : Status) : Prop :=
  demandsReconcile s.reason = false ∧ refusesPlace s.reason = false

namespace LedgerPlan

/-- A failed check of the invariants is final. -/
theorem checkInvariants_final (capacity : UInt64) (totals : CreditTotals) :
    Final (checkInvariants capacity totals) := by
  unfold checkInvariants
  simp only
  split_ifs <;> exact ⟨rfl, rfl⟩

variable {p : LedgerPlan}

/-- A plan that ends in a final status still does behind a commit. -/
private theorem commit_final (h : Final p.status) (candidate : CreditTotals) :
    Final (p.commit candidate).2.status := by
  unfold commit
  simp only
  split_ifs
  · exact h
  · exact checkInvariants_final _ _
  · exact h

/-- A mutator refuses for reasons of its own, or for those of the invariant check. -/
theorem mutate_final (h : Final p.status) (u : Mutator) : Final (p.mutate u).2.status := by
  cases u with
  | issue | consume | giveBack | protect | unprotect | retireStale | quarantineInFlight
    | revalidateToReturned | revalidateToConsumed | setCapacity =>
    simp only [mutate, issue, consume, giveBack, protect, unprotect, retireStale,
      quarantineInFlight, revalidateToReturned, revalidateToConsumed, setCapacity]
    split_ifs <;> first | exact h | exact commit_final h _ | exact ⟨rfl, rfl⟩

end LedgerPlan

/-- What a ledger operation refuses is final. -/
theorem ledgerApply_final {plan : LedgerPlan} (h : Final plan.status) (a : AccountState)
    (r : CreditRequest) : Final (ledgerApply plan a r).1 := by
  have hverdict : ∀ u : Mutator, Final
      (if (plan.mutate u).1 then Status.success else (plan.mutate u).2.status) := by
    intro u
    split_ifs
    · exact ⟨rfl, rfl⟩
    · exact LedgerPlan.mutate_final h u
  unfold ledgerApply
  cases r.op <;> simp only <;> try exact ⟨rfl, rfl⟩
  · exact hverdict (.issue _ _ _)
  · exact hverdict (.consume _)
  · by_cases hrule : (!a.config.rules.allowReturn) = true
    · rw [if_pos hrule]
      exact ⟨rfl, rfl⟩
    · rw [if_neg hrule]
      exact hverdict (.giveBack _)
  · exact hverdict (.protect _ _)
  · exact hverdict (.unprotect _)

/-- What the binding of an Issue refuses is final. -/
theorem bindIssue_final {b : IncarnationRecord} {r : CreditRequest} {s : Status}
    (h : (bindIssue b r).2 = some s) : Final s := by
  unfold bindIssue at h
  cases hp : bindField r.producer b.producer with
  | error held =>
    rw [hp] at h
    cases h
    exact ⟨rfl, rfl⟩
  | ok producer =>
  cases hc : bindField r.consumer b.consumer with
  | error held =>
    simp only [hp, hc] at h
    cases h
    exact ⟨rfl, rfl⟩
  | ok consumer =>
  cases hg : bindField r.grant b.grant with
  | error held =>
    simp only [hp, hc, hg] at h
    cases h
    exact ⟨rfl, rfl⟩
  | ok grant =>
    simp only [hp, hc, hg] at h
    cases h

/-- What a plan refuses is final. -/
theorem planned_final {a a' : AccountState} {s : Status} (u : Mutator)
    {commit : LedgerPlan → AccountState}
    (h : planned a (·.mutate u) commit = .refuse s a') : Final s := by
  unfold planned at h
  simp only at h
  split_ifs at h
  cases h
  exact LedgerPlan.mutate_final (LedgerPlan.checkInvariants_final _ _) u

/-- What a ledger operation decides against is final. -/
theorem decideLedger_final {a a' : AccountState} {r : CreditRequest} {s : Status}
    (h : decideLedger a r = .refuse s a') : Final s := by
  -- past the bindings the verdict of the ledger is the only refusal left
  have hledger : ∀ (capacity : UInt64) (totals : CreditTotals) (x y : AccountState),
      (if !(ledgerApply (.start capacity totals) x r).1.ok
        then Decision.refuse (ledgerApply (.start capacity totals) x r).1 x
        else .proceed y) = .refuse s a' → Final s := by
    intro capacity totals x y hx
    have hstart : Final (LedgerPlan.start capacity totals).status :=
      LedgerPlan.checkInvariants_final capacity totals
    have hfinal := ledgerApply_final hstart x r
    split_ifs at hx
    rw [(Decision.refuse.inj hx).1] at hfinal
    exact hfinal
  unfold decideLedger at h
  split_ifs at h with hop hexhausted hissue
  · cases h
    exact ⟨rfl, rfl⟩
  · cases hfind : a.findIncarnation r.authority.incarnation with
    | none =>
      rw [hfind] at h
      cases h
    | some b =>
      simp only [hfind, Option.map_some] at h
      cases hbind : (bindIssue b r).2 with
      | some refusal =>
        simp only [hbind] at h
        cases h
        exact bindIssue_final hbind
      | none =>
        simp only [hbind] at h
        exact hledger _ _ _ _ h
  · exact hledger _ _ _ _ h

/-- What a control operation decides against is final. -/
theorem decideControl_final {limits : EngineLimits} {a a' : AccountState} {r : CreditRequest}
    {s : Status} (h : decideControl limits a r = .refuse s a') : Final s := by
  unfold decideControl at h
  cases hop : r.op with
  | setCapacity =>
    rw [hop] at h
    exact planned_final (.setCapacity _ _ _) h
  | retire =>
    rw [hop] at h
    exact planned_final (.retireStale _) h
  | revalidate =>
    simp only [hop] at h
    split_ifs at h with hnone hreturned
    · exact planned_final (.revalidateToReturned _) h
    · exact planned_final (.revalidateToConsumed _) h
  -- neither advance is ever refused as decided
  | advanceEpoch | rotate =>
    simp only [hop] at h
    split_ifs at h
  | retireIncarnation =>
    simp only [hop] at h
    cases hfind : a.findIncarnation r.target with
    | none =>
      rw [hfind] at h
      split_ifs at h
    | some b =>
      simp only [hfind] at h
      split_ifs at h
      cases h
      exact ⟨rfl, rfl⟩
  | exhaust | clearExhaustion | fence =>
    simp only [hop] at h
    split_ifs at h
    all_goals
      cases h
      exact ⟨rfl, rfl⟩
  | _ =>
    rw [hop] at h
    cases h

/-! ### The Attempt records of one call -/

/-- The reader of the operation. -/
def readOp : Decoder ByteReader UInt8 := do
  let _attempt ← ByteReader.digest
  ByteReader.u8

/-- The operation an Attempt record carries, read off its payload. -/
def attemptOp (payload : List UInt8) : Option OpKind :=
  match readOp { rest := payload } with
  | .ok (op, _) => OpKind.ofCode? op.toNat
  | .error _ => none

/-- The operation of a written Attempt. -/
theorem attemptOp_encode (d : DurableAttempt) :
    attemptOp (encodeDurableAttempt d) = some d.request.op := by
  obtain ⟨rest, hrest⟩ : ∃ rest, encodeDurableAttempt d =
      (ByteWriter.digest d.request.attempt ++ ByteWriter.u8 (UInt8.ofNat d.request.op.code)) ++
        rest := by
    simp only [encodeDurableAttempt, encodeRequestBody, encodeRequestHead, List.append_assoc]
    exact ⟨_, rfl⟩
  have hrecognizes : readOp.Recognizes (fun op u => ∃ attempt,
      u = ByteWriter.digest attempt ++ ByteWriter.u8 op) :=
    (ByteReader.recognizes_digest.bind fun _ => ByteReader.recognizes_u8).congr fun op u => by
      constructor
      · rintro ⟨attempt, _, _, rfl, rfl, hu⟩
        exact ⟨attempt, hu⟩
      · rintro ⟨attempt, hu⟩
        exact ⟨attempt, _, _, rfl, rfl, hu⟩
  have hread := (hrecognizes { rest := encodeDurableAttempt d }
    (UInt8.ofNat d.request.op.code) { rest, position := 0 + _ }).mpr ⟨_, ⟨_, rfl⟩, hrest, rfl⟩
  have hcode : (UInt8.ofNat d.request.op.code).toNat = d.request.op.code := by
    have hlt := d.request.op.code_lt
    rw [UInt8.toNat_ofNat']
    omega
  unfold attemptOp
  rw [hread]
  simp only [hcode]
  exact (OpKind.ofCode?_eq_some _ _).mpr rfl

/-- An append of an Attempt record, with the verdict of the journal. -/
def JournalEvent.attempt? : JournalEvent → Option (JournalRecord × Status)
  | .appended t s => if t.kind = .attempt then some (t, s) else none
  | _ => none

namespace CreditEngine

variable {J : Type} [Journal J]

/-- The appends of Attempt records among the journal calls of one decision. -/
def attemptAppends (e : CreditEngine (Observed J)) (r : CreditRequest) :
    List (JournalRecord × Status) :=
  ((e.apply r).2.journal.log.drop e.journal.log.length).filterMap (·.attempt?)

omit [Journal J] in
/-- What a decision refuses is final. -/
theorem decision_final {e : CreditEngine J} {a a' : AccountState} {r : CreditRequest}
    {s : Status} (h : e.decision a r = .refuse s a') : Final s := by
  unfold decision at h
  split_ifs at h with hcontrol hreconcile
  · exact decideControl_final h
  · unfold decideReconcile at h
    split_ifs at h
  · exact decideLedger_final h

/-- What one attempt returns, by the Attempt records it appends.  `spent` says that nothing
    tried behind it is decided. -/
inductive Appends (r : CreditRequest) (spent : Prop) (o : CreditOutcome) :
    List (JournalRecord × Status) → Prop
  | nothing (happlied : o.applied = false) : Appends r spent o []
  | decided (t : JournalRecord) (s : Status) (d : DurableAttempt) (hdecided : o.decided = true)
      (hfinal : Final o.status) (hsuccess : o.applied = true → o.status.ok = true)
      (hkept : s.ok = true)
      (hpayload : t.payload = encodeDurableAttempt d) (hrequest : d.request = r)
      (houtcome : d.outcome = o) : Appends r spent o [(t, s)]
  | failed (appends : List (JournalRecord × Status)) (happlied : o.applied = false)
      (hspent : spent) (honce : appends.length ≤ 1)
      (hops : ∀ p ∈ appends, attemptOp p.1.payload = some r.op) : Appends r spent o appends

/-- A settled decision appends its record, or the journal has failed. -/
theorem settle_appends {e e₀ : CreditEngine (Observed J)} {r : CreditRequest}
    {o : CreditOutcome} {a : AccountState} {c : Bool}
    {rollback publish : CreditEngine (Observed J) → CreditEngine (Observed J)}
    (hjournal : e₀.journal = e.journal)
    (hrollback : ∀ x, (rollback x).journal = x.journal)
    (hpublish : ∀ x, (publish x).journal = x.journal) (hdecided : o.decided = true)
    (hfinal : Final o.status) (hsuccess : o.applied = true → o.status.ok = true) :
    Appends r ((e₀.settle r o a c rollback publish).2.journalFailed = true)
      (e₀.settle r o a c rollback publish).1 (((e₀.settle r o a c rollback
        publish).2.journal.log.drop e.journal.log.length).filterMap (·.attempt?)) := by
  obtain ⟨events, hlog, htrace⟩ := persistLocked_trace e₀ r o a c
  have hop : attemptOp (e₀.attemptRecord r o a c).payload = some r.op :=
    attemptOp_encode (e₀.durableAttempt r o a c)
  -- of the events only the append of the Attempt counts
  have hintent : ∀ s : Status, (JournalEvent.appended (e₀.intentRecord r) s).attempt? = none :=
    fun _ => rfl
  have hattempt : ∀ s : Status, (JournalEvent.appended (e₀.attemptRecord r o a c) s).attempt? =
      some (e₀.attemptRecord r o a c, s) := fun _ => rfl
  have hsnapshot : ∀ {s : Status} {more : List JournalEvent},
      SnapshotTrace (e₀.afterDecision r o a c) s more → more.filterMap (·.attempt?) = [] := by
    intro s more hsnap
    cases hsnap <;> rfl
  have hevents : (e₀.persistLocked r o a c).2.journal.log.drop e.journal.log.length = events := by
    rw [hlog, hjournal, List.drop_left]
  cases hok : (e₀.persistLocked r o a c).1.ok with
  | true =>
    -- exactly one Attempt was appended, and it is the answer's
    rw [settle_of_ok hok, hpublish, hevents]
    obtain ⟨s₁, s₂, more, rfl, -, h₂, hmore⟩ := htrace.of_ok hok
    have hrest : more.filterMap (·.attempt?) = [] := by
      rw [List.filterMap_eq_nil_iff]
      intro event hevent
      cases event with
      | appended t s =>
        simp only [JournalEvent.attempt?]
        rw [hmore t s hevent]
        rfl
      | _ => rfl
    rw [List.filterMap_cons_none (hintent s₁), List.filterMap_cons_some (hattempt s₂), hrest]
    exact .decided _ s₂ (e₀.durableAttempt r o a c) hdecided hfinal hsuccess h₂ rfl rfl rfl
  | false =>
    rw [settle_of_failed hok]
    show Appends r _ _ (((rollback _).journal.log.drop e.journal.log.length).filterMap _)
    rw [hrollback, hevents]
    -- the trace stopped before the Attempt, at it, or in the snapshot behind it
    have honce : (events.filterMap (·.attempt?)).length ≤ 1 ∧
        ∀ p ∈ events.filterMap (·.attempt?), attemptOp p.1.payload = some r.op := by
      generalize (e₀.persistLocked r o a c).1 = status at htrace hok
      cases htrace with
      | intentFailed s h => exact ⟨Nat.zero_le 1, nofun⟩
      | attemptFailed s₁ _ h₁ h =>
        rw [List.filterMap_cons_none (hintent s₁), List.filterMap_cons_some (hattempt _)]
        refine ⟨le_refl 1, fun p hp => ?_⟩
        rw [List.mem_singleton.mp hp]
        exact hop
      | kept s₁ s₂ h₁ h₂ => exact absurd hok (by decide)
      | rotated s₁ s₂ s more h₁ h₂ hsnap =>
        rw [List.filterMap_cons_none (hintent s₁), List.filterMap_cons_some (hattempt s₂),
          hsnapshot hsnap]
        refine ⟨le_refl 1, fun p hp => ?_⟩
        rw [List.mem_singleton.mp hp]
        exact hop
    exact .failed _ rfl rfl honce.1 honce.2

/-- **Attempt records of one call.** -/
theorem apply_appends (e : CreditEngine (Observed J)) (r : CreditRequest) :
    Appends r ((e.apply r).2.journalFailed = true) (e.apply r).1 (e.attemptAppends r) := by
  have hnothing : ∀ {o : CreditOutcome} {e' : CreditEngine (Observed J)}, o.applied = false →
      e'.journal = e.journal → Appends r (e'.journalFailed = true) o
        ((e'.journal.log.drop e.journal.log.length).filterMap (·.attempt?)) := by
    intro o e' happlied hjournal
    rw [hjournal, List.drop_length]
    exact .nothing happlied
  have hcase := apply_cases e r
  unfold attemptAppends
  generalize e.apply r = result at hcase ⊢
  cases hcase with
  | answered o happlied hdup => exact hnothing happlied rfl
  | absorbed a existing found placed => exact hnothing rfl rfl
  | opened h => exact settle_appends rfl (fun _ => rfl) (fun _ => rfl) rfl ⟨rfl, rfl⟩ fun _ => rfl
  | decided a h =>
    unfold settleDecision follow
    cases hd : e.decision a r with
    | reject s a' => exact hnothing rfl rfl
    | refuse s a' =>
      exact settle_appends rfl (fun _ => rfl) (fun _ => rfl) rfl (decision_final hd) nofun
    | proceed a' => exact settle_appends rfl (fun _ => rfl) (fun _ => rfl) rfl ⟨rfl, rfl⟩ fun _ => rfl

/-- A latched engine appends nothing. -/
theorem attemptAppends_of_latched {e : CreditEngine (Observed J)} (h : e.journalFailed = true)
    (r : CreditRequest) : e.attemptAppends r = [] := by
  unfold attemptAppends
  rw [journalFailed_apply h, List.drop_length]
  rfl

/-- A Describe appends nothing. -/
theorem attemptAppends_of_describe (e : CreditEngine (Observed J)) {r : CreditRequest}
    (hop : r.op = .describe) : e.attemptAppends r = [] := by
  have hcase := apply_cases e r
  unfold attemptAppends
  generalize e.apply r = result at hcase ⊢
  cases hcase with
  | answered => rw [List.drop_length]; rfl
  | absorbed => rw [List.drop_length]; rfl
  | opened h => exact absurd (h.op.symm.trans hop) (by decide)
  | decided a h => exact absurd hop h.notDescribe

/-- A latched engine does not change. -/
theorem run_of_latched {e : CreditEngine J} (h : e.journalFailed = true)
    (rs : List CreditRequest) : e.run rs = e := by
  induction rs with
  | nil => rfl
  | cons r rs ih => rw [run_cons, journalFailed_apply h, ih]

end CreditEngine

/-! ### Trying again -/

section Trying

variable {J : Type} [Journal J]

/-- How far a caller has come: the calls it has made, and whether nothing it tries from here on
    is decided. -/
structure Progress (J : Type) where
  calls : List (CreditEngine (Observed J) × CreditRequest)
  spent : Prop

/-- The Attempt records of the calls made here. -/
def appendsOf (calls : List (CreditEngine (Observed J) × CreditRequest)) :
    List (JournalRecord × Status) := calls.flatMap fun c => c.1.attemptAppends c.2

/-- From `p` to `p'` the caller's calls appended the Attempt records `appends`. -/
structure Reached (p p' : Progress J) (appends : List (JournalRecord × Status)) : Prop where
  calls : ∃ calls, p'.calls = p.calls ++ calls ∧ appendsOf calls = appends
  spent : p.spent → p'.spent ∧ appends = []

/-- Nothing has been called. -/
theorem Reached.refl (p : Progress J) : Reached p p [] where
  calls := ⟨[], (List.append_nil _).symm, rfl⟩
  spent h := ⟨h, rfl⟩

/-- Some calls and then others. -/
theorem Reached.trans {p p' p'' : Progress J} {xs ys : List (JournalRecord × Status)}
    (h : Reached p p' xs) (h' : Reached p' p'' ys) : Reached p p'' (xs ++ ys) where
  calls := by
    obtain ⟨calls, hcalls, hxs⟩ := h.calls
    obtain ⟨calls', hcalls', hys⟩ := h'.calls
    refine ⟨calls ++ calls', ?_, ?_⟩
    · rw [hcalls', hcalls, List.append_assoc]
    · rw [← hxs, ← hys]
      exact List.flatMap_append
  spent hspent := by
    obtain ⟨hspent', hxs⟩ := h.spent hspent
    obtain ⟨hspent'', hys⟩ := h'.spent hspent'
    exact ⟨hspent'', by rw [hxs, hys, List.append_nil]⟩

/-- Only Reconcile records were appended. -/
def OnlyReconciles (appends : List (JournalRecord × Status)) : Prop :=
  ∀ p ∈ appends, attemptOp p.1.payload = some .reconcile

/-- The attempts of a caller for one operation: behind Reconcile records at most one record of
    the operation, and its outcome is the one returned when that is an application. -/
def Tries (op : OpKind) (o : CreditOutcome) (p p' : Progress J) : Prop :=
  ∃ earlier own, Reached p p' (earlier ++ own) ∧ OnlyReconciles earlier ∧ own.length ≤ 1 ∧
    (∀ x ∈ own, attemptOp x.1.payload = some op) ∧
    (o.applied = true → ∃ t s d, own = [(t, s)] ∧ s.ok = true ∧
      t.payload = encodeDurableAttempt d ∧ d.request.op = op ∧ d.outcome = o)

/-- All the Attempts of a call are of its operation. -/
theorem CreditEngine.Appends.ops {r : CreditRequest} {spent : Prop} {o : CreditOutcome}
    {appends : List (JournalRecord × Status)} (h : CreditEngine.Appends r spent o appends) :
    ∀ x ∈ appends, attemptOp x.1.payload = some r.op := by
  cases h with
  | nothing => exact nofun
  | decided t s d _ _ _ _ hpayload hrequest =>
    intro x hx
    rw [List.mem_singleton.mp hx, hpayload, attemptOp_encode, hrequest]
  | failed _ _ _ _ hops => exact hops

/-- What a call appends, under a weaker condition. -/
theorem CreditEngine.Appends.imp {r : CreditRequest} {spent spent' : Prop} {o : CreditOutcome}
    {appends : List (JournalRecord × Status)} (h : CreditEngine.Appends r spent o appends)
    (himp : spent → spent') : CreditEngine.Appends r spent' o appends := by
  cases h with
  | nothing happlied => exact .nothing happlied
  | decided t s d hdecided hfinal hsuccess hkept hpayload hrequest houtcome =>
    exact .decided t s d hdecided hfinal hsuccess hkept hpayload hrequest houtcome
  | failed _ happlied hspent honce hops => exact .failed _ happlied (himp hspent) honce hops

/-- What is not decided is not applied. -/
theorem CreditEngine.Appends.unapplied {r : CreditRequest} {spent : Prop} {o : CreditOutcome}
    {appends : List (JournalRecord × Status)} (h : CreditEngine.Appends r spent o appends)
    (hdecided : o.decided = false) : o.applied = false := by
  cases h with
  | nothing happlied => exact happlied
  | decided _ _ _ hdecided' => exact absurd hdecided' (by rw [hdecided]; decide)
  | failed _ happlied => exact happlied

/-- What is applied returns Ok. -/
theorem CreditEngine.Appends.success {r : CreditRequest} {spent : Prop} {o : CreditOutcome}
    {appends : List (JournalRecord × Status)} (h : CreditEngine.Appends r spent o appends)
    (happlied : o.applied = true) : o.status.ok = true := by
  cases h with
  | nothing hunapplied => exact absurd happlied (by rw [hunapplied]; decide)
  | decided _ _ _ _ _ hsuccess => exact hsuccess happlied
  | failed _ hunapplied => exact absurd happlied (by rw [hunapplied]; decide)

/-- A call appends one Attempt at most. -/
theorem CreditEngine.Appends.once {r : CreditRequest} {spent : Prop} {o : CreditOutcome}
    {appends : List (JournalRecord × Status)} (h : CreditEngine.Appends r spent o appends) :
    appends.length ≤ 1 := by
  cases h with
  | nothing => exact Nat.zero_le 1
  | decided => exact le_refl 1
  | failed _ _ _ honce => exact honce

/-- An attempt in itself. -/
theorem CreditEngine.Appends.tries {r : CreditRequest} {o : CreditOutcome} {p p' : Progress J}
    {appends : List (JournalRecord × Status)} (h : CreditEngine.Appends r p'.spent o appends)
    (hreached : Reached p p' appends) : Tries r.op o p p' := by
  refine ⟨[], appends, hreached, nofun, h.once, h.ops, fun happlied => ?_⟩
  cases h with
  | nothing hunapplied => exact absurd happlied (by rw [hunapplied]; decide)
  | decided t s d _ _ _ hkept hpayload hrequest houtcome =>
    exact ⟨t, s, d, rfl, hkept, hpayload, congrArg CreditRequest.op hrequest, houtcome⟩
  | failed _ hunapplied => exact absurd happlied (by rw [hunapplied]; decide)

/-- A stretch in which a caller had nothing but reconciliations decided. -/
def Reconciling (p p' : Progress J) : Prop :=
  ∃ appends, Reached p p' appends ∧ OnlyReconciles appends

/-- No call at all. -/
theorem Reconciling.refl (p : Progress J) : Reconciling p p := ⟨[], .refl p, nofun⟩

/-- Some reconciliations and then others. -/
theorem Reconciling.trans {p p' p'' : Progress J} (h : Reconciling p p')
    (h' : Reconciling p' p'') : Reconciling p p'' := by
  obtain ⟨xs, hreached, honly⟩ := h
  obtain ⟨ys, hreached', honly'⟩ := h'
  refine ⟨xs ++ ys, hreached.trans hreached', fun x hx => ?_⟩
  rcases List.mem_append.mp hx with hx | hx
  · exact honly x hx
  · exact honly' x hx

/-- An attempt that got no further than a reconciliation. -/
theorem Reconciling.tries {p p' : Progress J} (h : Reconciling p p') (op : OpKind)
    {o : CreditOutcome} (happlied : o.applied = false) : Tries op o p p' := by
  obtain ⟨earlier, hreached, honly⟩ := h
  refine ⟨earlier, [], ?_, honly, Nat.zero_le 1, nofun, fun ho => ?_⟩
  · rw [List.append_nil]
    exact hreached
  · exact absurd ho (by rw [happlied]; decide)

/-- An attempt in front of which something was reconciled. -/
theorem Tries.behind {op : OpKind} {o : CreditOutcome} {p p' p'' : Progress J}
    (hreconciling : Reconciling p p') (h : Tries op o p' p'') : Tries op o p p'' := by
  obtain ⟨between, own, hreached', honly', hrest⟩ := h
  obtain ⟨earlier, hreached, honly⟩ := hreconciling
  refine ⟨earlier ++ between, own, ?_, fun x hx => ?_, hrest⟩
  · rw [List.append_assoc]
    exact hreached.trans hreached'
  · rcases List.mem_append.mp hx with hx | hx
    · exact honly x hx
    · exact honly' x hx

/-- An attempt behind one that was not finally decided. -/
theorem Tries.again {r : CreditRequest} {op : OpKind} {o o' : CreditOutcome}
    {p p' p'' : Progress J} {appends : List (JournalRecord × Status)}
    (hreached : Reached p p' appends) (hround : CreditEngine.Appends r p'.spent o appends)
    (hretry : ¬ (o.decided = true ∧ Final o.status)) (hop : r.op = op)
    (h : Tries op o' p' p'') : Tries op o' p p'' := by
  subst hop
  cases hround with
  | nothing happlied => exact h.behind ⟨[], hreached, nofun⟩
  | decided _ _ _ hdecided hfinal => exact absurd ⟨hdecided, hfinal⟩ hretry
  | failed _ happlied hspent honce hops =>
    -- nothing is decided behind this attempt, so its record stays the only one
    obtain ⟨earlier, own, hreached', -, -, -, happlied'⟩ := h
    have hnone := (hreached'.spent hspent).2
    have hboth := hreached.trans hreached'
    rw [hnone, List.append_nil] at hboth
    refine ⟨[], appends, hboth, nofun, honce, hops, fun ho => ?_⟩
    obtain ⟨t, s, d, rfl, -⟩ := happlied' ho
    exact absurd hnone (by simp)

end Trying

/-! ### The session in the process of the engine -/

namespace SharedEngine

variable {J : Type} [Journal J]

/-- The calls that have been made to the engine, and whether it is spent. -/
def progress (s : SharedEngine (Observed J)) : Progress J where
  calls := s.calls
  spent := s.engine.journalFailed = true

/-- The calls of others are none of this caller. -/
theorem letIn_reconciling (s : SharedEngine (Observed J)) :
    Reconciling s.progress s.letIn.progress := by
  refine ⟨[], ⟨⟨[], (List.append_nil _).symm, rfl⟩, fun h => ⟨?_, rfl⟩⟩, nofun⟩
  show (s.engine.run _).journalFailed = true
  rw [CreditEngine.run_of_latched h]
  exact h

/-- One call of the caller. -/
theorem apply_reached (s : SharedEngine (Observed J)) (r : CreditRequest) :
    Reached s.progress (s.apply r).2.progress (s.letIn.engine.attemptAppends r) where
  calls := ⟨[(s.letIn.engine, r)], rfl, List.append_nil _⟩
  spent h := by
    have hengine : s.letIn.engine = s.engine := CreditEngine.run_of_latched h _
    refine ⟨?_, ?_⟩
    · show (s.letIn.engine.apply r).2.journalFailed = true
      rw [hengine, CreditEngine.journalFailed_apply h]
      exact h
    · rw [hengine]
      exact CreditEngine.attemptAppends_of_latched h r

/-- What it appends. -/
theorem apply_appends (s : SharedEngine (Observed J)) (r : CreditRequest) :
    CreditEngine.Appends r (s.apply r).2.progress.spent (s.apply r).1
      (s.letIn.engine.attemptAppends r) :=
  s.letIn.engine.apply_appends r

/-- A Reconcile of the caller. -/
theorem reconcile_reconciling (s : SharedEngine (Observed J)) {r : CreditRequest}
    (hop : r.op = .reconcile) : Reconciling s.progress (s.apply r).2.progress := by
  refine ⟨_, s.apply_reached r, fun x hx => ?_⟩
  rw [(s.apply_appends r).ops x hx, hop]

/-- A Describe of the caller. -/
theorem describe_reconciling (s : SharedEngine (Observed J)) {r : CreditRequest}
    (hop : r.op = .describe) : Reconciling s.progress (s.apply r).2.progress := by
  have hnone : s.letIn.engine.attemptAppends r = [] :=
    CreditEngine.attemptAppends_of_describe s.letIn.engine hop
  refine ⟨_, s.apply_reached r, ?_⟩
  rw [hnone]
  exact nofun

end SharedEngine

namespace LocalSession

variable {J : Type} [Journal J]

/-- The rounds of `reconcile` only reconcile and describe. -/
theorem reconcileRounds_reconciling (rounds : Nat) (session : LocalSession)
    (s : SharedEngine (Observed J)) :
    Reconciling s.progress (session.reconcileRounds s rounds).2.2.progress := by
  induction rounds generalizing session s with
  | zero => exact .refl _
  | succ rounds ih =>
    unfold reconcileRounds
    simp only
    have hround := s.reconcile_reconciling (r :=
      { op := .reconcile, presenter := session.draw.2.me, attempt := session.draw.1
        sequence := session.draw.2.sequence, authority := session.draw.2.authority
        proof := s.engine.challenge.prove session.draw.2.me session.draw.2.authority }) rfl
    split_ifs
    · exact hround
    · exact hround.trans (ih _ _)
    · exact hround.trans (ih _ _)
    · exact hround

/-- So does `reconcile`. -/
theorem reconcile_reconciling (session : LocalSession) (s : SharedEngine (Observed J)) :
    Reconciling s.progress (session.reconcile s).2.2.progress := by
  unfold reconcile
  simp only
  cases s.letIn.engine.accounts[session.account]? with
  | none => exact s.letIn_reconciling
  | some a =>
    simp only
    split_ifs
    · exact s.letIn_reconciling.trans (s.letIn.describe_reconciling rfl)
    · exact (s.letIn_reconciling.trans (s.letIn.describe_reconciling rfl)).trans
        (reconcileRounds_reconciling 8 _ _)

/-- The rounds of `call` try until one is decided. -/
theorem callRounds_tries (rounds : Nat) (session : LocalSession) (s : SharedEngine (Observed J))
    (request : CreditRequest) : Tries request.op (session.callRounds s request rounds).1
      s.progress (session.callRounds s request rounds).2.2.progress := by
  induction rounds generalizing session s request with
  | zero => exact (Reconciling.refl _).tries _ rfl
  | succ rounds ih =>
    unfold callRounds
    simp only
    have hreached := s.apply_reached { request with
      attempt := session.draw.1, sequence := session.draw.2.sequence
      authority := session.draw.2.authority }
    have happends := s.apply_appends { request with
      attempt := session.draw.1, sequence := session.draw.2.sequence
      authority := session.draw.2.authority }
    split_ifs with hdecided hgap hstale hdemands hfailed
    · exact happends.tries hreached
    · exact Tries.again hreached happends (fun h => hdecided h.1) rfl (ih _ _ _)
    · exact Tries.again hreached happends (fun h => hdecided h.1) rfl (ih _ _ _)
    · refine Tries.again hreached happends (fun h => hdecided h.1) rfl ?_
      exact (reconcile_reconciling _ _).tries _
        (happends.unapplied (Bool.not_eq_true _ ▸ hdecided))
    · refine Tries.again hreached happends (fun h => hdecided h.1) rfl ?_
      exact (ih _ _ _).behind (reconcile_reconciling _ _)
    · exact happends.tries hreached

/-- So does `call`. -/
theorem call_tries (session : LocalSession) (s : SharedEngine (Observed J))
    (request : CreditRequest) : Tries request.op (session.call s request).1 s.progress
      (session.call s request).2.2.progress := by
  unfold call
  simp only
  split_ifs
  · exact (reconcile_reconciling session s).tries _ rfl
  · exact (callRounds_tries 8 _ _ _).behind (reconcile_reconciling session s)
  · exact callRounds_tries 8 _ _ _

end LocalSession

/-! ### The client of a coordinator -/

/-- The coordinator reads back the request that was sent, or none. -/
theorem decodeRequestMessage_sent {maxNoteBytes : Nat} {r r' : CreditRequest}
    (h : decodeRequestMessage (encodeRequestMessage r) maxNoteBytes = .ok r') : r' = r := by
  have hrun := ((decodeRequestBody_recognizes maxNoteBytes).run (encodeRequestBody r) _ r').mp h
  obtain ⟨hnote', hlt', hdata⟩ := hrun
  by_cases hnote : r.note.length ≤ 4096
  · -- both are what a reader with room for both notes reads
    have hboth := fun (x : CreditRequest) =>
      (decodeRequestBody_recognizes (max maxNoteBytes r.note.length)).run (encodeRequestBody r)
        (fun c => .refused .malformedMessage (UInt64.ofNat c.position)) x
    have hr := (hboth r).mpr ⟨le_max_right _ _, by omega, encodeRequestBody_of_le hnote⟩
    have hr' := (hboth r').mpr ⟨hnote'.trans (le_max_left _ _), hlt', hdata⟩
    exact Except.ok.inj (hr'.symm.trans hr)
  · have hlength := congrArg List.length hdata
    rw [encodeRequestBody_of_gt (by omega)] at hlength
    simp only [List.length_append, length_encodeRequestHead, ByteWriter.length_u32] at hlength
    omega

namespace Connection

variable {J : Type} [Journal J]

/-- What becomes of a sent request. -/
inductive Transferred (c : Connection J) (r : CreditRequest) :
    Except Status (List UInt8) × Connection J → Prop
  | unserved (status : Status) (c' : Connection J) (hserver : c'.server = c.server)
      (hwhole : c.deliveries.headD .whole = .whole → status = .refused .transportError 22) :
      Transferred c r (.error status, c')
  | unanswered (status : Status) (c' : Connection J) (hserver : c'.server = (c.server.apply r).2)
      (hlost : c.deliveries.headD .whole ≠ .whole) : Transferred c r (.error status, c')
  | undecoded (status : Status) (c' : Connection J) (hserver : c'.server = c.server)
      (hstatus : decodeRequestMessage (encodeRequestMessage r) c.maxNoteBytes = .error status) :
      Transferred c r
        (.ok (encodeResponseMessage (refusalOutcome status.reason status.detail)), c')
  | answered (c' : Connection J) (hserver : c'.server = (c.server.apply r).2) :
      Transferred c r (.ok (encodeResponseMessage (c.server.apply r).1), c')

/-- What becomes of a request on a connection. -/
theorem transfer_cases (c : Connection J) (r : CreditRequest) :
    Transferred c r (c.transfer (encodeRequestMessage r)) := by
  unfold transfer
  simp only
  by_cases hserving : c.serving = true
  swap
  · simp only [hserving, Bool.not_false, if_true]
    exact .unserved _ _ rfl fun _ => rfl
  simp only [hserving, Bool.not_true, Bool.false_eq_true, if_false]
  cases hdelivery : c.deliveries.headD .whole with
  | requestLost failure =>
    exact .unserved _ _ rfl fun h => absurd (hdelivery.symm.trans h) (by simp)
  | whole =>
    unfold serve
    cases hdecode : decodeRequestMessage (encodeRequestMessage r) c.maxNoteBytes with
    | error status =>
      exact .undecoded status _ rfl hdecode
    | ok r' =>
      simp only [decodeRequestMessage_sent hdecode]
      exact .answered _ rfl
  | responseLost failure =>
    unfold serve
    cases hdecode : decodeRequestMessage (encodeRequestMessage r) c.maxNoteBytes with
    | error status =>
      exact .unserved _ _ rfl fun h => absurd (hdelivery.symm.trans h) (by simp)
    | ok r' =>
      simp only [decodeRequestMessage_sent hdecode]
      exact .unanswered _ _ rfl (by rw [hdelivery]; simp)

end Connection

namespace CoordinatorClient

variable {J : Type} [Journal J]

/-- The same of the engine behind a connection; a client that is not connected is spent. -/
def progress (client : CoordinatorClient) (c : Connection (Observed J)) : Progress J where
  calls := c.server.calls
  spent := client.connected = false ∨ c.server.engine.journalFailed = true

omit [Journal J] in
/-- Progress is read off the connection state of the client alone. -/
theorem progress_congr {client client' : CoordinatorClient} {c : Connection (Observed J)}
    (h : client.connected = client'.connected) : client.progress c = client'.progress c := by
  unfold progress
  rw [h]

/-- Calls of the server are calls of its client. -/
theorem reached_of_server {client client' : CoordinatorClient} {c c' : Connection (Observed J)}
    {appends : List (JournalRecord × Status)} (hconnected : client.connected = true)
    (h : Reached c.server.progress c'.server.progress appends) :
    Reached (client.progress c) (client'.progress c') appends where
  calls := h.calls
  spent hspent := by
    have hlatched : c.server.engine.journalFailed = true :=
      hspent.resolve_left (by rw [hconnected]; decide)
    obtain ⟨hlatched', hnone⟩ := h.spent hlatched
    exact ⟨.inr hlatched', hnone⟩

/-- One exchange is one attempt. -/
theorem exchange_round (client : CoordinatorClient) (c : Connection (Observed J))
    (r : CreditRequest) : ∃ appends,
      Reached (client.progress c)
        ((client.exchange c r).2.1.progress (client.exchange c r).2.2) appends ∧
      CreditEngine.Appends r
        ((client.exchange c r).2.1.progress (client.exchange c r).2.2).spent
        (client.exchange c r).1 appends ∧
      (appends = [] ∨ appends = c.server.letIn.engine.attemptAppends r) := by
  unfold exchange
  by_cases hconnected : client.connected = true
  swap
  · simp only [hconnected, Bool.not_false, if_true]
    exact ⟨[], .refl _, .nothing rfl, .inl rfl⟩
  simp only [hconnected, Bool.not_true, Bool.false_eq_true, if_false]
  have hcase := c.transfer_cases r
  generalize c.transfer (encodeRequestMessage r) = result at hcase ⊢
  have hsame : ∀ {c' : Connection (Observed J)} {client' : CoordinatorClient},
      c'.server = c.server → Reached (client.progress c) (client'.progress c') [] := by
    intro c' client' hserver
    refine reached_of_server hconnected ?_
    rw [hserver]
    exact .refl _
  have hserved : ∀ {c' : Connection (Observed J)} {client' : CoordinatorClient},
      c'.server = (c.server.apply r).2 → Reached (client.progress c) (client'.progress c')
        (c.server.letIn.engine.attemptAppends r) := by
    intro c' client' hserver
    refine reached_of_server hconnected ?_
    rw [hserver]
    exact c.server.apply_reached r
  -- what the server journals in one round
  have hround := c.server.apply_appends r
  cases hcase with
  | unserved status c' hserver => exact ⟨[], hsame hserver, .nothing rfl, .inl rfl⟩
  -- the call was served but its answer lost: the client is spent
  | unanswered status c' hserver =>
    exact ⟨_, hserved hserver, .failed _ rfl (.inl rfl) hround.once hround.ops, .inr rfl⟩
  | undecoded status c' hserver =>
    have hdecode := (decodeResponseMessage_eq_ok _
      (Connection.refusalOutcome status.reason status.detail)).mpr ⟨rfl, rfl⟩
    simp only [hdecode]
    exact ⟨[], hsame hserver, .nothing rfl, .inl rfl⟩
  | answered c' hserver =>
    have hdecode := (decodeResponseMessage_eq_ok _ (c.server.apply r).1).mpr
      ⟨(c.server.letIn.engine.apply_readable r).view, rfl⟩
    simp only [hdecode]
    refine ⟨_, hserved hserver, ?_, .inr rfl⟩
    have hspent : (c.server.apply r).2.progress.spent →
        ((client.adopt r (c.server.apply r).1).progress c').spent := by
      intro hlatched
      refine .inr ?_
      rw [hserver]
      exact hlatched
    exact hround.imp hspent

/-- An exchange of a Describe or a Reconcile. -/
theorem exchange_reconciling (client : CoordinatorClient) (c : Connection (Observed J))
    {r : CreditRequest} (hop : r.op = .describe ∨ r.op = .reconcile) :
    Reconciling (client.progress c)
      ((client.exchange c r).2.1.progress (client.exchange c r).2.2) := by
  obtain ⟨appends, hreached, hround, hnone⟩ := client.exchange_round c r
  refine ⟨appends, hreached, ?_⟩
  rcases hop with hop | hop
  · rw [CreditEngine.attemptAppends_of_describe _ hop, or_self] at hnone
    rw [hnone]
    exact nofun
  · intro x hx
    rw [hround.ops x hx, hop]

/-- A describe of the client. -/
theorem describe_reconciling (client : CoordinatorClient) (c : Connection (Observed J))
    (account : AccountId) : Reconciling (client.progress c)
      ((client.describe c account).2.1.progress (client.describe c account).2.2) := by
  unfold describe
  exact exchange_reconciling client.draw.2 c (.inl rfl)

/-- The outcome succeeds when it is an application. -/
def Succeeds (o : CreditOutcome) : Prop := o.applied = true → o.status.ok = true

/-- What an exchange reports as applied returns Ok. -/
theorem exchange_succeeds (client : CoordinatorClient) (c : Connection (Observed J))
    (r : CreditRequest) : Succeeds (client.exchange c r).1 := by
  obtain ⟨appends, -, hround, -⟩ := client.exchange_round c r
  exact hround.success

/-- So does what `reconcile` reports under an authority. -/
theorem reconcileUnder_succeeds (client : CoordinatorClient) (c : Connection (Observed J))
    (authority : AuthorityVector) : Succeeds (client.reconcileUnder c authority).1 := by
  have hexchange := client.draw.2.exchange_succeeds c
    (client.draw.2.reconcileRequest client.draw.1 authority)
  unfold reconcileUnder
  simp only
  split_ifs
  · exact hexchange
  · exact hexchange

/-- So does what `reconcile` reports. -/
theorem reconcile_succeeds (client : CoordinatorClient) (c : Connection (Observed J))
    (account : AccountId) : Succeeds (client.reconcile c account).1 := by
  have hdescribed : Succeeds (client.describe c account).1 := by
    unfold describe
    exact client.draw.2.exchange_succeeds c (client.draw.2.describeRequest client.draw.1 account)
  unfold reconcile
  simp only
  split_ifs
  · exact hdescribed
  · exact reconcileUnder_succeeds _ _ _

/-- A reconciliation of the client under an authority. -/
theorem reconcileUnder_reconciling (client : CoordinatorClient) (c : Connection (Observed J))
    (authority : AuthorityVector) : Reconciling (client.progress c)
      ((client.reconcileUnder c authority).2.1.progress
        (client.reconcileUnder c authority).2.2) := by
  have hexchanged := client.draw.2.exchange_reconciling c
    (r := client.draw.2.reconcileRequest client.draw.1 authority) (.inr rfl)
  unfold reconcileUnder
  simp only
  split_ifs
  · exact hexchanged
  · exact hexchanged

/-- A reconciliation of the client. -/
theorem reconcile_reconciling (client : CoordinatorClient) (c : Connection (Observed J))
    (account : AccountId) : Reconciling (client.progress c)
      ((client.reconcile c account).2.1.progress (client.reconcile c account).2.2) := by
  have hdescribed := client.describe_reconciling c account
  unfold reconcile
  generalize client.describe c account = described at hdescribed ⊢
  obtain ⟨description, client', c'⟩ := described
  simp only
  split_ifs
  · exact hdescribed
  · refine hdescribed.trans ?_
    have hsame : progress { client' with nextSequence := description.sequence + 1 } c' =
        client'.progress c' := progress_congr rfl
    rw [← hsame]
    exact reconcileUnder_reconciling _ _ _

/-- One exchange tries once. -/
theorem exchange_tries (client : CoordinatorClient) (c : Connection (Observed J))
    (r : CreditRequest) : Tries r.op (client.exchange c r).1 (client.progress c)
      ((client.exchange c r).2.1.progress (client.exchange c r).2.2) := by
  obtain ⟨appends, hreached, hround, -⟩ := client.exchange_round c r
  exact hround.tries hreached

/-- A submit to the account that the client is placed on. -/
theorem submitPlaced_tries (client : CoordinatorClient) (c : Connection (Observed J))
    (request : CreditRequest) : Tries request.op (client.submitPlaced c request).1
      (client.progress c)
      ((client.submitPlaced c request).2.1.progress (client.submitPlaced c request).2.2) := by
  have htries := client.exchange_tries c (client.placedRequest request)
  obtain ⟨appends, hreached, hround, -⟩ := client.exchange_round c (client.placedRequest request)
  rw [placedRequest_op] at htries
  unfold submitPlaced
  generalize client.exchange c (client.placedRequest request) = first at htries hreached hround ⊢
  obtain ⟨outcome, client', c'⟩ := first
  simp only at htries hreached hround ⊢
  split_ifs with hdemands hfailed
  · exact htries
  all_goals
    -- a final decision demands nothing, so a second attempt stands behind no first one
    refine Tries.again hreached hround (fun h => ?_) (client.placedRequest_op request) ?_
    · rw [h.2.1] at hdemands
      exact hdemands rfl
    have hreconciling := client'.reconcile_reconciling c' client.authority.account
    have hsuccess := client'.reconcile_succeeds c' client.authority.account
    generalize client'.reconcile c' client.authority.account = revalidated
      at hreconciling hsuccess hfailed ⊢
    obtain ⟨revalidation, client'', c''⟩ := revalidated
  · refine hreconciling.tries _ ?_
    by_contra happlied
    rw [hsuccess (Bool.not_eq_false _ ▸ happlied)] at hfailed
    exact absurd hfailed (by decide)
  · refine Tries.behind hreconciling ?_
    have hagain := client''.draw.2.exchange_tries c''
      (client''.draw.2.placedRequest { request with attempt := client''.draw.1 })
    rw [placedRequest_op] at hagain
    have hdrawn : client''.draw.2.progress c'' = client''.progress c'' := rfl
    rw [← hdrawn]
    exact hagain

/-- A description is no application. -/
theorem describe_unapplied (client : CoordinatorClient) (c : Connection (Observed J))
    (account : AccountId) : (client.describe c account).1.applied = false := by
  obtain ⟨appends, -, hround, hnone⟩ := client.draw.2.exchange_round c
    (client.draw.2.describeRequest client.draw.1 account)
  rw [CreditEngine.attemptAppends_of_describe _ rfl, or_self] at hnone
  unfold describe
  cases hround with
  | nothing happlied => exact happlied
  | decided => exact absurd hnone (by simp)
  | failed _ happlied => exact happlied

/-- A submit to another account. -/
theorem submitElsewhere_tries (client : CoordinatorClient) (c : Connection (Observed J))
    (request : CreditRequest) : Tries request.op (client.submitElsewhere c request).1
      (client.progress c)
      ((client.submitElsewhere c request).2.1.progress
        (client.submitElsewhere c request).2.2) := by
  have hreconciling := client.describe_reconciling c request.authority.account
  have hunapplied := client.describe_unapplied c request.authority.account
  unfold submitElsewhere
  generalize client.describe c request.authority.account = described
    at hreconciling hunapplied ⊢
  obtain ⟨description, client', c'⟩ := described
  simp only
  split_ifs with hfailed
  · exact hreconciling.tries _ hunapplied
  · have hplaced : (client'.place description).progress c' = client'.progress c' :=
      progress_congr rfl
    refine Tries.behind hreconciling ?_
    rw [← hplaced]
    exact submitPlaced_tries _ _ _

/-- A submit tries until one attempt is decided. -/
theorem submit_tries (client : CoordinatorClient) (c : Connection (Observed J))
    (request : CreditRequest) : Tries request.op (client.submit c request).1
      (client.progress c)
      ((client.submit c request).2.1.progress (client.submit c request).2.2) := by
  have hdrawn : client.draw.2.progress c = client.progress c := rfl
  generalize hsent : { request with
    presenter := client.draw.2.incarnation, attempt := client.draw.1 } = sent
  have hop : request.op = sent.op := by rw [← hsent]
  unfold submit
  simp only [hsent]
  rw [← hdrawn, hop]
  split_ifs with hopen hdescribe hstands
  · have htries := client.draw.2.exchange_tries c (client.draw.2.openRequest sent)
    rw [openRequest_op] at htries
    exact htries
  · have htries := client.draw.2.exchange_tries c (client.draw.2.passedRequest sent)
    rw [passedRequest_op] at htries
    exact htries
  · exact submitPlaced_tries _ _ _
  · exact submitElsewhere_tries _ _ _

end CoordinatorClient

/-! ### Both callers -/

/-- The Attempt records of the caller's operation, apart from Reconcile records. -/
def callersAppends (op : OpKind) (appends : List (JournalRecord × Status)) :
    List (JournalRecord × Status) :=
  appends.filter fun x => attemptOp x.1.payload == some op && op != .reconcile

/-- What a call for the operation `op` has appended: at most one record of the operation,
    otherwise Reconcile records, and behind an application exactly that one, kept by the
    journal and with the returned outcome. -/
structure CommitsOnce (op : OpKind) (o : CreditOutcome)
    (appends : List (JournalRecord × Status)) : Prop where
  once : (callersAppends op appends).length ≤ 1
  others : ∀ x ∈ appends, attemptOp x.1.payload = some op ∨ attemptOp x.1.payload = some .reconcile
  applied : o.applied = true → ∃ t s d, appends.getLast? = some (t, s) ∧ s.ok = true ∧
    (op ≠ .reconcile → callersAppends op appends = [(t, s)]) ∧
    t.payload = encodeDurableAttempt d ∧ d.request.op = op ∧ d.outcome = o

/-- Tries commit once at most, and exactly once when the outcome says applied. -/
theorem Tries.commitsOnce {J : Type} [Journal J] {op : OpKind} {o : CreditOutcome}
    {p p' : Progress J} (h : Tries op o p p') :
    ∃ calls, p'.calls = p.calls ++ calls ∧ CommitsOnce op o (appendsOf calls) := by
  obtain ⟨earlier, own, hreached, hearlier, honce, hown, happlied⟩ := h
  obtain ⟨calls, hcalls, happends⟩ := hreached.calls
  -- of the two parts only the second one counts
  have hcounted : callersAppends op (earlier ++ own) = if op = .reconcile then [] else own := by
    unfold callersAppends
    rw [List.filter_append]
    by_cases hop : op = .reconcile
    · simp [hop]
    · have hnone : earlier.filter (fun x => attemptOp x.1.payload == some op &&
          op != .reconcile) = [] := by
        rw [List.filter_eq_nil_iff]
        intro x hx
        rw [hearlier x hx]
        simp [Ne.symm hop]
      have hall : own.filter (fun x => attemptOp x.1.payload == some op &&
          op != .reconcile) = own := by
        rw [List.filter_eq_self]
        intro x hx
        rw [hown x hx]
        simp [hop]
      rw [hnone, hall, List.nil_append, if_neg hop]
  refine ⟨calls, hcalls, ?_⟩
  rw [happends]
  refine ⟨?_, fun x hx => ?_, fun ho => ?_⟩
  · rw [hcounted]
    split_ifs
    · exact Nat.zero_le 1
    · exact honce
  · rcases List.mem_append.mp hx with hx | hx
    · exact .inr (hearlier x hx)
    · exact .inl (hown x hx)
  · obtain ⟨t, s, d, rfl, hkept, hpayload, hop, houtcome⟩ := happlied ho
    refine ⟨t, s, d, List.getLast?_concat, hkept, fun hne => ?_, hpayload, hop, houtcome⟩
    rw [hcounted, if_neg hne]

/-- **One call commits at most once.**  Whatever the engine is, whatever others have decided in
    between and wherever the connection fails. -/
theorem callers_commit_once {J : Type} [Journal J] (request : CreditRequest) :
    (∀ (client : CoordinatorClient) (c : Connection (Observed J)), ∃ calls,
        (client.submit c request).2.2.server.calls = c.server.calls ++ calls ∧
        CommitsOnce request.op (client.submit c request).1 (appendsOf calls)) ∧
      ∀ (session : LocalSession) (s : SharedEngine (Observed J)), ∃ calls,
        (session.call s request).2.2.calls = s.calls ++ calls ∧
        CommitsOnce request.op (session.call s request).1 (appendsOf calls) :=
  ⟨fun client c => (client.submit_tries c request).commitsOnce,
    fun session s => (session.call_tries s request).commitsOnce⟩

end CreditFabric
