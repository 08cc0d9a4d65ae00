import CreditFabric.Persistence

namespace CreditFabric

open Std (ExtTreeMap)

/-!
# The storage behind a call and behind a recovery

`Leads e r m` lists the accounts a call can publish, roll back to or leave on the storage.

* `apply_durable`, `snapshot_durable`: what a crash in a call or in a snapshot leaves, and what
  is durable behind it.
* `Durable.recovered`: behind a recovery the storage reflects the accounts it has installed.
-/

/-! ### Liveness forgotten -/

/-- The account a recovery installs is as good a shadow as the one it has replayed. -/
theorem Shadow.forgotten {p q : AccountState} (h : p.essentials = q.essentials) :
    Shadow p q.forgetLiveness := by
  have hshadow := Shadow.of_essentials h
  have hget := AccountState.getElem?_forgetLiveness q
  refine ⟨⟨hshadow.epoch, hshadow.generation, hshadow.fences, fun i => ?_, fun i b hb hused => ?_,
    fun i hi => ?_⟩, hshadow.capacity, hshadow.totals⟩
  · rw [(SameCounters.forgetLiveness q).records]
    exact hshadow.last i
  · rw [hget, Option.map_eq_some_iff] at hb
    obtain ⟨b₀, hb₀, rfl⟩ := hb
    refine hshadow.known i b₀ hb₀ ?_
    unfold IncarnationRecord.forgetLiveness at hused
    split_ifs at hused with hreconciled
    · exact .inl (by rw [hreconciled]; decide)
    · exact hused
  · rw [hget, Option.isSome_map]
    exact hshadow.listed i hi

/-- A restart keeps the standing of an account. -/
theorem Standing.forgotten {key : UInt64} {a : AccountState} (h : Standing key a) :
    Standing key a.forgetLiveness := by
  refine ⟨forgetLiveness_sound h.sound, h.account, fun i b hb => ?_, h.book.kept
    (fun i hi => ?_) rfl⟩
  · rw [AccountState.getElem?_forgetLiveness, Option.map_eq_some_iff] at hb
    obtain ⟨b₀, hb₀, rfl⟩ := hb
    rw [← h.keyed i b₀ hb₀]
    unfold IncarnationRecord.forgetLiveness
    split_ifs <;> rfl
  · obtain ⟨b, hb, hstate⟩ := h.book.fenced i hi
    refine ⟨b, ?_, hstate⟩
    rw [AccountState.getElem?_forgetLiveness, hb, Option.map_some,
      (forgetLiveness_eq_self_iff b).mpr (by rw [hstate]; decide)]

/-- A restart keeps its window. -/
theorem Windowed.forgotten {a : AccountState} (h : Windowed a) : Windowed a.forgetLiveness :=
  h.congr rfl fun i => by rw [(SameCounters.forgetLiveness a).records]

/-- The accounts of a successful recovery have the invariants. -/
theorem Reflects.forgotten {P m : ExtTreeMap UInt64 AccountState} (h : Reflects P m) :
    CreditEngine.AllStanding (P.map fun _ (a : AccountState) => a.forgetLiveness) ∧
      CreditEngine.AllWindowed (P.map fun _ (a : AccountState) => a.forgetLiveness) := by
  refine ⟨fun key x hx => ?_, fun key x hx => ?_⟩
  · rw [ExtTreeMap.getElem?_map, Option.map_eq_some_iff] at hx
    obtain ⟨p, hp, rfl⟩ := hx
    obtain ⟨a, -, hmirrored⟩ := h.found hp
    exact hmirrored.standing.forgotten
  · rw [ExtTreeMap.getElem?_map, Option.map_eq_some_iff] at hx
    obtain ⟨p, hp, rfl⟩ := hx
    obtain ⟨a, -, hmirrored⟩ := h.found hp
    exact hmirrored.windowed.forgotten

namespace CreditEngine

variable {J K : Type}

/-! ### What a call can leave -/

/-- The accounts that the call `r` can leave in memory or on the storage. -/
inductive Leads (e : CreditEngine J) (r : CreditRequest) :
    ExtTreeMap UInt64 AccountState → Prop
  | same : Leads e r e.accounts
  | rejected (a : AccountState) (h : Admitted e r a) (s : Status) (a' : AccountState)
      (hd : e.decision a r = .reject s a') : Leads e r (e.accounts.insert r.authority.account a')
  | opened (h : Opens e r) : Leads e r (e.accounts.insert r.authority.account (e.publishedOpen r))
  | refused (a : AccountState) (h : Admitted e r a) (s : Status) (a' : AccountState)
      (hd : e.decision a r = .refuse s a') : Leads e r (e.accounts.insert r.authority.account
        (refusedAccount e.limits a' r (refusalOutcome a r s a')))
  | refusalUndone (a : AccountState) (h : Admitted e r a) (s : Status) (a' : AccountState)
      (hd : e.decision a r = .refuse s a') :
      Leads e r (e.accounts.insert r.authority.account a')
  | applied (a : AccountState) (h : Admitted e r a) (a' : AccountState)
      (hd : e.decision a r = .proceed a') :
      Leads e r (e.accounts.insert r.authority.account (appliedAccount a r a'))
  | undone (a : AccountState) (h : Admitted e r a) (a' : AccountState)
      (hd : e.decision a r = .proceed a') :
      Leads e r (e.accounts.insert r.authority.account (restoredAccount a r a'))

variable [Journal J]

/-- What a call does to the accounts is one of the leads. -/
theorem apply_leads (e : CreditEngine J) (r : CreditRequest) :
    Leads e r (e.apply r).2.accounts := by
  cases (apply_accounts e r).1 with
  | same _ accounts =>
    rw [accounts]
    exact .same
  | rejected a h s a' hd _ accounts =>
    rw [accounts]
    exact .rejected a h s a' hd
  | opened h _ accounts =>
    rw [accounts]
    exact .opened h
  | refused a h s a' hd _ accounts =>
    rw [accounts]
    exact .refused a h s a' hd
  | refusalUndone a h s a' hd _ _ accounts =>
    rw [accounts]
    exact .refusalUndone a h s a' hd
  | applied a h a' hd _ accounts =>
    rw [accounts]
    exact .applied a h a' hd
  | undone a h a' hd _ _ accounts =>
    rw [accounts]
    exact .undone a h a' hd

omit [Journal J] in
/-- A rejected request leaves the account, or an unused record in it. -/
theorem Shadow.rejected {e : CreditEngine J} {a a' p : AccountState} {r : CreditRequest}
    {s : Status} (h : Shadow p a) (hd : e.decision a r = .reject s a') : Shadow p a' := by
  -- the record a refused Fence leaves behind has no counter
  have hleaked : ∀ leak : FenceLeak e.limits a r,
      Shadow p (a.setIncarnation r.target { id := r.target }) := by
    intro leak
    have hget : ∀ i : IncarnationId,
        (a.setIncarnation r.target { id := r.target }).incarnations[i]? =
          if i = r.target then some { id := r.target } else a.incarnations[i]? := by
      intro i
      by_cases hi : i = r.target
      · rw [if_pos hi, hi]
        exact ExtTreeMap.getElem?_insert_self
      · rw [if_neg hi]
        exact Lib.getElem?_insert_of_ne _ _ hi
    refine ⟨⟨h.epoch, h.generation, h.fences, fun i => ?_, fun i b hb hused => ?_,
      fun i hi => ?_⟩, h.capacity, h.totals⟩
    · have hlast := h.last i
      unfold AccountState.countersAt at hlast ⊢
      rw [hget]
      by_cases hi : i = r.target
      · rw [hi, leak.unknown] at hlast
        rw [if_pos hi, hi]
        exact hlast
      · rw [if_neg hi]
        exact hlast
    · rw [hget] at hb
      by_cases hi : i = r.target
      · rw [if_pos hi, Option.some.injEq] at hb
        rw [← hb] at hused
        exact absurd hused (by simp [IncarnationRecord.Used])
      · rw [if_neg hi] at hb
        exact h.known i b hb hused
    · rw [hget]
      by_cases hi' : i = r.target
      · rw [if_pos hi']
        rfl
      · rw [if_neg hi']
        exact h.listed i hi
  -- only a control request can leave one
  rcases e.decision_cases a r with ⟨hcase, -⟩ | ⟨hcase, -⟩ | ⟨hcase, -⟩ <;> rw [hd] at hcase
  · cases hcase with
    | rejected => exact h
    | leaked leak => exact hleaked leak
  · cases hcase with
    | rejected => exact h
  · cases hcase with
    | rejected => exact h

/-! ### The storage behind a settled decision -/

/-- The counted account in front of its publication, and the published one. -/
theorem watermark_publishWindow {c : AccountState} {r : CreditRequest} (o : CreditOutcome)
    (hseq : (c.countersAt r.authority.incarnation).last.toNat < r.sequence.toNat)
    (hknown : ∃ b, c.incarnations[r.authority.incarnation]? = some b) (i : IncarnationId) :
    (c.countersAt i).last.toNat ≤ ((c.publishWindow r o).countersAt i).last.toNat := by
  obtain ⟨b, hb⟩ := hknown
  have hlast := last_of_published (AccountState.getElem?_publishWindow c r o) (fun b => rfl)
    (by rw [hb]; rfl) i
  rw [hlast]
  by_cases hi : i = r.authority.incarnation
  · rw [if_pos hi, hi]
    exact hseq.le
  · rw [if_neg hi]

/-- Counting a decision moves no watermark. -/
theorem last_counted (a : AccountState) (committed refused : UInt64) (caller : IncarnationId)
    {f : IncarnationRecord → IncarnationRecord} (hf : ∀ b, (f b).lastSequence = b.lastSequence)
    (i : IncarnationId) :
    ((({ a with committedAttempts := committed, refusedAttempts := refused }).updateIncarnation
      caller f).countersAt i).last = (a.countersAt i).last := by
  unfold AccountState.countersAt
  rw [AccountState.getElem?_updateIncarnation]
  by_cases hi : i = caller
  · rw [if_pos hi, hi]
    cases a.incarnations[caller]? with
    | none => rfl
    | some b => exact hf b
  · rw [if_neg hi]

/-- **Settling.**  A decision that is journaled over the accounts `a` and then published leaves
    the accounts behind it on the storage; a crash leaves them or those in front of it. -/
theorem settle_durable {e : CreditEngine (Observed J)} {r : CreditRequest} {o : CreditOutcome}
    {a : AccountState} {c : Bool}
    {f g : CreditEngine (Observed J) → CreditEngine (Observed J)} {disk : Disk}
    {m m' : ExtTreeMap UInt64 AccountState} {n : Nat} (hdisk : Durable K disk m n)
    (hseq : e.nextJournalSequence.toNat = n) (hn : n + 3 < 2 ^ 64)
    (hwritten : (e.durableAttempt r o a c).Written)
    (hcarries : Carries K (e.durableAttempt r o a c) m m')
    (hm : ∀ limits, Reflects (restoredFrom limits ∅ e.durableState.accounts) m')
    (hf : ∀ e', (f e').journal = e'.journal)
    (hg : ∀ e', SameLedger e e' → (g e').journal = e'.journal ∧
      (g e').nextJournalSequence = e'.nextJournalSequence ∧ (g e').accounts = m') :
    ∃ events, (e.settle r o a c f g).2.journal.log = e.journal.log ++ events ∧
      disk.Through (DecisionKeeps K m m' n) (fun d =>
        (e.settle r o a c f g).2.journalFailed = false →
        Durable K d (e.settle r o a c f g).2.accounts
          (e.settle r o a c f g).2.nextJournalSequence.toNat ∧
        (e.settle r o a c f g).2.nextJournalSequence.toNat ≤ n + 3) events := by
  obtain ⟨hnext, events, hlog, hthrough⟩ := (persistLocked_persisted e r o a c).moves_durable
    hdisk hseq hn hwritten hcarries hm
  have hframe := persistLocked_frame e r o a c
  cases hok : (e.persistLocked r o a c).1.ok with
  | false =>
    rw [settle_of_failed hok]
    refine ⟨events, ?_, hthrough.mono (fun _ hd => hd) fun _ _ _ hhealthy => ?_⟩
    · rw [← hlog]
      exact congrArg Observed.log (hf _)
    · exact absurd hhealthy (by simp)
  | true =>
    rw [settle_of_ok hok]
    obtain ⟨hjournal, hsequence, haccounts⟩ := hg _ hframe
    refine ⟨events, by rw [hjournal, hlog], hthrough.mono (fun _ hd => hd) fun d _ hd _ => ?_⟩
    rw [haccounts, hsequence]
    exact ⟨hd hok, hnext hok⟩

/-- What a crash during the call `r` leaves on a storage that continues at `n`. -/
def CallKeeps (K : Type) (e : CreditEngine J) (r : CreditRequest) (n : Nat) (d : Disk) : Prop :=
  ∃ m n', Leads e r m ∧ n ≤ n' ∧ n' ≤ n + 3 ∧ Durable K d m n'

/-- The storage reflects the accounts of the engine, unless its journal has failed. -/
def LevelWith (K : Type) (e : CreditEngine J) (n : Nat) (d : Disk) : Prop :=
  e.journalFailed = false →
    Durable K d e.accounts e.nextJournalSequence.toNat ∧ e.nextJournalSequence.toNat ≤ n

omit [Journal J] in
/-- What the decisions keep, the calls keep. -/
theorem DecisionKeeps.of_leads {e : CreditEngine J} {r : CreditRequest}
    {m' : ExtTreeMap UInt64 AccountState} {n : Nat} {d : Disk}
    (h : DecisionKeeps K e.accounts m' n d) (hm : Leads e r m') : CallKeeps K e r n d := by
  obtain ⟨m, n', heither, hle, hle', hd⟩ := h
  refine ⟨m, n', ?_, hle, hle', hd⟩
  rcases heither with rfl | rfl
  · exact .same
  · exact hm

omit [Journal J] in
/-- The accounts of an engine that settles an Open: the new account is not published yet. -/
theorem opening_accounts {e : CreditEngine J} {r : CreditRequest} (h : Opens e r) :
    (e.opening r).accounts =
      e.accounts.insert r.authority.account (openedAccount e.limits r) := by
  rw [← show (openedAccount e.limits r).account = r.authority.account from h.fresh.2]
  rfl

omit [Journal J] in
/-- An Open keeps the invariants of the accounts. -/
theorem opening_invariants {e : CreditEngine J} {r : CreditRequest} (h : Opens e r)
    (hstanding : AllStanding e.accounts) (hwindowed : AllWindowed e.accounts) :
    AllStanding (e.opening r).accounts ∧ AllWindowed (e.opening r).accounts := by
  rw [opening_accounts h]
  exact ⟨hstanding.insert (openedAccount_standing h),
    hwindowed.insert (openedAccount_fresh e.limits r)⟩

omit [Journal J] in
/-- Publishing a settled Open. -/
theorem opening_published {e e' : CreditEngine J} {r : CreditRequest} (h : Opens e r)
    (hframe : SameLedger (e.opening r) e') :
    (publishApplied (openedAccount e.limits r).account (openedAccount e.limits r) r
      (e.openOutcome r) e').accounts =
        e.accounts.insert r.authority.account (e.publishedOpen r) := by
  show e'.accounts.insert (openedAccount e.limits r).account _ = _
  rw [hframe.accounts, opening_accounts h,
    show (openedAccount e.limits r).account = r.authority.account from h.fresh.2,
    Lib.insert_insert_self]
  rfl

omit [Journal J] in
/-- Publishing a settled refusal. -/
theorem refusing_published {e e' : CreditEngine J} {r : CreditRequest} {a' : AccountState}
    {o : CreditOutcome} (hframe : SameLedger (e.refusing r a') e') :
    (publishRefused r.authority.account (countRefused a' r.authority.incarnation) r o e').accounts =
      e.accounts.insert r.authority.account (refusedAccount e.limits a' r o) := by
  unfold publishRefused
  simp only [put_accounts]
  rw [hframe.accounts, hframe.limits]
  exact Lib.insert_insert_self _ _ _ _

omit [Journal J] in
/-- Publishing a settled application. -/
theorem applying_published {e e' : CreditEngine J} {r : CreditRequest} {a a' : AccountState}
    (hframe : SameLedger (e.applying r a') e') :
    (publishApplied r.authority.account (countCommitted a' r.authority.incarnation) r
      (applicationOutcome a r a') e').accounts =
        e.accounts.insert r.authority.account (appliedAccount a r a') := by
  show e'.accounts.insert _ _ = _
  rw [hframe.accounts]
  exact Lib.insert_insert_self _ _ _ _

/-- An Open is durable behind the call, or in front of a crash in it. -/
theorem opened_durable {e : CreditEngine (Observed J)} {r : CreditRequest} (h : Opens e r)
    (hstanding : AllStanding e.accounts) (hwindowed : AllWindowed e.accounts) {disk : Disk}
    {n : Nat} (hdisk : Durable K disk e.accounts n) (hseq : e.nextJournalSequence.toNat = n)
    (hn : n + 3 < 2 ^ 64) :
    ∃ events, (e.settleOpen r).2.journal.log = e.journal.log ++ events ∧
      disk.Through (CallKeeps K e r n) (LevelWith K (e.settleOpen r).2 (n + 3)) events := by
  obtain ⟨b, hb, hzero⟩ : ∃ b,
      (openedAccount e.limits r).incarnations[r.authority.incarnation]? = some b ∧
        b.lastSequence = 0 := ⟨_, ExtTreeMap.getElem?_insert_self, rfl⟩
  have hlast : ((openedAccount e.limits r).countersAt r.authority.incarnation).last.toNat <
      r.sequence.toNat := by
    rw [AccountState.countersAt_of_some hb]
    show b.lastSequence.toNat < r.sequence.toNat
    rw [hzero, h.sequence]
    decide
  have hcarries : Carries K ((e.opening r).durableAttempt r (e.openOutcome r)
      (openedAccount e.limits r) true) e.accounts
      (e.accounts.insert r.authority.account (e.publishedOpen r)) := .opened K h rfl rfl rfl rfl
  -- a snapshot taken in between holds the account in front of its publication
  have hsnapshot : ∀ limits, Reflects (restoredFrom limits ∅ (e.opening r).durableState.accounts)
      (e.accounts.insert r.authority.account (e.publishedOpen r)) := by
    obtain ⟨hstanding', hwindowed'⟩ := opening_invariants h hstanding hwindowed
    refine fun limits => reflects_durableState hstanding' hwindowed' ?_ limits
    rw [opening_accounts h]
    exact .insert _ (publishWindow_sameStanding _ _ _) (watermark_publishWindow _ hlast ⟨b, hb⟩)
  obtain ⟨events, hlog, hthrough⟩ := settle_durable (e := e.opening r)
    (f := fun e => { e with accounts := e.accounts.erase (openedAccount e.limits r).account })
    (g := publishApplied (openedAccount e.limits r).account (openedAccount e.limits r) r
      (e.openOutcome r)) hdisk hseq hn
    (durableAttempt_written _ r _ (quarantined_computeView _ _) fun _ => rfl) hcarries hsnapshot
    (fun _ => rfl) fun e' hframe => ⟨rfl, rfl, opening_published h hframe⟩
  refine ⟨events, hlog, hthrough.mono (fun d hd => ?_) fun _ _ hlevel => hlevel⟩
  exact hd.of_leads (.opened h)

/-- Logging a refusal behind its publication changes notes only. -/
theorem publishRefused_sameStanding (c : AccountState) (limit : Nat) (r : CreditRequest)
    (o : CreditOutcome) : SameStanding c ((c.publishWindow r o).recordRefusal limit r o) := by
  have h := publishWindow_sameStanding c r o
  rw [AccountState.recordRefusal_eq]
  exact ⟨h.config, h.domain, h.epoch, h.generation, h.capacity, h.totals, h.fences, h.known,
    h.records⟩

/-- The accounts of an engine that settles a decision: the account is counted, and not published
    yet. -/
theorem counted_invariants {e : CreditEngine J} {r : CreditRequest} {a c : AccountState}
    (h : Admitted e r a) (hstanding : AllStanding e.accounts) (hwindowed : AllWindowed e.accounts)
    (hc : SameStanding (e.decision a r).account c)
    (hwindow : c.window = (e.decision a r).account.window)
    (hlast : ∀ i, (c.countersAt i).last = ((e.decision a r).account.countersAt i).last) :
    AllStanding (e.put r.authority.account c).accounts ∧
      AllWindowed (e.put r.authority.account c).accounts := by
  refine ⟨hstanding.insert ?_, hwindowed.insert ?_⟩
  · exact (decision_standing (hstanding _ a h.found) h.permitted).congr hc
  · exact (decision_windowed e r (hwindowed _ a h.found)).congr hwindow hlast

/-- So does a decision that refuses. -/
theorem refusing_invariants {e : CreditEngine J} {r : CreditRequest} {a a' : AccountState}
    {s : Status} (h : Admitted e r a) (hd : e.decision a r = .refuse s a')
    (hstanding : AllStanding e.accounts) (hwindowed : AllWindowed e.accounts) :
    AllStanding (e.refusing r a').accounts ∧ AllWindowed (e.refusing r a').accounts := by
  refine counted_invariants (c := countRefused a' r.authority.incarnation) h hstanding hwindowed
    ?_ ?_ ?_ <;> rw [hd]
  · exact countRefused_sameStanding _ _
  · unfold countRefused
    rw [AccountState.updateIncarnation_eq]
    rfl
  · exact last_counted _ _ _ _ fun _ => rfl

/-- So does a decision that is applied. -/
theorem applying_invariants {e : CreditEngine J} {r : CreditRequest} {a a' : AccountState}
    (h : Admitted e r a) (hd : e.decision a r = .proceed a')
    (hstanding : AllStanding e.accounts) (hwindowed : AllWindowed e.accounts) :
    AllStanding (e.applying r a').accounts ∧ AllWindowed (e.applying r a').accounts := by
  refine counted_invariants (c := countCommitted a' r.authority.incarnation) h hstanding hwindowed
    ?_ ?_ ?_ <;> rw [hd]
  · exact countCommitted_sameStanding _ _
  · unfold countCommitted
    rw [AccountState.updateIncarnation_eq]
    rfl
  · exact last_counted _ _ _ _ fun _ => rfl

/-- What a snapshot of a counted account restores reflects the published account. -/
theorem counted_reflects {e : CreditEngine (Observed J)} {r : CreditRequest} {a c x : AccountState}
    (h : Admitted e r a) (hstanding : AllStanding e.accounts)
    (hwindowed : AllWindowed e.accounts) (hproceeds : ∀ s a', e.decision a r ≠ .reject s a')
    (hc : SameStanding (e.decision a r).account c)
    (hwindow : c.window = (e.decision a r).account.window)
    (hlast : ∀ i, (c.countersAt i).last = ((e.decision a r).account.countersAt i).last)
    (o : CreditOutcome) (hx : SameStanding c x)
    (hpublished : x.incarnations = (c.publishWindow r o).incarnations) (limits : EngineLimits) :
    Reflects (restoredFrom limits ∅ (e.put r.authority.account c).durableState.accounts)
      (e.accounts.insert r.authority.account x) := by
  have hcounters := (decision_sameCounters e a r).records
  obtain ⟨b, hb⟩ := decision_caller_known h hproceeds
  obtain ⟨b', hb', -⟩ := hc.records _ b hb
  have hseq : (c.countersAt r.authority.incarnation).last.toNat < r.sequence.toNat := by
    rw [hlast, hcounters, sequence_of_admitted h.placed]
    exact Nat.lt_succ_self _
  obtain ⟨hstanding', hwindowed'⟩ := counted_invariants h hstanding hwindowed hc hwindow hlast
  refine reflects_durableState hstanding' hwindowed' (.insert _ hx fun i => ?_) limits
  · have hahead := watermark_publishWindow o hseq ⟨b', hb'⟩ i
    unfold AccountState.countersAt at hahead ⊢
    rwa [hpublished]

/-- A decided request is durable behind the call, or in front of a crash in it. -/
theorem decided_durable {e : CreditEngine (Observed J)} {r : CreditRequest} {a : AccountState}
    (h : Admitted e r a) (hstanding : AllStanding e.accounts)
    (hwindowed : AllWindowed e.accounts) {disk : Disk} {n : Nat}
    (hdisk : Durable K disk e.accounts n) (hseq : e.nextJournalSequence.toNat = n)
    (hn : n + 3 < 2 ^ 64) :
    ∃ events, (e.settleDecision a r).2.journal.log = e.journal.log ++ events ∧
      disk.Through (CallKeeps K e r n) (LevelWith K (e.settleDecision a r).2 (n + 3)) events := by
  have hbook := (hstanding _ a h.found).book
  unfold settleDecision follow
  cases hd : e.decision a r with
  -- no event, and the account stays in the shadow of what is durable
  | reject s a' =>
    refine ⟨[], (List.append_nil _).symm, .nil ⟨e.accounts, n, .same, le_rfl, by omega, hdisk⟩ ?_⟩
    intro _
    show Durable K disk (e.accounts.insert r.authority.account a') e.nextJournalSequence.toNat ∧
      e.nextJournalSequence.toNat ≤ n + 3
    rw [hseq]
    exact ⟨hdisk.replace h.found fun p hp => Shadow.rejected hp hd, by omega⟩
  -- the record carries the refused account, and so does a snapshot behind it
  | refuse s a' =>
    have hsnapshot := counted_reflects (c := countRefused a' r.authority.incarnation)
      (x := refusedAccount e.limits a' r (refusalOutcome a r s a')) h hstanding hwindowed
      (by rw [hd]; simp) (by rw [hd]; exact countRefused_sameStanding _ _)
      (by rw [hd]; unfold countRefused; rw [AccountState.updateIncarnation_eq]; rfl)
      (by rw [hd]; exact last_counted _ _ _ _ fun _ => rfl) (refusalOutcome a r s a')
      (publishRefused_sameStanding _ _ _ _)
      (by unfold refusedAccount; rw [AccountState.recordRefusal_eq])
    have hcarries : Carries K ((e.refusing r a').durableAttempt r (refusalOutcome a r s a')
        (countRefused a' r.authority.incarnation) false) e.accounts
        (e.accounts.insert r.authority.account
          (refusedAccount e.limits a' r (refusalOutcome a r s a'))) :=
      .refused K h hd rfl rfl rfl rfl rfl _
    obtain ⟨events, hlog, hthrough⟩ := settle_durable (e := e.refusing r a') hdisk hseq hn
      (durableAttempt_written _ r _ (quarantined_computeView _ _) fun hcreated =>
        absurd hcreated (by decide)) hcarries hsnapshot
      (f := fun e => e.put r.authority.account (restoreBackup
        (countRefused a' r.authority.incarnation) (captureBackup a' r.authority.incarnation 0)
        r.authority.incarnation 0))
      (g := publishRefused r.authority.account (countRefused a' r.authority.incarnation) r
        (refusalOutcome a r s a')) (fun _ => rfl)
      fun e' hframe => ⟨rfl, rfl, refusing_published hframe⟩
    refine ⟨events, hlog, hthrough.mono (fun d hd' => ?_) fun _ _ hlevel => hlevel⟩
    exact hd'.of_leads (.refused a h s a' hd)
  -- the record carries the applied account
  | proceed a' =>
    have hsnapshot := counted_reflects (c := countCommitted a' r.authority.incarnation)
      (x := appliedAccount a r a') h hstanding hwindowed
      (by rw [hd]; simp) (by rw [hd]; exact countCommitted_sameStanding _ _)
      (by rw [hd]; unfold countCommitted; rw [AccountState.updateIncarnation_eq]; rfl)
      (by rw [hd]; exact last_counted _ _ _ _ fun _ => rfl) (applicationOutcome a r a')
      (publishWindow_sameStanding _ _ _) rfl
    have hcarries : Carries K ((e.applying r a').durableAttempt r (applicationOutcome a r a')
        (countCommitted a' r.authority.incarnation) false) e.accounts
        (e.accounts.insert r.authority.account (appliedAccount a r a')) :=
      .applied K hbook h hd rfl rfl rfl rfl rfl
    obtain ⟨events, hlog, hthrough⟩ := settle_durable (e := e.applying r a') hdisk hseq hn
      (durableAttempt_written _ r _ (quarantined_computeView _ _) fun hcreated =>
        absurd hcreated (by decide)) hcarries hsnapshot
      (f := fun e => e.put r.authority.account (restoreBackup
        (countCommitted a' r.authority.incarnation)
        (captureBackup a r.authority.incarnation (subject r)) r.authority.incarnation (subject r)))
      (g := publishApplied r.authority.account (countCommitted a' r.authority.incarnation) r
        (applicationOutcome a r a')) (fun _ => rfl)
      fun e' hframe => ⟨rfl, rfl, applying_published hframe⟩
    refine ⟨events, hlog, hthrough.mono (fun d hd' => ?_) fun _ _ hlevel => hlevel⟩
    exact hd'.of_leads (.applied a h a' hd)

/-- **One call.**  What a crash leaves is one of the accounts the call leads to, and behind the
    call the storage reflects the accounts again. -/
theorem apply_durable {e : CreditEngine (Observed J)} (r : CreditRequest)
    (hstanding : AllStanding e.accounts) (hwindowed : AllWindowed e.accounts) {disk : Disk}
    {n : Nat} (hdisk : Durable K disk e.accounts n) (hseq : e.nextJournalSequence.toNat = n)
    (hn : n + 3 < 2 ^ 64) :
    ∃ events, (e.apply r).2.journal.log = e.journal.log ++ events ∧
      disk.Through (CallKeeps K e r n) (LevelWith K (e.apply r).2 (n + 3)) events := by
  have hlevel : Durable K disk e.accounts e.nextJournalSequence.toNat ∧
      e.nextJournalSequence.toNat ≤ n + 3 := by
    rw [hseq]
    exact ⟨hdisk, by omega⟩
  have hkeeps : CallKeeps K e r n disk := ⟨e.accounts, n, .same, le_rfl, by omega, hdisk⟩
  have hcase := e.apply_cases r
  generalize e.apply r = result at hcase ⊢
  cases hcase with
  | answered => exact ⟨[], (List.append_nil _).symm, .nil hkeeps fun _ => hlevel⟩
  | absorbed => exact ⟨[], (List.append_nil _).symm, .nil hkeeps fun _ => hlevel⟩
  | opened h => exact opened_durable h hstanding hwindowed hdisk hseq hn
  | decided a h => exact decided_durable h hstanding hwindowed hdisk hseq hn

/-- **One snapshot.**  What is durable stays durable. -/
theorem snapshot_durable {e : CreditEngine (Observed J)} (hstanding : AllStanding e.accounts)
    (hwindowed : AllWindowed e.accounts) {disk : Disk} {n : Nat}
    (hdisk : Durable K disk e.accounts n) (hseq : e.nextJournalSequence.toNat = n)
    (hn : n + 1 < 2 ^ 64) :
    ∃ events, e.snapshot.2.journal.log = e.journal.log ++ events ∧
      disk.Through (SnapshotKeeps K e.accounts n) (LevelWith K e.snapshot.2 (n + 1)) events := by
  have hlevel : Durable K disk e.accounts e.nextJournalSequence.toNat ∧
      e.nextJournalSequence.toNat ≤ n + 1 := by
    rw [hseq]
    exact ⟨hdisk, by omega⟩
  have hkeeps : SnapshotKeeps K e.accounts n disk := ⟨n, le_rfl, n.le_succ, hdisk⟩
  unfold snapshot
  split_ifs
  · exact ⟨[], (List.append_nil _).symm, .nil hkeeps fun _ => hlevel⟩
  · exact ⟨[], (List.append_nil _).symm, .nil hkeeps fun _ => hlevel⟩
  · have hsnap := snapshotLocked_snapshotted e
    obtain ⟨-, hnext, events, hlog, hthrough⟩ := hsnap.keeps_durable (K := K) hseq hn
      (reflects_durableState hstanding hwindowed (.refl _))
    refine ⟨events, hlog, (hthrough disk hdisk).mono (fun _ hd => hd) fun d _ hd _ => ?_⟩
    rw [hsnap.sameLedger.accounts]
    exact ⟨hd, hnext⟩

/-! ### Behind a recovery -/

/-- **One recovery.**  What the storage reflects behind a recovery are the recovered accounts. -/
theorem Durable.recovered {disk : Disk} {m : ExtTreeMap UInt64 AccountState} {n : Nat}
    (h : Durable K disk m n) {q : CreditEngine K} (hq : Recovers disk q) :
    Durable K disk (q.accounts.map fun _ a => a.forgetLiveness) q.nextJournalSequence.toNat := by
  refine ⟨fun p hp => ?_, fun p hp => ?_, h.behind.mono (h.next q hq).1⟩
  · have hagree := (hp.alike hq).accounts
    refine ⟨fun key x hx => ?_, fun key y hy => ?_⟩
    · rw [ExtTreeMap.getElem?_map, Option.map_eq_some_iff] at hx
      obtain ⟨b, hb, rfl⟩ := hx
      have heq := hagree key
      rw [hb, Option.map_some, Option.map_eq_some_iff] at heq
      obtain ⟨y, hy, hessentials⟩ := heq
      obtain ⟨a, -, hmirrored⟩ := (h.reflects p hp).found hy
      exact ⟨y, hy, .forgotten hessentials, hmirrored.standing, hmirrored.windowed⟩
    · have heq := hagree key
      rw [hy, Option.map_some, eq_comm, Option.map_eq_some_iff] at heq
      obtain ⟨b, hb, -⟩ := heq
      refine ⟨b.forgetLiveness, ?_⟩
      rw [ExtTreeMap.getElem?_map, hb, Option.map_some]
  · rw [(hp.alike hq).next]
    exact ⟨le_rfl, Nat.le_succ _⟩

/-- A recovery that returned Ok installs what a recovery of the disk replays, without
    liveness. -/
theorem recover_recovers {e : CreditEngine (Observed J)} {disk : Disk} {o : Observed J}
    (haddressable : disk.Addressable) (hyields : Yields e.journal disk.snapshot disk.records o)
    (hok : e.recover.1.ok = true) : ∃ q : CreditEngine (Observed J), Recovers disk q ∧
      e.recover.2.accounts = q.accounts.map (fun _ a => a.forgetLiveness) ∧
      e.recover.2.nextJournalSequence = q.nextJournalSequence ∧
      e.recover.2.limits = q.limits := by
  obtain ⟨j, s, e₁, e₂, hload, hs, hreplays, heq⟩ := recover_inv hyields hok
  refine ⟨e₂, ⟨haddressable, { e with journal := j }, e₁, loadSnapshot_inv hload hs, hreplays⟩, ?_⟩
  rw [heq]
  exact ⟨rfl, rfl, rfl⟩

end CreditEngine

end CreditFabric
