import CreditFabric.Trace

namespace CreditFabric

open Std (ExtTreeMap)

/-!
# Rolling back a failed commit

When the Intent or the Attempt append fails, the engine latches and restores the account from
a backup of constant size.  The backup covers the ledger, the era, the counters and two
incarnation records, the caller's and the request's subject.

* `restoreBackup_eq_iff`: the restored account is the one saved exactly when every record
  outside these two is unchanged.
* `apply_undone_iff`: a failed commit is undone exactly when an epoch advance finds no other
  reconciled incarnation, and no binding was written in front of a decided refusal, whose
  backup is taken too late.
-/

/-! ### The backup -/

/-- What a restored table holds at a place. -/
theorem getElem?_restoreRecord (m : ExtTreeMap UInt64 IncarnationRecord) (id i : IncarnationId)
    (saved : Option IncarnationRecord) :
    (restoreRecord m id saved)[i]? = if i = id then saved else m[i]? := by
  by_cases hi : i = id
  · subst hi
    cases saved with
    | none => simp [restoreRecord]
    | some record => simp [restoreRecord]
  · rw [if_neg hi]
    cases saved with
    | none => exact Lib.getElem?_erase_of_ne _ hi
    | some record => exact Lib.getElem?_insert_of_ne _ _ hi

/-- The records a backup saves: the caller's and, when it is set, the subject's. -/
def Saved (caller subject i : IncarnationId) : Prop :=
  i = caller ∨ (isSet subject = true ∧ i = subject)

/-- After the rollback the saved records stand as before, every other as the decision left it. -/
theorem getElem?_restoreBackup (a a' : AccountState) (caller subject i : IncarnationId)
    [Decidable (Saved caller subject i)] :
    (restoreBackup a' (captureBackup a caller subject) caller subject).incarnations[i]? =
      if Saved caller subject i then a.incarnations[i]? else a'.incarnations[i]? := by
  unfold restoreBackup captureBackup
  simp only
  by_cases hsubject : (isSet subject && !(subject == caller)) = true
  · have hset : isSet subject = true := (Bool.and_eq_true_iff.mp hsubject).1
    rw [if_pos hsubject, if_pos hsubject, getElem?_restoreRecord, getElem?_restoreRecord]
    by_cases hi : i = subject
    · rw [if_pos hi, if_pos (.inr ⟨hset, hi⟩), hi]
    · rw [if_neg hi]
      by_cases hc : i = caller
      · rw [if_pos hc, if_pos (.inl hc), hc]
      · have hnot : ¬ Saved caller subject i := fun h => h.elim hc fun h => hi h.2
        rw [if_neg hc, if_neg hnot]
  · rw [if_neg hsubject, getElem?_restoreRecord]
    by_cases hc : i = caller
    · rw [if_pos hc, if_pos (.inl hc), hc]
    · have hnot : ¬ Saved caller subject i := by
        rintro (h | ⟨hset, h⟩)
        · exact hc h
        · apply hsubject
          have hne : subject ≠ caller := fun heq => hc (h.trans heq)
          simp [hset, hne]
      rw [if_neg hc, if_neg hnot]

/-- `a'` agrees with `a` on what no backup saves; its fences extend those of `a`. -/
structure Extends (a a' : AccountState) : Prop where
  config : a'.config = a.config
  domain : a'.domain = a.domain
  account : a'.account = a.account
  window : a'.window = a.window
  fences : a'.fences.take a.fences.length = a.fences
  ambiguous : a'.ambiguous = a.ambiguous
  refusals : a'.refusals = a.refusals
  refusalCursor : a'.refusalCursor = a.refusalCursor

/-- A backup undoes a mutation exactly when the records it does not save are unchanged. -/
theorem restoreBackup_eq_iff {a a' : AccountState} (h : Extends a a')
    (caller subject : IncarnationId) :
    restoreBackup a' (captureBackup a caller subject) caller subject = a ↔
      ∀ i, ¬ Saved caller subject i → a'.incarnations[i]? = a.incarnations[i]? := by
  classical
  constructor
  · intro heq i hi
    have hget := getElem?_restoreBackup a a' caller subject i
    rw [if_neg hi, heq] at hget
    exact hget.symm
  · intro hrecords
    have hincarnations :
        (restoreBackup a' (captureBackup a caller subject) caller subject).incarnations =
          a.incarnations := by
      refine ExtTreeMap.ext_getElem? fun i => ?_
      rw [getElem?_restoreBackup]
      by_cases hi : Saved caller subject i
      · rw [if_pos hi]
      · rw [if_neg hi, hrecords i hi]
    obtain ⟨hconfig, hdomain, haccount, hwindow, hfences, hambiguous, hrefusals, hcursor⟩ := h
    cases a
    cases a'
    simp only [restoreBackup, captureBackup] at *
    subst_vars
    simp_all

/-! ### Counting -/

/-- Updating a record creates none. -/
theorem Extends.updateIncarnation {a a' : AccountState} (h : Extends a a') (id : IncarnationId)
    (f : IncarnationRecord → IncarnationRecord) : Extends a (a'.updateIncarnation id f) := by
  rw [AccountState.updateIncarnation_eq]
  exact ⟨h.config, h.domain, h.account, h.window, h.fences, h.ambiguous, h.refusals,
    h.refusalCursor⟩

/-- Nor does counting a commit. -/
theorem Extends.countCommitted {a a' : AccountState} (h : Extends a a')
    (caller : IncarnationId) : Extends a (countCommitted a' caller) :=
  have hcount : Extends a { a' with committedAttempts := a'.committedAttempts + 1 } :=
    ⟨h.config, h.domain, h.account, h.window, h.fences, h.ambiguous, h.refusals,
      h.refusalCursor⟩
  hcount.updateIncarnation _ _

/-- A commit is counted in the caller's record alone. -/
theorem getElem?_countCommitted_of_ne (a : AccountState) {caller i : IncarnationId}
    (h : i ≠ caller) : (countCommitted a caller).incarnations[i]? = a.incarnations[i]? :=
  (AccountState.getElem?_updateIncarnation _ _ _ _).trans (if_neg h)

/-- So is a refusal. -/
private theorem getElem?_countRefused_of_ne (a : AccountState) {caller i : IncarnationId}
    (h : i ≠ caller) : (countRefused a caller).incarnations[i]? = a.incarnations[i]? :=
  (AccountState.getElem?_updateIncarnation _ _ _ _).trans (if_neg h)

/-- The backup of a decided refusal restores the account it was taken from. -/
theorem restoreBackup_countRefused (a : AccountState) (caller : IncarnationId) :
    restoreBackup (countRefused a caller) (captureBackup a caller 0) caller 0 = a := by
  have hcount : Extends a { a with refusedAttempts := a.refusedAttempts + 1 } :=
    ⟨rfl, rfl, rfl, rfl, List.take_length, rfl, rfl, rfl⟩
  have hext : Extends a (countRefused a caller) := hcount.updateIncarnation _ _
  rw [restoreBackup_eq_iff hext]
  intro i hi
  exact getElem?_countRefused_of_ne a fun h => hi (.inl h)

/-- The backup of an applied attempt restores the account exactly when the mutation kept every
    record it does not save. -/
theorem restoreBackup_countCommitted_iff {a a' : AccountState} (h : Extends a a')
    (caller subject : IncarnationId) :
    restoreBackup (countCommitted a' caller) (captureBackup a caller subject) caller subject = a ↔
      ∀ i, ¬ Saved caller subject i → a'.incarnations[i]? = a.incarnations[i]? := by
  rw [restoreBackup_eq_iff (h.countCommitted caller)]
  refine forall_congr' fun i => ?_
  refine imp_congr_right fun hi => ?_
  rw [getElem?_countCommitted_of_ne a' fun h => hi (.inl h)]

/-! ### Which decisions the backup covers -/

/-- The incarnations an epoch advance would reset and the backup would not restore. -/
def NoOtherReconciled (a : AccountState) (r : CreditRequest) : Prop :=
  ∀ i record, a.incarnations[i]? = some record → record.state = .reconciled →
    Saved r.authority.incarnation r.target i

/-- The state before the call that makes a failed commit undone exactly. -/
def RollbackCovers (a : AccountState) (r : CreditRequest) : Prop :=
  (r.op = .advanceEpoch ∨ r.op = .rotate → NoOtherReconciled a r) ∧ ¬ LeaksBinding a r

/-- Setting a record drops no other. -/
theorem setIncarnation_extends (a : AccountState) (id : IncarnationId)
    (record : IncarnationRecord) : Extends a (a.setIncarnation id record) :=
  ⟨rfl, rfl, rfl, rfl, List.take_length, rfl, rfl, rfl⟩

namespace CreditEngine

variable {J : Type} [Journal J]

omit [Journal J] in
/-- **Coverage.**  The rollback of an applied decision restores the account exactly when the
    backup covers it. -/
theorem rollback_proceed_iff {e : CreditEngine J} {a a' : AccountState} {r : CreditRequest}
    (h : e.decision a r = .proceed a') :
    restoreBackup (countCommitted a' r.authority.incarnation)
        (captureBackup a r.authority.incarnation (subject r)) r.authority.incarnation
        (subject r) = a ↔ RollbackCovers a r := by
  -- away from the epoch advance every written record is saved and nothing leaks
  have hcovered : ∀ {a'' : AccountState}, Extends a a'' → ¬ LeaksBinding a r →
      ¬ (r.op = .advanceEpoch ∨ r.op = .rotate) →
      (∀ i, ¬ Saved r.authority.incarnation (subject r) i →
        a''.incarnations[i]? = a.incarnations[i]?) →
      (restoreBackup (countCommitted a'' r.authority.incarnation)
        (captureBackup a r.authority.incarnation (subject r)) r.authority.incarnation
        (subject r) = a ↔ RollbackCovers a r) := by
    intro a'' hext hleak hop hrecords
    exact iff_of_true ((restoreBackup_countCommitted_iff hext _ _).mpr hrecords)
      ⟨fun h => absurd h hop, hleak⟩
  have hwrite : ∀ (id : IncarnationId) (record : IncarnationRecord),
      Saved r.authority.incarnation (subject r) id →
      ∀ i, ¬ Saved r.authority.incarnation (subject r) i →
        (a.incarnations.insert id record)[i]? = a.incarnations[i]? := by
    intro id record hid i hi
    exact Lib.getElem?_insert_of_ne _ _ fun heq => hi (heq ▸ hid)
  rcases decision_cases e a r with ⟨hc, -⟩ | ⟨hc, hop⟩ | ⟨hc, hop⟩ <;> rw [h] at hc
  · have hnotIssue : ∀ op, r.op = op → op ≠ .issue → ¬ LeaksBinding a r := by
      intro op hop hne hleak
      exact hne (hop.symm.trans hleak.1)
    cases hc with
    | exhausted op =>
      exact hcovered ⟨rfl, rfl, rfl, rfl, List.take_length, rfl, rfl, rfl⟩
        (hnotIssue _ op (by decide)) (by simp [op]) fun _ _ => rfl
    | cleared op =>
      exact hcovered ⟨rfl, rfl, rfl, rfl, List.take_length, rfl, rfl, rfl⟩
        (hnotIssue _ op (by decide)) (by simp [op]) fun _ _ => rfl
    | resized op =>
      exact hcovered ⟨rfl, rfl, rfl, rfl, List.take_length, rfl, rfl, rfl⟩
        (hnotIssue _ op (by decide)) (by simp [op]) fun _ _ => rfl
    | retired op =>
      exact hcovered ⟨rfl, rfl, rfl, rfl, List.take_length, rfl, rfl, rfl⟩
        (hnotIssue _ op (by decide)) (by simp [op]) fun _ _ => rfl
    | revalidated op =>
      exact hcovered ⟨rfl, rfl, rfl, rfl, List.take_length, rfl, rfl, rfl⟩
        (hnotIssue _ op (by decide)) (by simp [op]) fun _ _ => rfl
    | fenced op target =>
      have hsubject : subject r = r.target := by simp [subject, op, classify]
      refine hcovered ⟨rfl, rfl, rfl, rfl, ?_, rfl, rfl, rfl⟩
        (hnotIssue _ op (by decide)) (by simp [op]) (hwrite _ _ (.inr ⟨?_, ?_⟩))
      · exact List.take_left
      · rw [hsubject]
        exact target
      · exact hsubject.symm
    | retiredIncarnation op target record =>
      have hsubject : subject r = r.target := by simp [subject, op, classify]
      refine hcovered (setIncarnation_extends _ _ _)
        (hnotIssue _ op (by decide)) (by simp [op]) (hwrite _ _ (.inr ⟨?_, ?_⟩))
      · rw [hsubject]
        exact target
      · exact hsubject.symm
    | advanced op plan =>
      have hsubject : subject r = r.target := by
        rcases op with op | op <;> simp [subject, op, classify]
      have hleak : ¬ LeaksBinding a r := by
        rintro ⟨hissue, -⟩
        rcases op with op | op <;> exact absurd (op.symm.trans hissue) (by decide)
      have hext : Extends a (AccountState.forgetLiveness
          { a with totals := plan.totals, epoch := nextEpoch a r, generation := a.generation + 1 }) :=
        ⟨rfl, rfl, rfl, rfl, List.take_length, rfl, rfl, rfl⟩
      rw [restoreBackup_countCommitted_iff hext, hsubject]
      simp only [AccountState.forgetLiveness, ExtTreeMap.getElem?_map]
      constructor
      · intro hrecords
        refine ⟨fun _ i record hget hstate => ?_, hleak⟩
        by_contra hi
        have hreset := hrecords i hi
        rw [hget, Option.map_some, Option.some.injEq, forgetLiveness_eq_self_iff] at hreset
        exact hreset hstate
      · rintro ⟨hother, -⟩ i hi
        cases hget : a.incarnations[i]? with
        | none => rfl
        | some record =>
          rw [Option.map_some, Option.some.injEq, forgetLiveness_eq_self_iff]
          intro hstate
          exact hi (hother op i record hget hstate)
  · have hleak : ¬ LeaksBinding a r := fun hleak =>
      absurd (hop.symm.trans hleak.1) (by decide)
    cases hc with
    | reconciled proof =>
      exact hcovered (setIncarnation_extends _ _ _) hleak (by simp [hop])
        (hwrite _ _ (.inl rfl))
  · have hleak := hc.not_leaks_of_proceed
    have hadvance : ¬ (r.op = .advanceEpoch ∨ r.op = .rotate) := by
      rintro (h | h) <;> simp [h, classify] at hop
    cases hc with
    | applied op =>
      exact hcovered ⟨rfl, rfl, rfl, rfl, List.take_length, rfl, rfl, rfl⟩ hleak hadvance
        fun _ _ => rfl
    | issued op open_ b found =>
      exact hcovered ⟨rfl, rfl, rfl, rfl, List.take_length, rfl, rfl, rfl⟩ hleak hadvance
        (hwrite _ _ (.inl rfl))

omit [Journal J] in
/-- A refused decision hands over the account as it was exactly when the backup, which is
    taken from it, covers the refusal. -/
theorem decision_refuse_account_iff {e : CreditEngine J} {a a' : AccountState}
    {r : CreditRequest} {s : Status} (h : e.decision a r = .refuse s a') :
    a' = a ↔ RollbackCovers a r := by
  rcases decision_cases e a r with ⟨hc, -⟩ | ⟨hc, -⟩ | ⟨hc, hdata⟩
  · rw [h] at hc
    cases hc with
    | refused _ op =>
      refine iff_of_true rfl ⟨fun h => h.elim (absurd · op.1) (absurd · op.2), ?_⟩
      intro hleak
      -- an Issue is no control operation, and its decision is a ledger decision
      have hledger := decideLedger_cases a r
      rw [← show e.decision a r = decideLedger a r by
        simp [decision, hleak.1, classify], h] at hledger
      exact hledger.refuse_account_iff.mp rfl hleak
  · rw [h] at hc
    cases hc
  · rw [h] at hc
    have hadvance : ¬ (r.op = .advanceEpoch ∨ r.op = .rotate) := by
      rintro (h | h) <;> simp [h, classify] at hdata
    rw [hc.refuse_account_iff, RollbackCovers]
    exact (and_iff_right fun h => absurd h hadvance).symm

/-! ### Failed appends -/

/-- The call ended in a failed append: of the Intent, or of the Attempt behind it. -/
inductive AppendFailure (e e' : CreditEngine (Observed J)) : Prop
  | intent (i : JournalRecord) (s : Status) (kind : i.kind = .intent) (hs : s.ok = false)
      (log : e'.journal.log = e.journal.log ++ [.appended i s])
  | attempt (i t : JournalRecord) (s₀ s : Status) (kind : t.kind = .attempt)
      (hs : s.ok = false)
      (log : e'.journal.log = e.journal.log ++ [.appended i s₀, .appended t s])

omit [Journal J] in
/-- A call that changes no journal ends in no failed append. -/
theorem AppendFailure.log_ne {e e' : CreditEngine (Observed J)} (h : AppendFailure e e') :
    e'.journal.log ≠ e.journal.log := by
  cases h with
  | intent i s _ _ log => simp [log]
  | attempt i t s₀ s _ _ log => simp [log]

/-- When a failed append ends the call, `persistLocked` reports it. -/
theorem AppendFailure.persist_failed {e e' : CreditEngine (Observed J)} {r : CreditRequest}
    {o : CreditOutcome} {a : AccountState} {c : Bool} (h : AppendFailure e e')
    (e₀ : CreditEngine (Observed J))
    (hstart : e₀.journal = e.journal) (hend : e'.journal = (e₀.persistLocked r o a c).2.journal) :
    (e₀.persistLocked r o a c).1.ok = false := by
  obtain ⟨events, hlog, htrace⟩ := persistLocked_trace e₀ r o a c
  rw [← hend, hstart] at hlog
  generalize (e₀.persistLocked r o a c).1 = status at htrace ⊢
  cases htrace with
  | intentFailed s hs => exact hs
  | attemptFailed s₁ s _ hs => exact hs
  | kept s₁ s₂ _ h₂ =>
    -- two successful appends are neither one event nor two of which the last failed
    cases h with
    | intent i s _ _ log => simp [log] at hlog
    | attempt i t s₀ s _ hs log =>
      rw [log, List.append_cancel_left_eq] at hlog
      simp only [List.cons.injEq, JournalEvent.appended.injEq] at hlog
      rw [hlog.2.1.2, h₂] at hs
      exact absurd hs (by decide)
  | rotated s₁ s₂ _ more _ h₂ _ =>
    cases h with
    | intent i s _ _ log => simp [log] at hlog
    | attempt i t s₀ s _ hs log =>
      rw [log, List.append_cancel_left_eq] at hlog
      simp only [List.cons.injEq, JournalEvent.appended.injEq] at hlog
      rw [hlog.2.1.2, h₂] at hs
      exact absurd hs (by decide)

/-- Putting an account back changes nothing exactly when it is the account that stood there. -/
private theorem insert_eq_self_iff {m : ExtTreeMap UInt64 AccountState} {key : UInt64}
    {a restored : AccountState} (h : m[key]? = some a) :
    m.insert key restored = m ↔ restored = a := by
  constructor
  · intro heq
    have hget : (m.insert key restored)[key]? = some restored := ExtTreeMap.getElem?_insert_self
    rw [heq, h, Option.some.injEq] at hget
    exact hget.symm
  · rintro rfl
    exact Lib.insert_eq_self _ h

/-- A failed commit on the account `a`: the engine is latched, and the accounts are as before
    exactly when the rollback restores `a`. -/
theorem settle_undone_iff {e : CreditEngine (Observed J)} {r : CreditRequest}
    {o : CreditOutcome} {a a' restored : AccountState} {key : UInt64}
    {publish : CreditEngine (Observed J) → CreditEngine (Observed J)}
    (hfail : AppendFailure e
      ((e.put key a').settle r o a' false (fun e => e.put key restored) publish).2)
    (hpublish : ∀ e, (publish e).journal = e.journal) (hfound : e.accounts[key]? = some a) :
    (((e.put key a').settle r o a' false (fun e => e.put key restored) publish).2.journalFailed =
        true ∧
      ((e.put key a').settle r o a' false (fun e => e.put key restored) publish).2.accounts =
        e.accounts) ↔ restored = a := by
  cases hok : ((e.put key a').persistLocked r o a' false).1.ok with
  | true =>
    rw [settle_of_ok hok] at hfail
    have hbad := hfail.persist_failed (e.put key a') rfl (hpublish _)
    exact absurd (hok.symm.trans hbad) (by decide)
  | false =>
    have hframe := (persistLocked_frame (e.put key a') r o a' false).accounts
    rw [settle_of_failed hok]
    simp only [put_accounts, hframe, Lib.insert_insert_self, true_and]
    exact insert_eq_self_iff hfound

/-- **A failed commit is undone exactly when the backup covers it.**  After a failed Intent or
    Attempt append the engine is latched and every account is as before, if and only if the
    account's state before the call satisfies `RollbackCovers` for this request: an epoch
    advance finds no reconciled incarnation besides the caller and the subject, and no Issue
    binding is written in front of a decided refusal.  An Open is always undone. -/
theorem apply_undone_iff (e : CreditEngine (Observed J)) (r : CreditRequest)
    (hfail : AppendFailure e (e.apply r).2) :
    ((e.apply r).2.journalFailed = true ∧ (e.apply r).2.accounts = e.accounts) ↔
      ∀ a, e.accounts[r.authority.account]? = some a → RollbackCovers a r := by
  have hcase := apply_cases e r
  generalize e.apply r = result at hcase hfail
  cases hcase with
  | answered o _ _ => exact absurd rfl hfail.log_ne
  | absorbed a existing _ _ => exact absurd rfl hfail.log_ne
  -- an Open has no account to restore: its slot is erased
  | opened h =>
    obtain ⟨hnone, hkey⟩ := h.fresh
    have haccount : (openedAccount e.limits r).account = r.authority.account := hkey
    cases hok : ((e.put (openedAccount e.limits r).account
        (openedAccount e.limits r)).persistLocked r (e.openOutcome r)
        (openedAccount e.limits r) true).1.ok with
    | true =>
      have hjournal : (e.settleOpen r).2.journal = ((e.put (openedAccount e.limits r).account
          (openedAccount e.limits r)).persistLocked r (e.openOutcome r)
          (openedAccount e.limits r) true).2.journal := by
        rw [settleOpen, settle_of_ok hok]
        rfl
      have hbad := hfail.persist_failed (e.put _ _) rfl hjournal
      exact absurd (hok.symm.trans hbad) (by decide)
    | false =>
      refine iff_of_true ?_ fun a ha => absurd (hnone.symm.trans ha) (by simp)
      rw [settleOpen, settle_of_failed hok]
      refine ⟨rfl, ?_⟩
      have hframe := (persistLocked_frame (e.put (openedAccount e.limits r).account
        (openedAccount e.limits r)) r (e.openOutcome r) (openedAccount e.limits r) true).accounts
      show ExtTreeMap.erase (persistLocked _ _ _ _ _).2.accounts _ = _
      rw [hframe, put_accounts, haccount]
      exact Lib.erase_insert_self _ _ hnone
  -- the rollback restores two records, so it must cover what the decision changed
  | decided a h =>
    have hcovers : (∀ a, e.accounts[r.authority.account]? = some a → RollbackCovers a r) ↔
        RollbackCovers a r := by
      simp only [h.found, Option.some.injEq, forall_eq']
    rw [hcovers]
    unfold settleDecision follow at hfail ⊢
    cases hdec : e.decision a r with
    | reject s a' =>
      simp only [hdec] at hfail
      exact absurd rfl hfail.log_ne
    | refuse s a' =>
      simp only [hdec, finishDecided] at hfail ⊢
      refine (settle_undone_iff hfail (fun _ => rfl) h.found).trans ?_
      rw [restoreBackup_countRefused]
      exact decision_refuse_account_iff hdec
    | proceed a' =>
      simp only [hdec, commitApplied] at hfail ⊢
      refine (settle_undone_iff hfail (fun _ => rfl) h.found).trans ?_
      exact rollback_proceed_iff hdec

/-! ### A rollback that misses a record

Another incarnation has reconciled when the journal is full: the Intent append of the
operator's epoch advance fails, and the rollback leaves the other incarnation unknown. -/

namespace FullJournal

/-- A second incarnation. -/
def other : Incarnation := .make 0x0BEE 0x0B007

/-- The journal has room for two decisions. -/
def before : CreditEngine (Observed InMemoryJournal) :=
  (Fixture.boot {} { journal := { maxBytes := 1900 } } ⟨5, 5⟩).run
    [Fixture.request ⟨5, 5⟩ Fixture.me .open_ 1, Fixture.request ⟨5, 5⟩ other .reconcile 1]

/-- The operator advances the epoch. -/
def advance : CreditRequest := Fixture.request ⟨5, 5⟩ Fixture.me .advanceEpoch 2

/-- The second incarnation protects two credits. -/
def protect : CreditRequest := Fixture.request ⟨5, 5⟩ other .protect 2

end FullJournal

/-- The Intent append fails, the engine is latched, and the accounts are not as before. -/
theorem advance_not_undone :
    (FullJournal.before.apply FullJournal.advance).2.journal.log = FullJournal.before.journal.log ++
        [.appended (FullJournal.before.intentRecord FullJournal.advance)
          (.refused .budgetExceeded 1824)] ∧
      (FullJournal.before.apply FullJournal.advance).2.journalFailed = true ∧
      (FullJournal.before.apply FullJournal.advance).2.accounts ≠ FullJournal.before.accounts := by
  decide +kernel

/-- A Protect that fails the same way is undone. -/
theorem protect_undone :
    ((FullJournal.before.apply FullJournal.protect).2.journalFailed = true ∧
        (FullJournal.before.apply FullJournal.protect).2.accounts = FullJournal.before.accounts) ↔
      ∀ a, FullJournal.before.accounts[FullJournal.protect.authority.account]? = some a →
        RollbackCovers a FullJournal.protect :=
  apply_undone_iff FullJournal.before FullJournal.protect
    (.intent (FullJournal.before.intentRecord FullJournal.protect)
      (.refused .budgetExceeded 1824) rfl (by decide) (by decide +kernel))

end CreditEngine

end CreditFabric
