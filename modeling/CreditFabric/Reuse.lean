import CreditFabric.Recall
import CreditFabric.Sequences

namespace CreditFabric

open Std (ExtTreeMap)
open Lib (latest)

/-!
# Attempt identities used twice

A window finds an attempt under whatever sequence number it is presented again, and so the
attempt is not applied twice while its decision is among the latest ones that fit.  A snapshot
carries the places of the decisions, and not their attempts.

* `apply_retains`: what a call adds to the decisions on the storage is a decision under an
  attempt that the running engine does not recall.
* `Deployment.spent_once`: in a run in which no attempt is presented whose recent decision was
  covered by a snapshot when the engine was booted, no two recent applied decisions on an
  account have one attempt.
* `TwiceIssued` is a run that presents such an attempt, and issues twice under it.
-/

/-- No decision is applied under the attempt of a recent applied decision on its account. -/
def UsedOnce (limit : Nat) (ds : List DurableAttempt) : Prop :=
  ∀ front d back, ds = front ++ d :: back → d.outcome.applied = true →
    ∀ d' ∈ latest limit (decisionsOn d.request.authority.account front),
      d'.outcome.applied = true → d'.request.attempt ≠ d.request.attempt

/-- No decisions. -/
theorem usedOnce_nil (limit : Nat) : UsedOnce limit [] := by
  intro front d back h
  exact absurd h (by simp)

/-- One more decision under an id that the latest ones do not have. -/
theorem UsedOnce.concat {limit : Nat} {ds : List DurableAttempt} (h : UsedOnce limit ds)
    {d : DurableAttempt}
    (hd : ∀ d' ∈ latest limit (decisionsOn d.request.authority.account ds),
      d'.request.attempt ≠ d.request.attempt) : UsedOnce limit (ds ++ [d]) := by
  intro front x back hsplit happlied d' hd' _
  rcases List.eq_nil_or_concat back with rfl | ⟨rest, last, rfl⟩
  · obtain ⟨rfl, hlast⟩ := List.append_inj' hsplit rfl
    obtain rfl : d = x := by simpa using hlast
    exact hd d' hd'
  · rw [List.concat_eq_append, ← List.cons_append, ← List.append_assoc] at hsplit
    obtain ⟨hfront, -⟩ := List.append_inj' hsplit rfl
    exact h front x rest hfront happlied d' hd' ‹_›

namespace CreditEngine

variable {J K : Type} {limit : Nat} {ds live : List DurableAttempt}

/-! ### Calls -/

/-- The storage holds the decisions `ds`, and recalls the last ones of `live` at least. -/
def Holds (K : Type) (limit : Nat) (ds live : List DurableAttempt) (d : Disk) : Prop :=
  ∃ past recent, Retains K limit d past recent ∧ past ++ recent = ds ∧ recent <:+ live

variable {e e' : CreditEngine (Observed J)} {d : Disk} {s : Status} {evs : List JournalEvent}
  {m : ExtTreeMap UInt64 AccountState} {n : Nat}

/-- The image of an engine has places and no ids. -/
theorem blank_durableState {e : CreditEngine J} (hlimit : 1 ≤ limit)
    (hstanding : AllStanding e.accounts) (hwindowed : AllWindowed e.accounts) :
    Blank limit e.durableState := by
  rintro vague limits hvague rfl
  exact allRecall_restored hstanding hwindowed hlimit hvague

/-- The calls of a snapshot: the decisions stay, and are covered behind the first call. -/
theorem SnapshotTrace.retains (h : SnapshotTrace e s evs) (hd : Holds K limit ds live d)
    (hbehind : Behind d n) (hseq : e.nextJournalSequence.toNat = n)
    (hblank : Blank limit e.durableState) :
    d.Through (Holds K limit ds live) (Holds K limit ds live) evs := by
  have hcovers : ∀ {d' : Disk}, Retains K limit d' ds [] → Holds K limit ds live d' := by
    intro d' hd'
    exact ⟨ds, [], hd', List.append_nil ds, List.nil_suffix⟩
  -- behind the record of the snapshot every decision is covered
  have hrecorded : ∀ {d' : Disk}, d.Appended e.snapshotRecord d' → Retains K limit d' ds [] ∧
      covered d'.written ≠ [] ∧ ∀ t ∈ d'.records, t.sequence ≤ e.nextJournalSequence := by
    intro d' happended
    obtain ⟨past, recent, hretains, rfl, -⟩ := hd
    refine ⟨hretains.snapshotted happended rfl hbehind hseq.ge rfl hblank, ?_, fun t ht => ?_⟩
    · rw [happended.written, covered_concat rfl]
      simp
    · rw [happended.records, List.mem_append, List.mem_singleton] at ht
      rcases ht with hold | rfl
      · rw [UInt64.le_iff_toNat_le, hseq]
        exact hbehind.records t hold
      · exact UInt64.le_refl _
  have hwritten : ∀ {d' d'' : Disk} {s' : Status}, d.Appended e.snapshotRecord d' →
      d'' ∈ d'.after (.wroteSnapshot e.snapshotImage s') →
      Retains K limit d'' ds [] := by
    intro d' d'' s' happended hd''
    obtain ⟨hretains, hfront, hall⟩ := hrecorded happended
    rcases Disk.after_wroteSnapshot hd'' with rfl | ⟨rfl, -⟩
    · exact hretains.of_image hfront rfl rfl hall rfl hblank
    · exact hretains
  have hrotated : ∀ {d' d'' d₃ : Disk} {s' s'' : Status}, d.Appended e.snapshotRecord d' →
      s'.ok = true → d'' ∈ d'.after (.wroteSnapshot e.snapshotImage s') →
      d₃ ∈ d''.after (.rotated e.nextJournalSequence s'') → Retains K limit d₃ ds [] := by
    intro d' d'' d₃ s' s'' happended hs' hd'' hd₃
    obtain ⟨hretains, hfront, hall⟩ := hrecorded happended
    obtain ⟨hsnapshot, hsame, hrecords⟩ := Disk.after_rotated hd₃
    rcases Disk.after_wroteSnapshot hd'' with rfl | ⟨-, hfailed⟩
    · exact hretains.of_image hfront hsame hsnapshot (fun t ht => hall t (hrecords t ht)) rfl
        hblank
    · rw [hs'] at hfailed
      exact absurd hfailed (by decide)
  cases h with
  | appendFailed =>
    refine .cons hd fun d' hd' => ?_
    rcases Disk.after_appended hd' with happended | ⟨rfl, -⟩
    · exact .nil (hcovers (hrecorded happended).1) (hcovers (hrecorded happended).1)
    · exact .nil hd hd
  | writeFailed _ _ h₁ =>
    refine .cons hd fun d' hd' => ?_
    have happended := Disk.appended_of_ok hd' h₁
    refine .cons (hcovers (hrecorded happended).1) fun d'' hd'' => ?_
    exact .nil (hcovers (hwritten happended hd'')) (hcovers (hwritten happended hd''))
  | rotateFailed _ _ _ h₁ h₂ =>
    refine .cons hd fun d' hd' => ?_
    have happended := Disk.appended_of_ok hd' h₁
    refine .cons (hcovers (hrecorded happended).1) fun d'' hd'' => ?_
    refine .cons (hcovers (hwritten happended hd'')) fun d₃ hd₃ => ?_
    exact .nil (hcovers (hrotated happended h₂ hd'' hd₃)) (hcovers (hrotated happended h₂ hd'' hd₃))
  | durable _ _ _ h₁ h₂ =>
    refine .cons hd fun d' hd' => ?_
    have happended := Disk.appended_of_ok hd' h₁
    refine .cons (hcovers (hrecorded happended).1) fun d'' hd'' => ?_
    refine .cons (hcovers (hwritten happended hd'')) fun d₃ hd₃ => ?_
    exact .nil (hcovers (hrotated happended h₂ hd'' hd₃)) (hcovers (hrotated happended h₂ hd'' hd₃))

variable [Journal J]

/-- The calls of a decision under a novel attempt: a crash leaves the decision on the storage or
    not, and when it persists it is there. -/
theorem PersistTrace.retains {r : CreditRequest} {o : CreditOutcome} {a : AccountState} {c : Bool}
    (h : PersistTrace e r o a c s evs) (hlimit : 1 ≤ limit) (hd : Holds K limit ds live d)
    (hdurable : Durable K d m n) (hseq : e.nextJournalSequence.toNat = n) (hn : n + 3 < 2 ^ 64)
    (hwritten : (e.durableAttempt r o a c).Written) (hdecided : o.decided = true)
    (hahead : ∀ a p, m[r.authority.account]? = some a → Outline p a →
      (p.countersAt r.authority.incarnation).last.toNat < r.sequence.toNat)
    (hnovel : Novel limit r live) (hblank : Blank limit e.durableState) :
    d.Through
      (fun d' => Holds K limit ds live d' ∨ Holds K limit
        (ds ++ [(e.durableAttempt r o a c).noteless])
        (live ++ [(e.durableAttempt r o a c).noteless]) d')
      (fun d' => s.ok = true → Holds K limit (ds ++ [(e.durableAttempt r o a c).noteless])
        (live ++ [(e.durableAttempt r o a c).noteless]) d') evs := by
  generalize hx : (e.durableAttempt r o a c).noteless = x
  have hone : (e.nextJournalSequence + 1).toNat = n + 1 := by
    rw [toNat_add_one (by omega), hseq]
  have htwo : (e.nextJournalSequence + 1 + 1).toNat = n + 2 := by
    rw [toNat_add_one (by omega), hone]
  -- the Intent carries no decision: the disk holds what it held
  have hintent : ∀ {d' : Disk} {s' : Status}, d' ∈ d.after (.appended (e.intentRecord r) s') →
      Holds K limit ds live d' ∧ Durable K d' m n := by
    intro d' s' hd'
    rcases Disk.after_appended hd' with happended | ⟨rfl, -⟩
    · obtain ⟨past, recent, hretains, hlists⟩ := hd
      exact ⟨⟨past, recent, hretains.intent happended rfl, hlists⟩,
        hdurable.intent happended rfl hseq⟩
    · exact ⟨hd, hdurable⟩
  -- the Attempt adds one, at the end of both lists
  have hattempt : ∀ {d' d'' : Disk}, Holds K limit ds live d' ∧ Durable K d' m n →
      d'.Appended (e.attemptRecord r o a c) d'' →
      Holds K limit (ds ++ [x]) (live ++ [x]) d'' ∧ Behind d'' (n + 2) := by
    rintro d' d'' ⟨⟨past, recent, hretains, rfl, hsuffix⟩, hdurable'⟩ happended
    have hmore := hretains.attempt happended rfl hlimit hdurable'
      (show n ≤ (e.nextJournalSequence + 1).toNat by omega) hwritten rfl hdecided hahead
      (hnovel.suffix hsuffix)
    rw [hx] at hmore
    refine ⟨⟨past, recent ++ [x], hmore, (List.append_assoc _ _ _).symm, ?_⟩,
      hdurable'.behind.appended (by omega) happended ?_⟩
    · obtain ⟨front, rfl⟩ := hsuffix
      exact ⟨front, (List.append_assoc _ _ _).symm⟩
    · show (e.nextJournalSequence + 1).toNat ≤ n + 2
      omega
  -- where the trace stops decides which of the two lists the disk holds
  cases h with
  | intentFailed _ hs =>
    exact .cons (.inl hd) fun d' hd' => .nil (.inl (hintent hd').1) (Status.never_ok hs)
  | attemptFailed _ _ _ hs =>
    refine .cons (.inl hd) fun d' hd' => .cons (.inl (hintent hd').1) fun d'' hd'' => ?_
    rcases Disk.after_appended hd'' with happended | ⟨rfl, -⟩
    · exact .nil (.inr (hattempt (hintent hd') happended).1) (Status.never_ok hs)
    · exact .nil (.inl (hintent hd').1) (Status.never_ok hs)
  | kept _ _ _ h₂ =>
    refine .cons (.inl hd) fun d' hd' => .cons (.inl (hintent hd').1) fun d'' hd'' => ?_
    have hmore := (hattempt (hintent hd') (Disk.appended_of_ok hd'' h₂)).1
    exact .nil (.inr hmore) fun _ => hmore
  | rotated _ _ _ more _ h₂ hsnap =>
    refine .cons (.inl hd) fun d' hd' => .cons (.inl (hintent hd').1) fun d'' hd'' => ?_
    obtain ⟨hmore, hbehind⟩ := hattempt (hintent hd') (Disk.appended_of_ok hd'' h₂)
    exact (hsnap.retains hmore hbehind htwo hblank).mono (fun _ => .inr) fun _ _ hall _ => hall

/-- The account has not passed the sequence number of the request. -/
def Due (m : ExtTreeMap UInt64 AccountState) (r : CreditRequest) : Prop :=
  ∀ a, m[r.authority.account]? = some a →
    (a.countersAt r.authority.incarnation).last.toNat < r.sequence.toNat

/-- The histories behind a call: the decisions are the same ones, or there is one more, under the
    attempt of the request, which no recent one of `live` has. -/
inductive Adds (limit : Nat) (m : ExtTreeMap UInt64 AccountState) (r : CreditRequest)
    (ds live : List DurableAttempt) : List DurableAttempt → List DurableAttempt → Prop
  | none : Adds limit m r ds live ds live
  | one (x : DurableAttempt) (account : x.request.authority.account = r.authority.account)
      (attempt : x.request.attempt = r.attempt) (due : Due m r) (novel : Novel limit r live) :
      Adds limit m r ds live (ds ++ [x]) (live ++ [x])

/-- What a crash in a call leaves, and what is there behind it: the decisions of the storage with
    what the call adds, which the accounts recall as well unless the journal has failed. -/
def CallRetains (K : Type) (limit : Nat) (vague : Prop) (m : ExtTreeMap UInt64 AccountState)
    (r : CreditRequest) (ds live : List DurableAttempt) (e e' : CreditEngine (Observed J))
    (d : Disk) : Prop :=
  ∃ evs, e'.journal.log = e.journal.log ++ evs ∧
    d.Through
      (fun d' => ∃ ds' live', Adds limit m r ds live ds' live' ∧ Holds K limit ds' live' d')
      (fun d' => e'.journalFailed = false → ∃ ds' live', Adds limit m r ds live ds' live' ∧
        Holds K limit ds' live' d' ∧ AllRecall limit vague e'.accounts live') evs

section Call

variable {vague : Prop} {r : CreditRequest}

omit [Journal J] in
/-- Without journal calls the history stays the same. -/
theorem CallRetains.quiet (hjournal : e'.journal = e.journal) (hd : Holds K limit ds live d)
    (hrecall : e'.journalFailed = false → AllRecall limit vague e'.accounts live) :
    CallRetains K limit vague m r ds live e e' d :=
  ⟨[], by rw [hjournal, List.append_nil], .nil ⟨ds, live, .none, hd⟩
    fun hhealthy => ⟨ds, live, .none, hd, hrecall hhealthy⟩⟩

/-- One decision. -/
theorem settle_retains {o : CreditOutcome} {a : AccountState} {c : Bool}
    {f g : CreditEngine (Observed J) → CreditEngine (Observed J)} (hlimit : 1 ≤ limit)
    (hd : Holds K limit ds live d) (hdurable : Durable K d m n)
    (hseq : e.nextJournalSequence.toNat = n) (hn : n + 3 < 2 ^ 64)
    (hwritten : (e.durableAttempt r o a c).Written) (hdecided : o.decided = true)
    (hahead : ∀ a p, m[r.authority.account]? = some a → Outline p a →
      (p.countersAt r.authority.incarnation).last.toNat < r.sequence.toNat)
    (hdue : Due m r) (hnovel : Novel limit r live) (hblank : Blank limit e.durableState)
    (hf : ∀ e', (f e').journal = e'.journal)
    (hg : ∀ e', SameLedger e e' → (g e').journal = e'.journal ∧
      AllRecall limit vague (g e').accounts (live ++ [(e.durableAttempt r o a c).noteless])) :
    CallRetains K limit vague m r ds live e (e.settle r o a c f g).2 d := by
  obtain ⟨evs, hlog, htrace⟩ := persistLocked_trace e r o a c
  have hthrough := htrace.retains hlimit hd hdurable hseq hn hwritten hdecided hahead hnovel hblank
  have hadds : Adds limit m r ds live (ds ++ [(e.durableAttempt r o a c).noteless])
      (live ++ [(e.durableAttempt r o a c).noteless]) := .one _ rfl rfl hdue hnovel
  have hframe := persistLocked_frame e r o a c
  unfold CallRetains
  -- a failed call may have left its decision on the storage all the same
  cases hok : (e.persistLocked r o a c).1.ok with
  | false =>
    rw [settle_of_failed hok]
    refine ⟨evs, ?_, hthrough.mono (fun d' hd' => ?_) fun _ _ _ hhealthy => ?_⟩
    · rw [← hlog]
      exact congrArg Observed.log (hf _)
    · rcases hd' with hbefore | hbehind
      · exact ⟨ds, live, .none, hbefore⟩
      · exact ⟨_, _, hadds, hbehind⟩
    · exact absurd hhealthy (by simp)
  | true =>
    rw [settle_of_ok hok]
    obtain ⟨hjournal, hrecall⟩ := hg _ hframe
    refine ⟨evs, by rw [hjournal, hlog], hthrough.mono (fun d' hd' => ?_) fun d' _ hbehind _ => ?_⟩
    · rcases hd' with hbefore | hbehind
      · exact ⟨ds, live, .none, hbefore⟩
      · exact ⟨_, _, hadds, hbehind⟩
    · exact ⟨_, _, hadds, hbehind hok, hrecall⟩

omit [Journal J] in
/-- An admitted request has an attempt that the window does not find. -/
theorem Admitted.novel {e : CreditEngine J} {a : AccountState} (h : Admitted e r a)
    (hrecall : AllRecall limit vague e.accounts live) (hid : vague → r.attempt ≠ {}) :
    Novel limit r live := by
  intro d hd hsame
  have hlate : d.identity ∈ latest limit
      ((decisionsOn r.authority.account live).map DurableAttempt.identity) := by
    rw [Lib.latest_map]
    exact List.mem_map_of_mem hd
  have hattempt : d.identity.2 = r.attempt := hsame
  have hknown := (hrecall.known _ a h.found).known hlate (by rw [hattempt]; exact hid)
  rw [hattempt] at hknown
  have hplaced := h.placed
  unfold placeInSequence at hplaced
  cases hfound : a.window.find
      { incarnation := r.authority.incarnation, sequence := r.sequence } with
  | some existing =>
    simp only [hfound] at hplaced
    split_ifs at hplaced
  | none =>
    simp only [hfound, if_pos hknown] at hplaced
    exact absurd hplaced (by simp)

/-- **One call.** -/
theorem apply_retains (e : CreditEngine (Observed J)) (r : CreditRequest) (hlimit : 1 ≤ limit)
    (hfits : e.limits.maxAttemptWindow = limit) (hstanding : AllStanding e.accounts)
    (hwindowed : AllWindowed e.accounts) (hd : Holds K limit ds live d)
    (hdurable : Durable K d e.accounts n) (hseq : e.nextJournalSequence.toNat = n)
    (hn : n + 3 < 2 ^ 64) (hrecall : AllRecall limit vague e.accounts live)
    (hid : vague → Due e.accounts r → r.attempt ≠ {}) :
    CallRetains K limit vague e.accounts r ds live e (e.apply r).2 d := by
  have hcase := e.apply_cases r
  generalize e.apply r = result at hcase ⊢
  cases hcase with
  | answered => exact .quiet rfl hd fun _ => hrecall
  | absorbed => exact .quiet rfl hd fun _ => hrecall
  -- no decision of this account is live, so its window starts empty
  | opened h =>
    have hnone := hrecall.unknown _ h.fresh.1
    have hnovel : Novel limit r live := by
      intro x hx
      rw [hnone, Lib.latest_nil] at hx
      exact absurd hx List.not_mem_nil
    have hunknown : ∀ {a : AccountState} {P : Prop},
        e.accounts[r.authority.account]? = some a → P := by
      intro a P ha
      rw [h.fresh.1] at ha
      exact absurd ha (by simp)
    obtain ⟨hstanding', hwindowed'⟩ := opening_invariants h hstanding hwindowed
    refine settle_retains (e := e.opening r) hlimit hd hdurable hseq hn
      (durableAttempt_written _ r _ (quarantined_computeView _ _) fun _ => rfl) rfl
      (fun a _ ha _ => hunknown ha) (fun a ha => hunknown ha) hnovel
      (blank_durableState hlimit hstanding' hwindowed') (fun _ => rfl)
      fun e' hframe => ⟨rfl, ?_⟩
    have hwindow : (e.publishedOpen r).window =
        (AttemptWindow.make limit).insert (windowEntry r (e.openOutcome r)) := by
      rw [← hfits]
      exact window_publishWindow _ _ _
    have hnew := AttemptWindow.recalls_make hlimit vague
    rw [show ([] : List (WindowKey × AttemptId)) =
      (decisionsOn r.authority.account live).map DurableAttempt.identity by rw [hnone]; rfl] at hnew
    rw [opening_published h hframe]
    exact hrecall.publish hlimit hnew (AttemptWindow.make_indexed limit) rfl List.not_mem_nil
      hnovel ⟨rfl, rfl, rfl⟩ hwindow
  | decided a h =>
    -- an admitted request is its incarnation's next: ahead of the window, and of the disk
    have hdue : Due e.accounts r := by
      intro a₁ ha₁
      obtain rfl : a = a₁ := by simpa using h.found.symm.trans ha₁
      rw [sequence_of_admitted h.placed]
      exact Nat.lt_succ_self _
    have hnovel := h.novel hrecall fun hvague => hid hvague hdue
    have hwindow := (decision_unwritten e a r).1
    have hfresh : ∀ o, (windowEntry r o).key ∉ a.window.order := fun o =>
      (hwindowed _ a h.found).fresh (k := (windowEntry r o).key)
        (by
          show (a.countersAt r.authority.incarnation).last.toNat < r.sequence.toNat
          rw [sequence_of_admitted h.placed]
          exact Nat.lt_succ_self _)
    have hahead : ∀ a₁ p, e.accounts[r.authority.account]? = some a₁ → Outline p a₁ →
        (p.countersAt r.authority.incarnation).last.toNat < r.sequence.toNat := by
      intro a₁ p ha₁ houtline
      rw [h.found, Option.some.injEq] at ha₁
      exact h.ahead (ha₁ ▸ houtline)
    have hindexed := (hwindowed _ a h.found).indexed
    unfold settleDecision follow
    cases hdecision : e.decision a r with
    -- nothing is journaled of a rejected request
    | reject s a' =>
      rw [hdecision] at hwindow
      exact .quiet rfl hd fun _ => hrecall.replace h.found hwindow
    | refuse s a' =>
      rw [hdecision] at hwindow
      obtain ⟨hstanding', hwindowed'⟩ := refusing_invariants h hdecision hstanding hwindowed
      refine settle_retains (e := e.refusing r a') hlimit hd hdurable hseq hn
        (durableAttempt_written _ r _ (quarantined_computeView _ _) nofun) rfl hahead hdue hnovel
        (blank_durableState hlimit hstanding' hwindowed') (fun _ => rfl)
        fun e' hframe => ⟨rfl, ?_⟩
      have hinsert := window_refusedAccount e.limits a' r (refusalOutcome a r s a')
      rw [show a'.window = a.window from hwindow] at hinsert
      rw [refusing_published hframe]
      exact hrecall.publish hlimit (hrecall.known _ a h.found) hindexed rfl (hfresh _) hnovel
        ⟨rfl, rfl, rfl⟩ hinsert
    | proceed a' =>
      rw [hdecision] at hwindow
      obtain ⟨hstanding', hwindowed'⟩ := applying_invariants h hdecision hstanding hwindowed
      refine settle_retains (e := e.applying r a') hlimit hd hdurable hseq hn
        (durableAttempt_written _ r _ (quarantined_computeView _ _) nofun) rfl hahead hdue hnovel
        (blank_durableState hlimit hstanding' hwindowed') (fun _ => rfl)
        fun e' hframe => ⟨rfl, ?_⟩
      have hinsert := window_appliedAccount a r a'
      rw [show a'.window = a.window from hwindow] at hinsert
      show AllRecall limit vague (publishApplied _ _ r (applicationOutcome a r a') e').accounts _
      rw [applying_published hframe]
      exact hrecall.publish hlimit (hrecall.known _ a h.found) hindexed rfl (hfresh _) hnovel
        ⟨rfl, rfl, rfl⟩ hinsert

/-- **One snapshot.** -/
theorem snapshot_retains (e : CreditEngine (Observed J)) (hlimit : 1 ≤ limit)
    (hstanding : AllStanding e.accounts) (hwindowed : AllWindowed e.accounts)
    (hd : Holds K limit ds live d) (hbehind : Behind d n)
    (hseq : e.nextJournalSequence.toNat = n) :
    ∃ evs, e.snapshot.2.journal.log = e.journal.log ++ evs ∧
      d.Through (Holds K limit ds live) (Holds K limit ds live) evs := by
  unfold snapshot
  split_ifs
  · exact ⟨[], (List.append_nil _).symm, .nil hd hd⟩
  · exact ⟨[], (List.append_nil _).symm, .nil hd hd⟩
  · obtain ⟨evs, hlog, htrace⟩ := (snapshotLocked_snapshotted e).trace
    exact ⟨evs, hlog, htrace.retains hd hbehind hseq
      (blank_durableState hlimit hstanding hwindowed)⟩

end Call

end CreditEngine

/-! ### Runs -/

namespace Deployment

open CreditEngine

variable {J : Type} [Journal J] {limit : Nat} {front : List JournalRecord}
  {w w' : Deployment J} {acts : List Act}

/-- Of the recent decisions on the account none that carries the attempt is among `front`, the
    records that a snapshot covered when the engine was booted, if the account has not passed
    its sequence number yet.  Where there are such records the attempt is not the zero one, under
    which their places are restored. -/
def Uncovered (limit : Nat) (front : List JournalRecord) (w : Deployment J) (r : CreditRequest) :
    Prop :=
  Due w.engine.accounts r → (front ≠ [] → r.attempt ≠ {}) ∧
  ∀ past live, Chronicle front past → Chronicle w.disk.written (past ++ live) →
    ∀ d ∈ latest limit (decisionsOn r.authority.account (past ++ live)),
      d.request.attempt = r.attempt → d ∈ live

/-- The records that are covered behind the step. -/
def coveredBehind (front : List JournalRecord) (act : Act) (w : Deployment J) :
    List JournalRecord :=
  match act with
  | .restart => covered w.disk.written
  | _ => front

omit [Journal J] in
/-- A restart is covered by what was written. -/
theorem coveredBehind_restart (front : List JournalRecord) (w : Deployment J) :
    coveredBehind front .restart w = covered w.disk.written := rfl

omit [Journal J] in
/-- A call covers nothing. -/
theorem coveredBehind_call (front : List JournalRecord) (r : CreditRequest) (w : Deployment J) :
    coveredBehind front (.call r) w = front := rfl

/-- A run in which explicit snapshots returned Ok, every boot has windows for `limit` decisions and
    every request that is presented meets `C`, with the records that were covered at the latest
    boot. -/
inductive RunCovering (limit : Nat) (C : List JournalRecord → Deployment J → CreditRequest → Prop)
    (w : Deployment J) : List JournalRecord → List Act → Deployment J → Prop
  | nil (here : w.engine.limits.maxAttemptWindow = limit) : RunCovering limit C w [] [] w
  | concat {front : List JournalRecord} {acts : List Act} {act : Act} {w₁ w₂ : Deployment J}
      (run : RunCovering limit C w front acts w₁) (step : Step w₁ act w₂)
      (answered : w₁.Answered act) (meets : w₁.Meets (fun _ r => C front w₁ r) act w₂)
      (here : w₂.engine.limits.maxAttemptWindow = limit) :
      RunCovering limit C w (coveredBehind front act w₂) (acts ++ [act]) w₂

/-- A run in which every attempt that is presented is uncovered. -/
abbrev RunUncovered (limit : Nat) (w : Deployment J) (front : List JournalRecord)
    (acts : List Act) (w' : Deployment J) : Prop :=
  RunCovering limit (Uncovered limit) w front acts w'

section Run

variable {C : List JournalRecord → Deployment J → CreditRequest → Prop}

/-- A covering run is a run. -/
theorem RunCovering.run (h : RunCovering limit C w front acts w') : Run w acts w' := by
  induction h with
  | nil => exact .nil
  | concat _ step _ _ _ ih => exact ih.concat step

/-- The window of a run has one size. -/
theorem RunCovering.here (h : RunCovering limit C w front acts w') :
    w'.engine.limits.maxAttemptWindow = limit := by
  cases h with
  | nil here => exact here
  | concat _ _ _ _ here => exact here

omit [Journal J] in
/-- Where no snapshot covers anything, everything is uncovered. -/
theorem uncovered_nil (limit : Nat) (w : Deployment J) (r : CreditRequest) :
    Uncovered limit [] w r := by
  refine fun _ => ⟨fun h => absurd rfl h, fun past live hpast _ d hd _ => ?_⟩
  obtain rfl : past = [] := hpast.unique chronicle_nil
  exact (List.mem_filter.mp ((Lib.latest_sublist _ _).subset hd)).1

omit [Journal J] in
/-- An attempt that no covered decision carries is uncovered. -/
theorem uncovered_of_novel {w : Deployment J} {r : CreditRequest} {past live : List DurableAttempt}
    (hfront : Chronicle front past) (hwritten : Chronicle w.disk.written (past ++ live))
    (hzero : r.attempt ≠ {}) (hnovel : ∀ d ∈ past, d.request.attempt ≠ r.attempt) :
    Uncovered limit front w r := by
  refine fun _ => ⟨fun _ => hzero, fun past' live' hpast hwhole d hd hsame => ?_⟩
  obtain rfl : past' = past := hpast.unique hfront
  obtain rfl : live' = live := List.append_cancel_left (hwhole.unique hwritten)
  have hmem := (List.mem_filter.mp ((Lib.latest_sublist _ _).subset hd)).1
  rcases List.mem_append.mp hmem with hold | hlive
  · exact absurd hsame (hnovel d hold)
  · exact hlive

end Run

/-- The decisions on the storage are `past`, which a snapshot covered at the latest boot, and
    `live`, which the accounts recall; no recent one is applied under the attempt of another. -/
structure Aware (limit : Nat) (front : List JournalRecord) (w : Deployment J)
    (past live : List DurableAttempt) : Prop where
  booted : Chronicle front past
  holds : Holds (Observed J) limit (past ++ live) live w.disk
  spent : UsedOnce limit (past ++ live)
  recalled : w.engine.journalFailed = false → AllRecall limit (front ≠ []) w.engine.accounts live

section Step

variable {past live : List DurableAttempt} {n : Nat}

omit [Journal J] in
/-- The history is a chronicle of what was written. -/
theorem Aware.whole (h : Aware limit front w past live) :
    Chronicle w.disk.written (past ++ live) := by
  obtain ⟨past', recent, hretains, heq, -⟩ := h.holds
  rw [← heq]
  exact hretains.whole

omit [Journal J] in
/-- What an uncovered request adds. -/
theorem Aware.adds (h : Aware limit front w past live) {r : CreditRequest}
    (hr : Uncovered limit front w r) {ds' live' : List DurableAttempt}
    (hadds : Adds limit w.engine.accounts r (past ++ live) live ds' live') :
    ds' = past ++ live' ∧ UsedOnce limit ds' := by
  cases hadds with
  | none => exact ⟨rfl, h.spent⟩
  | one x account attempt due novel =>
    refine ⟨List.append_assoc _ _ _, h.spent.concat fun d hd hsame => ?_⟩
    rw [account] at hd
    rw [attempt] at hsame
    have hlive := (hr due).2 past live h.booted h.whole d hd hsame
    -- a recent decision of `live` has another attempt
    have hon : d ∈ decisionsOn r.authority.account live := by
      have hmem := (Lib.latest_sublist _ _).subset hd
      exact List.mem_filter.mpr ⟨hlive, (List.mem_filter.mp hmem).2⟩
    rw [decisionsOn_append] at hd
    exact novel d (Lib.mem_latest_of_mem hd hon) hsame

/-- What a crash leaves of a deployment. -/
theorem Aware.crashed (hlimit : 1 ≤ limit) (hn : n < 2 ^ 60) (hkept : Kept (fun _ => True) n w)
    (hfits : w.engine.limits.maxAttemptWindow = limit) (h : Aware limit front w past live)
    {disk : Disk} (hcrash : w.CrashesWhere (fun _ r => Uncovered limit front w r) disk) :
    ∃ past' recent, Retains (Observed J) limit disk past' recent ∧
      UsedOnce limit (past' ++ recent) := by
  have hheld : ∀ {ds' live' : List DurableAttempt} {d : Disk}, UsedOnce limit ds' →
      Holds (Observed J) limit ds' live' d → ∃ past' recent,
        Retains (Observed J) limit d past' recent ∧ UsedOnce limit (past' ++ recent) := by
    rintro ds' live' d hspent ⟨past', recent, hretains, rfl, -⟩
    exact ⟨past', recent, hretains, hspent⟩
  obtain ⟨done, hdisk, hdone⟩ := hcrash
  cases hfailed : w.engine.journalFailed with
  | true =>
    have hnone : done = [] := by
      rcases hdone with ⟨r, -, hprefix⟩ | hprefix
      · rw [(events_of_failed hfailed r).1] at hprefix
        exact List.prefix_nil.mp hprefix
      · rw [(events_of_failed hfailed {}).2.2] at hprefix
        exact List.prefix_nil.mp hprefix
    rw [hnone, Disk.mem_afterAll_nil] at hdisk
    rw [hdisk]
    exact hheld h.spent h.holds
  | false =>
    obtain ⟨hlevel, hbound⟩ := hkept.level hfailed
    rcases hdone with ⟨r, hmeets, hprefix⟩ | hprefix
    · obtain ⟨evs, hlog, hthrough⟩ := apply_retains w.engine r hlimit hfits hkept.standing
        hkept.windowed h.holds hlevel rfl (by omega) (h.recalled hfailed)
        fun hvague hdue => (hmeets hdue).1 hvague
      rw [events_of_append hlog] at hprefix
      obtain ⟨ds', live', hadds, hholds⟩ := hthrough.always.of_prefix hprefix hdisk
      exact hheld (h.adds hmeets hadds).2 hholds
    · obtain ⟨evs, hlog, hthrough⟩ := snapshot_retains w.engine hlimit hkept.standing
        hkept.windowed h.holds hlevel.behind rfl
      rw [events_of_append hlog] at hprefix
      exact hheld h.spent (hthrough.always.of_prefix hprefix hdisk)

/-- **Step lemma.** -/
theorem Aware.step (hlimit : 1 ≤ limit) (hn : n < 2 ^ 60) (hkept : Kept (fun _ => True) n w)
    (hfits : w.engine.limits.maxAttemptWindow = limit) (h : Aware limit front w past live)
    {act : Act} (hstep : Step w act w')
    (hmeets : w.Meets (fun _ r => Uncovered limit front w r) act w')
    (hfits' : w'.engine.limits.maxAttemptWindow = limit) :
    ∃ past' live', Aware limit (coveredBehind front act w') w' past' live' := by
  cases hstep with
  | called r disk durable =>
    have hnext : ∀ {ds' live' : List DurableAttempt},
        Adds limit w.engine.accounts r (past ++ live) live ds' live' →
        Holds (Observed J) limit ds' live' disk →
        ((w.engine.apply r).2.journalFailed = false →
          AllRecall limit (front ≠ []) (w.engine.apply r).2.accounts live') →
        ∃ past' live', Aware limit front ⟨(w.engine.apply r).2, disk,
          w.calls ++ [(r, (w.engine.apply r).1)]⟩ past' live' := by
      intro ds' live' hadds hholds hrecall
      obtain ⟨rfl, hspent⟩ := h.adds hmeets hadds
      exact ⟨past, live', h.booted, hholds, hspent, hrecall⟩
    cases hfailed : w.engine.journalFailed with
    | true =>
      rw [(events_of_failed hfailed r).1, Disk.mem_afterAll_nil] at durable
      refine hnext .none (durable ▸ h.holds) fun hhealthy => ?_
      rw [journalFailed_apply hfailed] at hhealthy
      exact absurd (hfailed.symm.trans hhealthy) (by decide)
    | false =>
      obtain ⟨hlevel, hbound⟩ := hkept.level hfailed
      obtain ⟨evs, hlog, hthrough⟩ := apply_retains w.engine r hlimit hfits hkept.standing
        hkept.windowed h.holds hlevel rfl (by omega) (h.recalled hfailed)
        fun hvague hdue => (hmeets hdue).1 hvague
      rw [events_of_append hlog] at durable
      cases hlatched : (w.engine.apply r).2.journalFailed with
      | false =>
        obtain ⟨ds', live', hadds, hholds, hrecall⟩ := hthrough.after disk durable hlatched
        exact hnext hadds hholds fun _ => hrecall
      | true =>
        -- the storage may be one decision ahead
        obtain ⟨ds', live', hadds, hholds⟩ :=
          hthrough.always.of_prefix (List.prefix_refl evs) durable
        exact hnext hadds hholds fun hhealthy => absurd (hlatched.symm.trans hhealthy) (by decide)
  | snapshotted disk durable =>
    cases hfailed : w.engine.journalFailed with
    | true =>
      obtain ⟨-, hsame, hnone⟩ := events_of_failed hfailed {}
      rw [hnone, Disk.mem_afterAll_nil] at durable
      rw [durable, hsame]
      exact ⟨past, live, h.booted, h.holds, h.spent, h.recalled⟩
    | false =>
      obtain ⟨hlevel, -⟩ := hkept.level hfailed
      obtain ⟨evs, hlog, hthrough⟩ := snapshot_retains w.engine hlimit hkept.standing
        hkept.windowed h.holds hlevel.behind rfl
      rw [events_of_append hlog] at durable
      refine ⟨past, live, h.booted, hthrough.after disk durable, h.spent, fun _ => ?_⟩
      show AllRecall limit (front ≠ []) w.engine.snapshot.2.accounts live
      rw [(snapshot_sameLedger w.engine).accounts]
      exact h.recalled hfailed
  | restarted limits journal operator nonce disk o' crash addressable yields ok =>
    obtain ⟨past', recent, hretains, hspent⟩ := h.crashed hlimit hn hkept hfits hmeets
    obtain ⟨q, hq, haccounts, -, hlimits⟩ := recover_recovers addressable yields ok
    refine ⟨past', recent, hretains.front, ⟨past', recent, hretains, rfl, List.suffix_refl _⟩,
      hspent, fun _ => ?_⟩
    have hrecall := hretains.recalls q hq (by rw [← hlimits]; exact hfits')
    show AllRecall limit _ (make limits (Observed.mk journal []) operator nonce).recover.2.accounts
      recent
    rw [haccounts]
    exact hrecall.forgotten

end Step

/-- **Run lemma.** -/
theorem RunUncovered.aware {limits : EngineLimits} {journal : J} {operator : Incarnation}
    {nonce : Digest128} (hlimit : 1 ≤ limit)
    (hrun : RunUncovered limit (start limits journal operator nonce) front acts w)
    (hlength : acts.length ≤ 2 ^ 60) : ∃ past live, Aware limit front w past live := by
  induction hrun with
  | nil here =>
    refine ⟨[], [], chronicle_nil, ⟨[], [], .empty, rfl, List.suffix_refl _⟩, usedOnce_nil limit,
      fun _ => ⟨fun _ _ => rfl, fun _ _ ha => absurd ha (by simp [start, make])⟩⟩
  | @concat front acts act w₁ w₂ run step _ meets here ih =>
    rw [List.length_append, List.length_singleton] at hlength
    obtain ⟨past, live, h⟩ := ih (by omega)
    exact h.step hlimit (by omega) (run.run.kept (by omega)) run.here step meets here

/-- **An attempt is spent once.**  In every run of calls, snapshots that returned Ok and restarts,
    each of which recovers, with one window limit, and in which no attempt is presented whose
    decision is a recent one on the account that was covered by a snapshot when the engine was
    booted: the
    Attempt records that were ever durable are decisions, and none is applied under the attempt of
    an applied one that is among the latest decisions on the account when it is presented. -/
theorem spent_once {limits : EngineLimits} {journal : J} {operator : Incarnation}
    {nonce : Digest128}
    (hrun : RunUncovered limits.clamp.maxAttemptWindow (start limits journal operator nonce) front
      acts w) (hlength : acts.length ≤ 2 ^ 60) :
    (∃ ds, Chronicle w.disk.written ds) ∧
      ∀ ds, Chronicle w.disk.written ds → UsedOnce limits.clamp.maxAttemptWindow ds := by
  obtain ⟨past, live, h⟩ := hrun.aware (clamp_clamped limits).window hlength
  refine ⟨⟨_, h.whole⟩, fun ds hds => ?_⟩
  rw [hds.unique h.whole]
  exact h.spent

end Deployment

/-! ### An attempt that is applied twice -/

namespace TwiceIssued

open CreditEngine Fixture

/-- The nonce of the first boot. -/
def nonce : Digest128 := ⟨0x51, 0x15⟩

/-- The nonce of the second boot. -/
def later : Digest128 := ⟨0x52, 0x25⟩

/-- A window of four places. -/
def limits : EngineLimits := { maxAttemptWindow := 4 }

/-- The engine of the first boot. -/
def booted : CreditEngine (Observed InMemoryJournal) := Fixture.boot limits ⟨{}, []⟩ nonce

/-- The engine behind its Open. -/
def opened : CreditEngine (Observed InMemoryJournal) :=
  booted.run [request nonce me .open_ 1]

/-- The engine behind its Issue. -/
def issued : CreditEngine (Observed InMemoryJournal) :=
  opened.run [request nonce me .issue 2]

/-- The engine behind its snapshot. -/
def saved : CreditEngine (Observed InMemoryJournal) := issued.saved

/-- What the Open leaves on the storage. -/
def one : Disk := ((({} : Disk).afterAll (Deployment.events booted opened)).head?).getD {}

/-- The storage behind the Issue. -/
def two : Disk := ((one.afterAll (Deployment.events opened issued)).head?).getD {}

/-- What the snapshot leaves, with both decisions in the image. -/
def three : Disk := ((two.afterAll (Deployment.events issued saved)).head?).getD {}

/-- The engine that restores the image. -/
def again : CreditEngine (Observed InMemoryJournal) :=
  Fixture.boot limits ⟨three.inMemory, []⟩ later

/-- The engine of the second boot behind its Reconcile. -/
def reconciled : CreditEngine (Observed InMemoryJournal) :=
  again.run [request later me .reconcile 3]

/-- The attempt of the Issue, under the next sequence number. -/
def repeated : CreditRequest :=
  { request later me .issue 4 with attempt := (request nonce me .issue 2).attempt }

/-- The engine behind an Issue with the id of the first. -/
def reissued : CreditEngine (Observed InMemoryJournal) := reconciled.run [repeated]

/-- The storage behind the Reconcile. -/
def four : Disk := ((three.afterAll (Deployment.events again reconciled)).head?).getD {}

/-- The storage behind the second Issue. -/
def five : Disk := ((four.afterAll (Deployment.events reconciled reissued)).head?).getD {}

/-- What an Attempt record says. -/
def said (t : JournalRecord) : DurableAttempt :=
  ((decodeDurableAttempt t.payload).toOption).getD {}

/-- The payload is the encoding of what it says. -/
def Says (t : JournalRecord) : Prop :=
  t.payload = encodeDurableAttempt (said t) ∧ (said t).noteless = said t ∧
    (said t).hasAccount = true ∧ (said t).outcome.view.quarantined = (said t).outcome.view.stale ∧
    ((said t).createdAccount = true → (said t).outcome.applied = true) ∧
    (said t).account.incarnations = [] ∧ (said t).account.fences = [] ∧
    (said t).account.ambiguous = [] ∧ (said t).account.attemptWindow = []

instance (t : JournalRecord) : Decidable (Says t) := inferInstanceAs (Decidable (_ ∧ _))

/-- A log whose records all say a decision is a chronicle. -/
theorem chronicle_of_says {recs : List JournalRecord} (h : ∀ t ∈ attemptsOf recs, Says t) :
    Chronicle recs ((attemptsOf recs).map said) := by
  refine List.forall₂_map_right_iff.mpr (List.forall₂_same.mpr fun t ht => ?_)
  obtain ⟨hpayload, hnoteless, hhas, hview, hcreated, hinc, hfences, hnotes, hwindow⟩ := h t ht
  exact ⟨said t, ⟨hhas, hview, hcreated, hinc, hfences, hnotes, hwindow⟩, hpayload, hnoteless⟩

/-- The last decision of the run, and the ones before it. -/
def last : DurableAttempt := (((attemptsOf five.written).map said).getLast?).getD {}

/-- What was decided in front of the last Issue. -/
def before : List DurableAttempt := ((attemptsOf five.written).map said).dropLast

/-- An Issue under an attempt of its own. -/
def renewed : CreditEngine (Observed InMemoryJournal) :=
  reconciled.run [request later me .issue 4]

/-- The storage behind an Issue with a new id. -/
def six : Disk := ((four.afterAll (Deployment.events reconciled renewed)).head?).getD {}

/-- The decisions that the snapshot covers. -/
def past : List DurableAttempt := (attemptsOf (covered three.written)).map said

/-- The run, evaluated once. -/
theorem evaluated :
    (one ∈ ({} : Disk).afterAll (Deployment.events booted opened) ∧
      two ∈ one.afterAll (Deployment.events opened issued) ∧
      three ∈ two.afterAll (Deployment.events issued saved) ∧
      four ∈ three.afterAll (Deployment.events again reconciled) ∧
      five ∈ four.afterAll (Deployment.events reconciled reissued) ∧
      six ∈ four.afterAll (Deployment.events reconciled renewed)) ∧
    (three.records.all (fun t => t.payload.length < 2 ^ 64) = true ∧
      three.snapshot.all (fun i => i.payload.length < 2 ^ 64) = true ∧
      (make limits (Observed.mk three.inMemory []) me later).recover.1.ok = true ∧
      issued.snapshot.1.ok = true) ∧
    (booted.limits.maxAttemptWindow = 4 ∧ opened.limits.maxAttemptWindow = 4 ∧
      issued.limits.maxAttemptWindow = 4 ∧ saved.limits.maxAttemptWindow = 4 ∧
      again.limits.maxAttemptWindow = 4 ∧ reconciled.limits.maxAttemptWindow = 4 ∧
      reissued.limits.maxAttemptWindow = 4 ∧ renewed.limits.maxAttemptWindow = 4) := by
  decide +kernel

/-- What the storage says behind the runs, evaluated once. -/
theorem evaluated_log :
    ((∀ t ∈ attemptsOf five.written, Says t) ∧ (∀ t ∈ attemptsOf six.written, Says t) ∧
      (∀ t ∈ attemptsOf (covered three.written), Says t) ∧
      (∀ t ∈ attemptsOf three.written, Says t) ∧ ∀ t ∈ attemptsOf four.written, Says t) ∧
    ((attemptsOf five.written).map said = before ++ [last] ∧ last.outcome.applied = true ∧
      ∃ d ∈ latest 4 (decisionsOn last.request.authority.account before),
        d.outcome.applied = true ∧ d.request.attempt = last.request.attempt) ∧
    ((attemptsOf three.written).map said = past ∧
      (attemptsOf four.written).map said = past ++ ((attemptsOf four.written).map said).drop 2 ∧
      (∀ d ∈ past, d.request.attempt ≠ (request later me .reconcile 3).attempt ∧
        d.request.attempt ≠ (request later me .issue 4).attempt) ∧
      ((attemptsOf six.written).map said).map (fun d => (d.request.op, d.outcome.applied)) =
        [(.open_, true), (.issue, true), (.reconcile, true), (.issue, true)]) := by
  decide +kernel

/-- The first boot, over an empty log. -/
private theorem first_boot
    (C : List JournalRecord → Deployment InMemoryJournal → CreditRequest → Prop) :
    ∃ w, Deployment.RunCovering 4 C (Deployment.start limits ({} : InMemoryJournal) me nonce) []
      [.restart] w ∧ w.disk = {} ∧ w.engine = booted := by
  have hstart : (Deployment.start limits ({} : InMemoryJournal) me
      nonce).engine.limits.maxAttemptWindow = 4 := rfl
  obtain ⟨w, hstep, hdisk, hengine⟩ := Deployment.exists_first limits nonce
  have hbooted : w.engine = booted := hengine
  have hrun : Deployment.RunCovering 4 C (Deployment.start limits ({} : InMemoryJournal) me nonce)
      (covered w.disk.written) [.restart] w := by
    refine .concat (.nil hstart) hstep nofun ⟨[], ?_, .inr List.nil_prefix⟩ ?_
    · exact Disk.mem_afterAll_nil.mpr hdisk
    · rw [hbooted, evaluated.2.2.1]
  have hnone : covered w.disk.written = [] := by
    rw [hdisk]
    rfl
  rw [hnone] at hrun
  exact ⟨w, hrun, hdisk, hbooted⟩

/-- Two boots: an Open, an Issue and a snapshot in the first one, a Reconcile in the second. -/
theorem second_boot
    (C : List JournalRecord → Deployment InMemoryJournal → CreditRequest → Prop)
    (hfirst : ∀ w r, C [] w r)
    (hreconcile : ∀ w, w.disk = three →
      C (covered three.written) w (request later me .reconcile 3)) :
    ∃ w, Deployment.RunCovering 4 C (Deployment.start limits ({} : InMemoryJournal) me nonce)
      (covered three.written) [.restart, .call (request nonce me .open_ 1),
        .call (request nonce me .issue 2), .snapshot, .restart,
        .call (request later me .reconcile 3)] w ∧ w.disk = four ∧ w.engine = reconciled := by
  obtain ⟨⟨hone, htwo, hthree, hfour, -⟩, ⟨hsmall, himage, hok, hsaved_ok⟩, -, hopened₄, hissued₄,
    hsaved₄, hagain₄, hreconciled₄, -⟩ := evaluated
  -- the six steps, with the engine and the disk behind each
  obtain ⟨w₁, hboot, hdisk₁, hbooted⟩ := first_boot C
  obtain ⟨w₂, hopen, hopened, hdisk₂⟩ := Deployment.exists_call hbooted hdisk₁
    (request nonce me .open_ 1) one hone rfl
  obtain ⟨w₃, hissue, hissued, hdisk₃⟩ := Deployment.exists_call hopened hdisk₂
    (request nonce me .issue 2) two htwo rfl
  obtain ⟨w₄, hsnapshot, hsaved, hdisk₄⟩ :=
    Deployment.exists_snapshot hissued hdisk₃ three hthree rfl
  have hanswered : w₃.Answered .snapshot := by
    intro _
    rw [hissued]
    exact hsaved_ok
  have hnothing : three ∈ w₄.disk.afterAll [] := Disk.mem_afterAll_nil.mpr hdisk₄.symm
  obtain ⟨w₅, hrestart, hdisk₅, hengine₅⟩ := Deployment.exists_restart limits later
    ⟨[], hnothing, .inr List.nil_prefix⟩ (Disk.addressable_of_small hsmall himage) hok
  have hagain : w₅.engine = again := hengine₅
  obtain ⟨w₆, hreconciles, hreconciled, hdisk₆⟩ := Deployment.exists_call hagain hdisk₅
    (request later me .reconcile 3) four hfour rfl
  -- each meets the condition of the run
  have hrun₃ := (hboot.concat hopen nofun (hfirst _ _) (by rw [hopened, hopened₄])).concat hissue
    nofun (hfirst _ _) (by rw [hissued, hissued₄])
  have hrun₄ := hrun₃.concat hsnapshot hanswered trivial (by rw [hsaved, hsaved₄])
  have hrun₅ := hrun₄.concat hrestart nofun
    ⟨[], by rw [hdisk₅]; exact hnothing, .inr List.nil_prefix⟩ (by rw [hagain, hagain₄])
  rw [Deployment.coveredBehind_restart, hdisk₅] at hrun₅
  have hrun₆ := hrun₅.concat hreconciles nofun (hreconcile _ hdisk₅)
    (by rw [hreconciled, hreconciled₄])
  rw [Deployment.coveredBehind_call] at hrun₆
  exact ⟨w₆, hrun₆, hdisk₆, hreconciled⟩

/-- Behind a snapshot and a restart each attempt is its own: four decisions are applied, and no
    two of them under one attempt. -/
theorem first_spent : ∃ w front acts ds,
    Deployment.RunUncovered limits.clamp.maxAttemptWindow
      (Deployment.start limits ({} : InMemoryJournal) me nonce) front acts w ∧ acts.length = 7 ∧
    Chronicle w.disk.written ds ∧ ds.map (fun d => (d.request.op, d.outcome.applied)) =
      [(.open_, true), (.issue, true), (.reconcile, true), (.issue, true)] ∧ UsedOnce 4 ds := by
  obtain ⟨⟨-, -, -, -, -, hsix⟩, -, -, -, -, -, -, -, -, hrenewed₄⟩ := evaluated
  obtain ⟨⟨-, hsays₆, hsaysfront, hsays₃, hsays₄⟩, -, hpast₃, hpast₄, hnovel, hdecisions⟩ :=
    evaluated_log
  have hfront : Chronicle (covered three.written) past := chronicle_of_says hsaysfront
  have hchronicle₃ := chronicle_of_says hsays₃
  rw [hpast₃, ← List.append_nil past] at hchronicle₃
  have hchronicle₄ := chronicle_of_says hsays₄
  rw [hpast₄] at hchronicle₄
  obtain ⟨w, hrun, hdisk, hreconciled⟩ := second_boot (Deployment.Uncovered 4)
    (fun w r => Deployment.uncovered_nil 4 w r) fun w hdisk =>
      Deployment.uncovered_of_novel hfront (by rw [hdisk]; exact hchronicle₃) (by decide)
        fun d hd => (hnovel d hd).1
  obtain ⟨w', hissue, hrenewed, hdisk'⟩ := Deployment.exists_call hreconciled hdisk
    (request later me .issue 4) six hsix rfl
  have hrun' : Deployment.RunUncovered limits.clamp.maxAttemptWindow
      (Deployment.start limits ({} : InMemoryJournal) me nonce) _ _ w' := hrun.concat hissue nofun
    (Deployment.uncovered_of_novel hfront (by rw [hdisk]; exact hchronicle₄) (by decide)
      fun d hd => (hnovel d hd).2) (by rw [hrenewed, hrenewed₄])
  refine ⟨w', _, _, (attemptsOf six.written).map said, hrun', rfl, ?_, hdecisions, ?_⟩
  · rw [hdisk']
    exact chronicle_of_says hsays₆
  · refine (Deployment.spent_once hrun' (by decide)).2 _ ?_
    rw [hdisk']
    exact chronicle_of_says hsays₆

/-- The Issue is applied twice under one attempt. -/
theorem attempt_repeated : ¬ ∀ (limits : EngineLimits) (journal : InMemoryJournal)
    (operator : Incarnation) (nonce : Digest128) (front : List JournalRecord)
    (acts : List Deployment.Act) (w : Deployment InMemoryJournal),
    Deployment.RunCovering limits.clamp.maxAttemptWindow (fun _ _ _ => True)
      (Deployment.start limits journal operator nonce) front acts w →
    ∀ ds, Chronicle w.disk.written ds → UsedOnce limits.clamp.maxAttemptWindow ds := by
  intro hclaim
  obtain ⟨⟨-, -, -, -, hfive, -⟩, -, -, -, -, -, -, -, hreissued₄, -⟩ := evaluated
  obtain ⟨w, hrun, hdisk, hreconciled⟩ := second_boot (fun _ _ _ => True) (fun _ _ => trivial)
    fun _ _ => trivial
  obtain ⟨w', hrepeat, hreissued, hdisk'⟩ := Deployment.exists_call hreconciled hdisk
    repeated five hfive rfl
  have hrun' := hrun.concat hrepeat nofun trivial (by rw [hreissued, hreissued₄])
  obtain ⟨⟨hsays₅, -⟩, ⟨hsplit, happlied, d, hd, hbefore, hsame⟩, -⟩ := evaluated_log
  have hchronicle : Chronicle w'.disk.written (before ++ [last]) := by
    rw [hdisk', ← hsplit]
    exact chronicle_of_says hsays₅
  exact hclaim limits {} me nonce _ _ w' hrun' _ hchronicle before last [] rfl happlied d hd hbefore
    hsame

end TwiceIssued

end CreditFabric
