import CreditFabric.Lineage

namespace CreditFabric

open Std (ExtTreeMap)

/-!
# Invariants of the accounts over many boots

A deployment has two copies of its accounts: those in memory and those its storage reflects.
A failed journal call parts them, and the next restart installs what the storage has.

* `Grown`: eras and fence lists only ever grow, from the accounts in memory to those on the
  storage and from each boot to the next.
* `Tracked C I`: the invariant `I` is kept by everything a call that meets `C` leads to, and
  the accounts a recovery installs inherit it.
* `RunWhere.kept`: a tracked invariant holds of both copies in every state of a run.
-/

/-! ### Growth -/

/-- The era and the fences of `b` continue those of `a`. -/
structure AccountState.Precedes (a b : AccountState) : Prop where
  epoch : a.epoch.toNat ≤ b.epoch.toNat
  generation : a.generation.toNat ≤ b.generation.toNat
  fences : a.fences <+: b.fences

/-- An account with the same era and fences follows. -/
theorem AccountState.Precedes.of_same {a b : AccountState} (hepoch : b.epoch = a.epoch)
    (hgeneration : b.generation = a.generation) (hfences : b.fences = a.fences) :
    a.Precedes b := by
  refine ⟨by rw [hepoch], by rw [hgeneration], ?_⟩
  exact hfences ▸ List.prefix_rfl

/-- What follows what follows, follows. -/
theorem AccountState.Precedes.trans {a b c : AccountState} (h : a.Precedes b)
    (h' : b.Precedes c) : a.Precedes c :=
  ⟨h.epoch.trans h'.epoch, h.generation.trans h'.generation, h.fences.trans h'.fences⟩

/-- Every account of `m` is there in `m'`, with an era and fences that continue its own. -/
def Grown (m m' : ExtTreeMap UInt64 AccountState) : Prop :=
  ∀ (key : UInt64) (a : AccountState), m[key]? = some a → ∃ b, m'[key]? = some b ∧ a.Precedes b

section Grown

variable {m m' m'' : ExtTreeMap UInt64 AccountState} {key : UInt64} {a b : AccountState}

/-- A table grows to itself. -/
theorem Grown.refl (m : ExtTreeMap UInt64 AccountState) : Grown m m :=
  fun _ a ha => ⟨a, ha, .of_same rfl rfl rfl⟩

/-- Growth composes. -/
theorem Grown.trans (h : Grown m m') (h' : Grown m' m'') : Grown m m'' := by
  intro key a ha
  obtain ⟨b, hb, hab⟩ := h key a ha
  obtain ⟨c, hc, hbc⟩ := h' key b hb
  exact ⟨c, hc, hab.trans hbc⟩

/-- One account moves on. -/
theorem Grown.insert (ha : m[key]? = some a) (hab : a.Precedes b) :
    Grown m (m.insert key b) := by
  intro key' a' ha'
  by_cases hkey : key' = key
  · rw [hkey, ha, Option.some.injEq] at ha'
    subst ha'
    exact ⟨b, by rw [hkey, ExtTreeMap.getElem?_insert_self], hab⟩
  · exact ⟨a', by rw [Lib.getElem?_insert_of_ne _ _ hkey, ha'], .of_same rfl rfl rfl⟩

/-- An account is added. -/
theorem Grown.insert_new (hnone : m[key]? = none) : Grown m (m.insert key b) := by
  intro key' a' ha'
  refine ⟨a', ?_, .of_same rfl rfl rfl⟩
  rw [Lib.getElem?_insert_of_ne _ _ ?_, ha']
  rintro rfl
  rw [hnone] at ha'
  exact absurd ha' (by simp)

end Grown

namespace CreditEngine

variable {J : Type}

/-- An advance that is carried through moves to a later epoch and to the next generation. -/
theorem decision_advance {e : CreditEngine J} {a a' : AccountState} {r : CreditRequest}
    (h : e.decision a r = .proceed a') (hop : r.op = .advanceEpoch ∨ r.op = .rotate) :
    a.epoch.toNat < (nextEpoch a r).toNat ∧
      (a.generation + 1).toNat = a.generation.toNat + 1 := by
  have hdecision : e.decision a r = decideControl e.limits a r := by
    unfold decision
    rcases hop with hop | hop <;> rw [hop] <;> rfl
  -- a sum that is not below its first summand has not wrapped
  have hnowrap : ∀ x : UInt64, ¬ x + 1 < x → (x + 1).toNat = x.toNat + 1 := by
    intro x hx
    refine toNat_add_one ?_
    by_contra hge
    exact hx (by simpa [addOverflow] using addOverflow_of_ge (a := x) (b := 1) (by
      show 2 ^ 64 ≤ x.toNat + 1
      omega))
  rw [hdecision] at h
  unfold decideControl at h
  rcases hop with hop | hop <;> rw [hop] at h
  · simp only [addOverflow, reduceCtorEq, if_false, false_and, decide_eq_true_eq] at h
    split_ifs at h with hepoch hgeneration
    have hnext : nextEpoch a r = a.epoch + 1 := by simp [nextEpoch, hop]
    rw [hnext, hnowrap _ hepoch]
    exact ⟨Nat.lt_succ_self _, hnowrap _ hgeneration⟩
  · simp only [addOverflow, if_true, true_and, Bool.false_eq_true, if_false,
      decide_eq_true_eq] at h
    split_ifs at h with hepoch hgeneration
    have hnext : nextEpoch a r = r.count := by simp [nextEpoch, hop]
    rw [hnext]
    exact ⟨UInt64.lt_iff_toNat_lt.mp (by simpa using hepoch), hnowrap _ hgeneration⟩

/-- No decision takes an era or a fence back. -/
theorem decision_precedes (e : CreditEngine J) (a : AccountState) (r : CreditRequest) :
    a.Precedes (e.decision a r).account := by
  have hheader := decision_header e a r
  cases hd : e.decision a r with
  | reject s a' =>
    rw [hd] at hheader
    cases hheader with
    | kept _ epoch generation fences => exact .of_same epoch generation fences
  | refuse s a' =>
    rw [hd] at hheader
    cases hheader with
    | kept _ epoch generation fences => exact .of_same epoch generation fences
  | proceed a' =>
    rw [hd] at hheader
    cases hheader with
    | kept _ epoch generation fences => exact .of_same epoch generation fences
    -- an advance raises both numbers
    | advanced _ op epoch generation fences =>
      obtain ⟨hepoch, hgeneration⟩ := decision_advance hd op
      refine ⟨?_, ?_, ?_⟩
      · show a.epoch.toNat ≤ a'.epoch.toNat
        rw [epoch]
        exact hepoch.le
      · show a.generation.toNat ≤ a'.generation.toNat
        rw [generation, hgeneration]
        exact Nat.le_succ _
      · show a.fences <+: a'.fences
        exact fences ▸ List.prefix_rfl
    -- a fence is appended
    | fenced _ op unfenced epoch generation fences =>
      refine ⟨?_, ?_, ?_⟩
      · show a.epoch.toNat ≤ a'.epoch.toNat
        rw [epoch]
      · show a.generation.toNat ≤ a'.generation.toNat
        rw [generation]
      · show a.fences <+: a'.fences
        rw [fences]
        exact List.prefix_append _ _

variable [Journal J]

omit [Journal J] in
/-- Whatever a call leads to has grown. -/
theorem Leads.grown {e : CreditEngine J} {r : CreditRequest}
    {m : ExtTreeMap UInt64 AccountState} (h : Leads e r m) : Grown e.accounts m := by
  have hdecided : ∀ {a x : AccountState}, Admitted e r a →
      SameStanding (e.decision a r).account x → Grown e.accounts
        (e.accounts.insert r.authority.account x) := by
    intro a x hadmitted hsame
    exact .insert hadmitted.found ((decision_precedes e a r).trans
      (.of_same hsame.epoch hsame.generation hsame.fences))
  cases h with
  | same => exact .refl _
  | rejected a hadmitted s a' hd => exact hdecided hadmitted (by rw [hd]; exact .refl a')
  | opened hopens => exact .insert_new hopens.fresh.1
  | refused a hadmitted s a' hd =>
    exact hdecided hadmitted (by rw [hd]; exact refusedAccount_sameStanding _ _ _ _)
  | refusalUndone a hadmitted s a' hd => exact hdecided hadmitted (by rw [hd]; exact .refl a')
  | applied a hadmitted a' hd =>
    exact hdecided hadmitted (by rw [hd]; exact appliedAccount_sameStanding _ _ _)
  | undone a hadmitted a' hd =>
    obtain ⟨-, hepoch, hgeneration, hfences⟩ := restoredAccount_header hd
    exact .insert hadmitted.found (.of_same hepoch hgeneration hfences)

/-- The call that latches the journal has decided nothing. -/
theorem undecided_of_latched {e : CreditEngine J} {r : CreditRequest}
    (hhealthy : e.journalFailed = false) (h : (e.apply r).2.journalFailed = true) :
    (e.apply r).1.decided = false ∧ (e.apply r).1.applied = false := by
  have heffect := e.apply_effect r
  generalize e.apply r = result at h heffect ⊢
  obtain ⟨o, e'⟩ := result
  replace h : e'.journalFailed = true := h
  have hnever : ∀ {b : Bool} {P : Prop}, b = e.journalFailed → b = true → P := by
    intro b P heq htrue
    rw [htrue, hhealthy] at heq
    exact absurd heq (by decide)
  cases heffect with
  | answered => exact hnever rfl h
  | absorbed => exact hnever rfl h
  | rejected => exact hnever rfl h
  | opened => exact hnever (persistLocked_frame (e.opening r) _ _ _ _).journalFailed h
  | refused _ _ _ a' => exact hnever (persistLocked_frame (e.refusing r a') _ _ _ _).journalFailed h
  | applied _ _ a' => exact hnever (persistLocked_frame (e.applying r a') _ _ _ _).journalFailed h
  | failed _ _ _ hdecided happlied _ => exact ⟨hdecided, happlied⟩

/-- The call that latches the journal leaves every era and every fence as it was. -/
theorem grown_of_latched {e : CreditEngine J} {r : CreditRequest}
    (hhealthy : e.journalFailed = false) (h : (e.apply r).2.journalFailed = true) :
    Grown (e.apply r).2.accounts e.accounts := by
  obtain ⟨hdecided, hunapplied⟩ := undecided_of_latched hhealthy h
  -- what stayed in memory has the era and the fences from before
  have hkept : ∀ {a x : AccountState}, Admitted e r a → x.epoch = a.epoch →
      x.generation = a.generation → x.fences = a.fences →
      Grown (e.accounts.insert r.authority.account x) e.accounts := by
    intro a x hadmitted hepoch hgeneration hfences key y hy
    by_cases hkey : key = r.authority.account
    · rw [hkey, ExtTreeMap.getElem?_insert_self, Option.some.injEq] at hy
      subst hy
      rw [hkey]
      exact ⟨a, hadmitted.found, .of_same hepoch.symm hgeneration.symm hfences.symm⟩
    · rw [Lib.getElem?_insert_of_ne _ _ hkey] at hy
      exact ⟨y, hy, .of_same rfl rfl rfl⟩
  -- a failed call published nothing
  cases (apply_accounts e r).1 with
  | same _ accounts =>
    rw [accounts]
    exact .refl _
  | rejected a hadmitted s a' hd _ accounts =>
    have hheader := decision_header e a r
    rw [hd] at hheader
    rw [accounts]
    cases hheader with
    | kept _ epoch generation fences => exact hkept hadmitted epoch generation fences
  | opened hopens outcome =>
    rw [outcome] at hunapplied
    exact absurd (show true = false from hunapplied) (by decide)
  | refused a hadmitted s a' hd outcome =>
    rw [outcome] at hdecided
    exact absurd (show true = false from hdecided) (by decide)
  | refusalUndone a hadmitted s a' hd _ _ accounts =>
    obtain ⟨hepoch, hgeneration, hfences⟩ := decision_refuse_header hd
    rw [accounts]
    exact hkept hadmitted hepoch hgeneration hfences
  | applied a hadmitted a' hd outcome =>
    rw [outcome] at hunapplied
    exact absurd (show true = false from hunapplied) (by decide)
  | undone a hadmitted a' hd _ _ accounts =>
    obtain ⟨-, hepoch, hgeneration, hfences⟩ := restoredAccount_header hd
    rw [accounts]
    exact hkept hadmitted hepoch hgeneration hfences

/-! ### Tracked invariants -/

/-- The invariant `I` of the accounts is kept by every call that meets `C` and by every
    recovery. -/
structure Tracked (C : CreditEngine (Observed J) → CreditRequest → Prop)
    (I : ExtTreeMap UInt64 AccountState → Prop) : Prop where
  leads : ∀ (e : CreditEngine (Observed J)) (r : CreditRequest)
    (m : ExtTreeMap UInt64 AccountState), AllStanding e.accounts → AllWindowed e.accounts →
    C e r → I e.accounts → Leads e r m → I m
  recovers : ∀ P m : ExtTreeMap UInt64 AccountState, Reflects P m → I m →
    I (P.map fun _ (a : AccountState) => a.forgetLiveness)

omit [Journal J] in
/-- Nothing at all is tracked by every run. -/
theorem tracked_true : Tracked (J := J) (fun _ _ => True) fun _ => True :=
  ⟨fun _ _ _ _ _ _ _ _ => trivial, fun _ _ _ _ => trivial⟩

omit [Journal J] in
/-- What has grown out of the accounts `m₁` is tracked. -/
theorem tracked_grown (m₁ : ExtTreeMap UInt64 AccountState) :
    Tracked (J := J) (fun _ _ => True) (Grown m₁) := by
  refine ⟨fun e r m _ _ _ h hleads => h.trans hleads.grown, fun P m hreflects h key a ha => ?_⟩
  obtain ⟨b, hb, hab⟩ := h key a ha
  obtain ⟨p, hp, hmirrored⟩ := hreflects.mirrored key b hb
  refine ⟨p.forgetLiveness, ?_, hab.trans (.of_same ?_ ?_ ?_)⟩
  · rw [ExtTreeMap.getElem?_map, hp, Option.map_some]
  · exact hmirrored.shadow.epoch
  · exact hmirrored.shadow.generation
  · exact hmirrored.shadow.fences

omit [Journal J] in
/-- Two tracked invariants at once. -/
theorem Tracked.and {C : CreditEngine (Observed J) → CreditRequest → Prop}
    {I I' : ExtTreeMap UInt64 AccountState → Prop} (h : Tracked C I) (h' : Tracked C I') :
    Tracked C fun m => I m ∧ I' m :=
  ⟨fun e r m hstanding hwindowed hC hI hleads =>
    ⟨h.leads e r m hstanding hwindowed hC hI.1 hleads,
      h'.leads e r m hstanding hwindowed hC hI.2 hleads⟩,
    fun P m hreflects hI => ⟨h.recovers P m hreflects hI.1, h'.recovers P m hreflects hI.2⟩⟩

/-- A property of single accounts that every account keeps: behind an Open, behind a decision,
    behind its bookkeeping, behind a rollback and behind a recovery. -/
structure Steady (C : CreditEngine (Observed J) → CreditRequest → Prop)
    (Q : UInt64 → AccountState → Prop) : Prop where
  opened : ∀ (e : CreditEngine (Observed J)) (r : CreditRequest), Opens e r → C e r →
    Q r.authority.account (openedAccount e.limits r)
  decided : ∀ (e : CreditEngine (Observed J)) (r : CreditRequest) (a : AccountState),
    Admitted e r a → C e r → Standing r.authority.account a → Q r.authority.account a →
    Q r.authority.account (e.decision a r).account
  counted : ∀ (key : UInt64) (a x : AccountState), SameStanding a x → Q key a → Q key x
  undone : ∀ (e : CreditEngine (Observed J)) (r : CreditRequest) (a a' : AccountState),
    Admitted e r a → C e r → e.decision a r = .proceed a' → Standing r.authority.account a →
    Q r.authority.account a → Q r.authority.account (restoredAccount a r a')
  recovered : ∀ (key : UInt64) (p a : AccountState), Mirrored key p a → Q key a →
    Q key p.forgetLiveness

/-- The property holds of every account. -/
def Everywhere (Q : UInt64 → AccountState → Prop) (m : ExtTreeMap UInt64 AccountState) : Prop :=
  ∀ (key : UInt64) (a : AccountState), m[key]? = some a → Q key a

/-- A property of every account holds when it does of the one that was put. -/
theorem Everywhere.insert {Q : UInt64 → AccountState → Prop}
    {m : ExtTreeMap UInt64 AccountState} (h : Everywhere Q m) {key : UInt64} {x : AccountState}
    (hx : Q key x) : Everywhere Q (m.insert key x) := by
  intro key' a ha
  by_cases hkey : key' = key
  · rw [hkey, ExtTreeMap.getElem?_insert_self, Option.some.injEq] at ha
    rw [hkey, ← ha]
    exact hx
  · rw [Lib.getElem?_insert_of_ne _ _ hkey] at ha
    exact h key' a ha

omit [Journal J] in
/-- **Rule for single accounts.** -/
theorem Steady.tracked {C : CreditEngine (Observed J) → CreditRequest → Prop}
    {Q : UInt64 → AccountState → Prop} (h : Steady C Q) : Tracked C (Everywhere Q) := by
  refine ⟨fun e r m hstanding _ hC hQ hleads => ?_, fun P m hreflects hQ key x hx => ?_⟩
  · have hdecided : ∀ {a x : AccountState}, Admitted e r a →
        SameStanding (e.decision a r).account x →
        Everywhere Q (e.accounts.insert r.authority.account x) := by
      intro a x hadmitted hsame
      refine hQ.insert (h.counted _ _ x hsame ?_)
      exact h.decided e r a hadmitted hC (hstanding _ a hadmitted.found) (hQ _ a hadmitted.found)
    cases hleads with
    | same => exact hQ
    | rejected a hadmitted s a' hd => exact hdecided hadmitted (by rw [hd]; exact .refl a')
    | opened hopens =>
      exact hQ.insert (h.counted _ _ _ (publishWindow_sameStanding _ _ _) (h.opened e r hopens hC))
    | refused a hadmitted s a' hd =>
      exact hdecided hadmitted (by rw [hd]; exact refusedAccount_sameStanding _ _ _ _)
    | refusalUndone a hadmitted s a' hd => exact hdecided hadmitted (by rw [hd]; exact .refl a')
    | applied a hadmitted a' hd =>
      exact hdecided hadmitted (by rw [hd]; exact appliedAccount_sameStanding _ _ _)
    | undone a hadmitted a' hd =>
      exact hQ.insert (h.undone e r a a' hadmitted hC hd (hstanding _ a hadmitted.found)
        (hQ _ a hadmitted.found))
  · rw [ExtTreeMap.getElem?_map, Option.map_eq_some_iff] at hx
    obtain ⟨p, hp, rfl⟩ := hx
    obtain ⟨a, ha, hmirrored⟩ := hreflects.found hp
    exact h.recovered key p a hmirrored (hQ key a ha)

end CreditEngine

/-! ### Storage in memory -/

/-- What a journal reads, it reads under observation. -/
theorem Reads.observed {J : Type} [Journal J] {j j' : J} {recs : List JournalRecord}
    (h : Reads j recs j') (log : List JournalEvent) :
    ∃ o', Reads (Observed.mk j log) recs o' ∧ o'.journal = j' := by
  induction h generalizing log with
  | @done j j' h =>
    have hend : Journal.nextRecord (Observed.mk j log) =
        (.success, none, ⟨j', log ++ [.read none .success]⟩) := by
      show Observed.noteValue _ _ (Journal.nextRecord _) = _
      rw [h]
      rfl
    exact ⟨_, .done hend, rfl⟩
  | @next j j₁ j' r recs h rest ih =>
    obtain ⟨o', hreads, ho'⟩ := ih (log ++ [.read (some r) .success])
    refine ⟨o', .next ?_ hreads, ho'⟩
    show Observed.noteValue _ _ (Journal.nextRecord _) = _
    rw [h]
    rfl

/-- Observing a journal does not change what it yields. -/
theorem Yields.observed {J : Type} [Journal J] {j j' : J} {snap : Option SnapshotImage}
    {recs : List JournalRecord} (h : Yields j snap recs j') (log : List JournalEvent) :
    ∃ o', Yields (Observed.mk j log) snap recs o' := by
  obtain ⟨j₁, j₂, j₃, j₄, hopen, hread, hbegin, hreads, hend⟩ := h
  obtain ⟨o₄, hreads', ho₄⟩ :=
    hreads.observed (log ++ [.opened .success, .loadedSnapshot snap .success,
      .replayBegun .success])
  refine ⟨⟨j', o₄.log ++ [.replayEnded .success]⟩, ⟨j₁, log ++ [.opened .success]⟩,
    ⟨j₂, log ++ [.opened .success, .loadedSnapshot snap .success]⟩, _, o₄, ?_, ?_, ?_, hreads', ?_⟩
  · show Observed.note _ _ (Journal.open_ _) = _
    rw [hopen]
    rfl
  · show Observed.noteValue _ _ (Journal.readSnapshot _) = _
    rw [hread]
    simp [Observed.noteValue]
  · show Observed.note _ _ (Journal.beginReplay _) = _
    rw [hbegin]
    simp [Observed.note]
  · show Observed.note _ _ (Journal.endReplay _) = _
    rw [ho₄, hend]
    rfl

/-- A journal in memory that holds the contents. -/
def Disk.inMemory (d : Disk) : InMemoryJournal where
  entries := d.records.map fun t => { record := t }
  snapshot := d.snapshot

/-- The in-memory journal yields what the disk holds. -/
theorem Disk.yields_inMemory (d : Disk) :
    ∃ o', Yields (Observed.mk d.inMemory []) d.snapshot d.records o' := by
  have hholds : LawfulJournal.Holds d.inMemory d.snapshot d.records := ⟨rfl, rfl⟩
  obtain ⟨j', hyields, -⟩ := LawfulJournal.holds_restart hholds
  exact hyields.observed []

namespace Deployment

open CreditEngine

variable {J : Type} [Journal J]

/-! ### Runs whose calls meet a condition -/

/-- A crash during one more snapshot, or one more call that meets `C`. -/
def CrashesWhere (C : CreditEngine (Observed J) → CreditRequest → Prop) (w : Deployment J)
    (disk : Disk) : Prop :=
  ∃ done, disk ∈ w.disk.afterAll done ∧
    ((∃ r, C w.engine r ∧ done <+: events w.engine (w.engine.apply r).2) ∨
      done <+: events w.engine w.engine.snapshot.2)

/-- The call of the step meets `C`, and so does the call a restart interrupts. -/
def Meets (C : CreditEngine (Observed J) → CreditRequest → Prop) (w : Deployment J) (act : Act)
    (w' : Deployment J) : Prop :=
  match act with
  | .call r => C w.engine r
  | .snapshot => True
  | .restart => w.CrashesWhere C w'.disk

/-- Any number of steps whose calls meet `C`. -/
inductive RunWhere (C : CreditEngine (Observed J) → CreditRequest → Prop) (w : Deployment J) :
    List Act → Deployment J → Prop
  | nil : RunWhere C w [] w
  | concat {acts : List Act} {act : Act} {w₁ w₂ : Deployment J} (run : RunWhere C w acts w₁)
      (step : Step w₁ act w₂) (meets : w₁.Meets C act w₂) : RunWhere C w (acts ++ [act]) w₂

/-- Every run is one whose calls meet no condition. -/
theorem Run.anywhere {w w' : Deployment J} {acts : List Act} (h : Run w acts w') :
    RunWhere (fun _ _ => True) w acts w' := by
  induction h with
  | nil => exact .nil
  | concat run step ih =>
    refine .concat ih step ?_
    cases step with
    | called => trivial
    | snapshotted => trivial
    | restarted limits journal operator nonce disk o' crash =>
      obtain ⟨done, hdisk, hcall | hsnapshot⟩ := crash
      · obtain ⟨r, hr⟩ := hcall
        exact ⟨done, hdisk, .inl ⟨r, trivial, hr⟩⟩
      · exact ⟨done, hdisk, .inr hsnapshot⟩

/-- A run under a condition is a run. -/
theorem RunWhere.run {C : CreditEngine (Observed J) → CreditRequest → Prop} {w w' : Deployment J}
    {acts : List Act} (h : RunWhere C w acts w') : Run w acts w' := by
  induction h with
  | nil => exact .nil
  | concat run step meets ih => exact ih.concat step

/-- What holds of a deployment behind `n` steps: the invariants of its accounts, and `I` of the
    accounts in memory and of those the storage reflects, which are the same ones until the
    journal fails. -/
structure Kept (I : ExtTreeMap UInt64 AccountState → Prop) (n : Nat) (w : Deployment J) :
    Prop where
  standing : AllStanding w.engine.accounts
  windowed : AllWindowed w.engine.accounts
  live : I w.engine.accounts
  stored : ∃ m k, I m ∧ Grown w.engine.accounts m ∧ k ≤ 4 * n + 1 ∧ Durable (Observed J) w.disk m k
  level : LevelWith (Observed J) w.engine (4 * n + 1) w.disk

section Step

variable {C : CreditEngine (Observed J) → CreditRequest → Prop}
  {I : ExtTreeMap UInt64 AccountState → Prop} {n : Nat} {w w' : Deployment J}

omit [Journal J] in
/-- The journal calls behind a log that has been extended. -/
theorem events_of_append {e e' : CreditEngine (Observed J)} {evs : List JournalEvent}
    (h : e'.journal.log = e.journal.log ++ evs) : events e e' = evs := by
  unfold events
  rw [h, List.drop_left]

/-- A snapshot leaves the accounts and the latch alone. -/
theorem snapshot_sameLedger (e : CreditEngine (Observed J)) : SameLedger e e.snapshot.2 := by
  unfold snapshot
  split_ifs
  · exact ⟨rfl, rfl, rfl, rfl, rfl, rfl, rfl, rfl⟩
  · exact ⟨rfl, rfl, rfl, rfl, rfl, rfl, rfl, rfl⟩
  · exact (snapshotLocked_snapshotted e).sameLedger

/-- A failed journal is called no more. -/
theorem events_of_failed {e : CreditEngine (Observed J)} (h : e.journalFailed = true)
    (r : CreditRequest) :
    events e (e.apply r).2 = [] ∧ e.snapshot.2 = e ∧ events e e.snapshot.2 = [] := by
  have hsnapshot : e.snapshot.2 = e := by
    unfold snapshot
    rw [if_pos h]
    split_ifs <;> rfl
  refine ⟨?_, hsnapshot, ?_⟩
  · rw [journalFailed_apply h]
    exact events_of_append (List.append_nil _).symm
  · rw [hsnapshot]
    exact events_of_append (List.append_nil _).symm

/-- What a crash leaves of a deployment. -/
theorem Kept.crashed (htracked : Tracked C I) (hn : n < 2 ^ 60) (h : Kept I n w) {disk : Disk}
    (hcrash : w.CrashesWhere C disk) :
    ∃ m k, I m ∧ Grown w.engine.accounts m ∧ k ≤ 4 * n + 4 ∧ Durable (Observed J) disk m k := by
  obtain ⟨done, hdisk, hdone⟩ := hcrash
  cases hfailed : w.engine.journalFailed with
  | true =>
    have hnone : done = [] := by
      rcases hdone with ⟨r, -, hprefix⟩ | hprefix
      · rw [(events_of_failed hfailed r).1] at hprefix
        exact List.prefix_nil.mp hprefix
      · rw [(events_of_failed hfailed {}).2.2] at hprefix
        exact List.prefix_nil.mp hprefix
    rw [hnone, Disk.mem_afterAll_nil] at hdisk
    obtain ⟨m, k, hI, hgrown, hk, hd⟩ := h.stored
    rw [hdisk]
    exact ⟨m, k, hI, hgrown, by omega, hd⟩
  | false =>
    obtain ⟨hlevel, hbound⟩ := h.level hfailed
    rcases hdone with ⟨r, hmeets, hprefix⟩ | hprefix
    · obtain ⟨evs, hlog, hthrough⟩ := apply_durable r h.standing h.windowed hlevel rfl (by omega)
      rw [events_of_append hlog] at hprefix
      obtain ⟨m, k, hleads, -, hk, hd⟩ := hthrough.always.of_prefix hprefix hdisk
      exact ⟨m, k, htracked.leads _ r m h.standing h.windowed hmeets h.live hleads, hleads.grown,
        by omega, hd⟩
    · obtain ⟨evs, hlog, hthrough⟩ := snapshot_durable h.standing h.windowed hlevel rfl (by omega)
      rw [events_of_append hlog] at hprefix
      obtain ⟨k, -, hk, hd⟩ := hthrough.always.of_prefix hprefix hdisk
      exact ⟨_, k, h.live, .refl _, by omega, hd⟩

/-- **Step lemma.** -/
theorem Kept.step (htracked : Tracked C I) (hn : n < 2 ^ 60) (h : Kept I n w) {act : Act}
    (hstep : Step w act w') (hmeets : w.Meets C act w') : Kept I (n + 1) w' := by
  cases hstep with
  | called r disk durable =>
    have hlive : I (w.engine.apply r).2.accounts := htracked.leads _ r _ h.standing h.windowed
      hmeets h.live (apply_leads w.engine r)
    have hstanding := apply_standing h.standing r
    have hwindowed := apply_windowed h.windowed r
    cases hfailed : w.engine.journalFailed with
    | true =>
      rw [(events_of_failed hfailed r).1, Disk.mem_afterAll_nil] at durable
      obtain ⟨m, k, hI, hgrown, hk, hd⟩ := h.stored
      rw [← durable] at hd
      refine ⟨hstanding, hwindowed, hlive, ⟨m, k, hI, ?_, by omega, hd⟩, fun hhealthy => ?_⟩
      · show Grown (w.engine.apply r).2.accounts m
        rw [journalFailed_apply hfailed]
        exact hgrown
      · rw [show (w.engine.apply r).2.journalFailed = true by
          rw [journalFailed_apply hfailed, hfailed]] at hhealthy
        exact absurd hhealthy (by decide)
    | false =>
      obtain ⟨hlevel, hbound⟩ := h.level hfailed
      obtain ⟨evs, hlog, hthrough⟩ := apply_durable r h.standing h.windowed hlevel rfl (by omega)
      rw [events_of_append hlog] at durable
      have hafter := hthrough.after disk durable
      refine ⟨hstanding, hwindowed, hlive, ?_, fun hhealthy => ?_⟩
      · cases hlatched : (w.engine.apply r).2.journalFailed with
        | false =>
          obtain ⟨hd, hk⟩ := hafter hlatched
          exact ⟨_, _, hlive, .refl _, by omega, hd⟩
        | true =>
          -- the storage may be one decision ahead
          obtain ⟨m, k, hleads, -, hk, hd⟩ :=
            hthrough.always.of_prefix (List.prefix_refl evs) durable
          exact ⟨m, k, htracked.leads _ r m h.standing h.windowed hmeets h.live hleads,
            (grown_of_latched hfailed hlatched).trans hleads.grown, by omega, hd⟩
      · obtain ⟨hd, hk⟩ := hafter hhealthy
        exact ⟨hd, hk.trans (by omega)⟩
  | snapshotted disk durable =>
    cases hfailed : w.engine.journalFailed with
    | true =>
      obtain ⟨-, hsame, hnone⟩ := events_of_failed hfailed {}
      rw [hnone, Disk.mem_afterAll_nil] at durable
      rw [durable, hsame]
      obtain ⟨m, k, hI, hgrown, hk, hd⟩ := h.stored
      exact ⟨h.standing, h.windowed, h.live, ⟨m, k, hI, hgrown, by omega, hd⟩, fun hhealthy =>
        absurd (hfailed.symm.trans hhealthy) (by decide)⟩
    | false =>
      obtain ⟨hlevel, hbound⟩ := h.level hfailed
      obtain ⟨evs, hlog, hthrough⟩ := snapshot_durable h.standing h.windowed hlevel rfl (by omega)
      rw [events_of_append hlog] at durable
      have hframe := snapshot_sameLedger w.engine
      obtain ⟨hd, hk⟩ := hthrough.after disk durable (hframe.journalFailed.trans hfailed)
      have haccounts : w.engine.snapshot.2.accounts = w.engine.accounts := hframe.accounts
      refine ⟨?_, ?_, ?_, ⟨_, _, ?_, .refl _, hk.trans (by omega), hd⟩,
        fun _ => ⟨hd, hk.trans (by omega)⟩⟩
      · show AllStanding w.engine.snapshot.2.accounts
        rw [haccounts]
        exact h.standing
      · show AllWindowed w.engine.snapshot.2.accounts
        rw [haccounts]
        exact h.windowed
      · show I w.engine.snapshot.2.accounts
        rw [haccounts]
        exact h.live
      · rw [haccounts]
        exact h.live
  | restarted limits journal operator nonce disk o' crash addressable yields ok =>
    obtain ⟨m, k, hI, -, hk, hd⟩ := h.crashed htracked hn hmeets
    obtain ⟨q, hq, haccounts, hnext, -⟩ := recover_recovers addressable yields ok
    have hreflects := hd.reflects q hq
    obtain ⟨hstanding, hwindowed⟩ := hreflects.forgotten
    have hrecovered := hd.recovered hq
    have hle := (hd.next q hq).2
    have hlive := htracked.recovers q.accounts m hreflects hI
    rw [← haccounts] at hstanding hwindowed hrecovered hlive
    exact ⟨hstanding, hwindowed, hlive, ⟨_, _, hlive, .refl _, by omega, hrecovered⟩, fun _ => by
      show Durable _ _ _ (_ : UInt64).toNat ∧ (_ : UInt64).toNat ≤ _
      rw [hnext]
      exact ⟨hrecovered, by omega⟩⟩

/-- **Run lemma.**  A tracked invariant holds behind every step of a run. -/
theorem RunWhere.kept {acts : List Act} (hrun : RunWhere C w acts w') (htracked : Tracked C I)
    (h : Kept I n w) (hn : n + acts.length ≤ 2 ^ 60) : Kept I (n + acts.length) w' := by
  induction hrun with
  | nil => exact h
  | @concat acts act w₁ w₂ run step meets ih =>
    rw [List.length_append, List.length_singleton] at hn ⊢
    have hbefore : n + acts.length < 2 ^ 60 := by omega
    exact (ih hbefore.le).step htracked hbefore step meets

omit [Journal J] in
/-- The invariants of a run may be replaced by others that hold of both copies. -/
theorem Kept.mono {I' : ExtTreeMap UInt64 AccountState → Prop} (h : Kept I n w)
    (hI : ∀ m, Grown w.engine.accounts m → I m → I' m) : Kept I' n w := by
  obtain ⟨m, k, hm, hgrown, hk, hd⟩ := h.stored
  exact ⟨h.standing, h.windowed, hI _ (.refl _) h.live, ⟨m, k, hI m hgrown hm, hgrown, hk, hd⟩,
    h.level⟩

end Step

omit [Journal J] in
/-- A deployment in front of its first recovery. -/
theorem start_kept {I : ExtTreeMap UInt64 AccountState → Prop} (hI : I ∅) (limits : EngineLimits)
    (journal : J) (operator : Incarnation) (nonce : Digest128) :
    Kept I 0 (start limits journal operator nonce) := by
  refine ⟨fun _ _ ha => absurd ha (by simp [start, make]), fun _ _ ha =>
    absurd ha (by simp [start, make]), hI, ⟨∅, 1, hI, .refl _, le_rfl, .empty le_rfl⟩, fun _ => ?_⟩
  show Durable _ {} ∅ (0 : UInt64).toNat ∧ (0 : UInt64).toNat ≤ 4 * 0 + 1
  exact ⟨.empty (by decide), by decide⟩

/-- The invariants of the accounts hold behind every run. -/
theorem Run.kept {limits : EngineLimits} {journal : J} {operator : Incarnation}
    {nonce : Digest128} {acts : List Act} {w : Deployment J}
    (hrun : Run (start limits journal operator nonce) acts w) (hn : acts.length ≤ 2 ^ 60) :
    Kept (fun _ => True) acts.length w := by
  have hkept := hrun.anywhere.kept tracked_true
    (start_kept trivial limits journal operator nonce) (by omega)
  rwa [Nat.zero_add] at hkept

/-! ### Runs of calls -/

/-- Some contents are left behind every journal call. -/
theorem exists_after (d : Disk) (evs : List JournalEvent) : ∃ d', d' ∈ d.afterAll evs := by
  induction evs generalizing d with
  | nil => exact ⟨d, Disk.mem_afterAll_nil.mpr rfl⟩
  | cons ev evs ih =>
    have hone : ∃ d₁, d₁ ∈ d.after ev := by
      unfold Disk.after
      cases ev with
      | appended t s => simp only; split_ifs <;> exact ⟨_, List.mem_cons_self⟩
      | wroteSnapshot i s => simp only; split_ifs <;> exact ⟨_, List.mem_cons_self⟩
      | rotated n s => simp only; split_ifs <;> exact ⟨_, List.mem_cons_self⟩
      | _ => exact ⟨d, List.mem_cons_self⟩
    obtain ⟨d₁, hd₁⟩ := hone
    obtain ⟨d', hd'⟩ := ih d₁
    exact ⟨d', Disk.mem_afterAll_cons.mpr ⟨d₁, hd₁, hd'⟩⟩

/-- A deployment can make any calls. -/
theorem RunWhere.calls {C : CreditEngine (Observed J) → CreditRequest → Prop}
    {w w₁ : Deployment J} {acts : List Act} (h : RunWhere C w acts w₁) (rs : List CreditRequest)
    (hmeets : EachCall C w₁.engine rs) :
    ∃ w₂, RunWhere C w (acts ++ rs.map .call) w₂ ∧ w₂.engine = w₁.engine.run rs := by
  induction rs generalizing acts w₁ with
  | nil => exact ⟨w₁, by simpa using h, rfl⟩
  | cons r rs ih =>
    obtain ⟨d, hd⟩ := exists_after w₁.disk (events w₁.engine (w₁.engine.apply r).2)
    obtain ⟨w₂, hrun, hengine⟩ := ih (h.concat (.called r d hd) hmeets.1) hmeets.2
    exact ⟨w₂, by simpa using hrun, hengine⟩

/-- The first boot over an empty journal. -/
theorem exists_first (limits : EngineLimits) (nonce : Digest128) :
    ∃ w, Step (start limits ({} : InMemoryJournal) Fixture.me nonce) .restart w ∧
      w.disk = {} ∧ w.engine = Fixture.boot limits ⟨{}, []⟩ nonce := by
  have hyields : ∃ o', Yields (Observed.mk ({} : InMemoryJournal) []) none [] o' :=
    ⟨_, _, _, _, _, rfl, rfl, rfl, .done rfl, rfl⟩
  obtain ⟨o', ho'⟩ := hyields
  refine ⟨_, .restarted limits {} Fixture.me nonce {} o' ?_ ?_ ho' rfl, rfl, rfl⟩
  · exact ⟨[], List.mem_singleton_self _, .inr List.nil_prefix⟩
  · exact ⟨fun t ht => absurd ht List.not_mem_nil, fun i hi => absurd hi (by simp)⟩

/-- A restart from any contents a crash leaves, when they recover. -/
theorem exists_restart {w : Deployment InMemoryJournal} {d : Disk} (limits : EngineLimits)
    (nonce : Digest128) (hcrash : w.Crashes d) (haddressable : d.Addressable)
    (hok : (make limits (Observed.mk d.inMemory []) Fixture.me nonce).recover.1.ok = true) :
    ∃ w', Step w .restart w' ∧ w'.disk = d ∧
      w'.engine = Fixture.boot limits ⟨d.inMemory, []⟩ nonce := by
  obtain ⟨o', hyields⟩ := d.yields_inMemory
  exact ⟨_, .restarted limits d.inMemory Fixture.me nonce d o' hcrash haddressable hyields hok,
    rfl, rfl⟩

/-- Every process boots, whatever the condition. -/
theorem RunWhere.first (C : CreditEngine (Observed InMemoryJournal) → CreditRequest → Prop)
    (limits : EngineLimits) (nonce : Digest128) :
    ∃ w, RunWhere C (start limits ({} : InMemoryJournal) Fixture.me nonce) [.restart] w ∧
      w.engine = Fixture.boot limits ⟨{}, []⟩ nonce := by
  obtain ⟨w, hstep, hdisk, hengine⟩ := exists_first limits nonce
  refine ⟨w, .concat .nil hstep ?_, hengine⟩
  exact ⟨[], Disk.mem_afterAll_nil.mpr hdisk, .inr List.nil_prefix⟩

/-- The first boot over an empty journal, and any calls in it. -/
theorem exists_runWhere {C : CreditEngine (Observed InMemoryJournal) → CreditRequest → Prop}
    (limits : EngineLimits) (nonce : Digest128) (rs : List CreditRequest)
    (hmeets : EachCall C (Fixture.boot limits ⟨{}, []⟩ nonce) rs) :
    ∃ w, RunWhere C (start limits ({} : InMemoryJournal) Fixture.me nonce)
      (.restart :: rs.map .call) w ∧ w.engine = (Fixture.boot limits ⟨{}, []⟩ nonce).run rs := by
  obtain ⟨w₁, hrun, hengine⟩ := RunWhere.first C limits nonce
  rw [← hengine] at hmeets ⊢
  exact hrun.calls rs hmeets

end Deployment

end CreditFabric
