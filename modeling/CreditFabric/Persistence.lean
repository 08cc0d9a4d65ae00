import CreditFabric.Durable

namespace CreditFabric

open Std (ExtTreeMap)

/-!
# What a snapshot and a decision make durable

The journal calls of a snapshot and of a decision, one after the other: what a crash in between
can leave on the storage, and what is there behind the last call.

* `Snapshotted.keeps_durable`: a snapshot of accounts that reflect what is durable keeps it.
* `Persisted.moves_durable`: a decision moves what is durable from the accounts in front of it to
  the accounts behind it, and a crash leaves the one or the other.
-/

/-- The account that a snapshot of `c` restores, next to `x`: `c` but for counters, with every
    watermark at least as far. -/
theorem CreditEngine.Mirrored.of_image {key : UInt64} {c x : AccountState} (h : Standing key c)
    (hwindowed : Windowed c) (hsame : SameStanding c x)
    (hlast : ∀ i, (c.countersAt i).last.toNat ≤ (x.countersAt i).last.toNat)
    (limits : EngineLimits) : Mirrored key (restoreAccount limits (c.buildDurable true)) x := by
  have hrecords := restoreAccount_incarnations limits h.keyed
  refine ⟨⟨⟨hsame.epoch.symm, hsame.generation.symm, hsame.fences.symm, fun i => ?_,
    fun i b hb _ => ?_, fun i hi => ?_⟩, hsame.capacity.symm, hsame.totals.symm⟩,
    h.restored limits, hwindowed.restored h.keyed limits⟩
  · unfold AccountState.countersAt
    rw [hrecords]
    exact hlast i
  · obtain ⟨b₀, hb₀, -⟩ := hsame.back hb
    rw [hrecords, hb₀]
    rfl
  · rw [hrecords] at hi
    obtain ⟨b, hb⟩ := Option.isSome_iff_exists.mp hi
    obtain ⟨b', hb', -⟩ := hsame.records i b hb
    rw [hb']
    rfl

namespace CreditEngine

variable {J K : Type}

/-- The accounts `m` are `m₀` but for counters, with every watermark at least as far. -/
structure Published (m₀ m : ExtTreeMap UInt64 AccountState) : Prop where
  published : ∀ (key : UInt64) (c : AccountState), m₀[key]? = some c → ∃ x, m[key]? = some x ∧
    SameStanding c x ∧ ∀ i, (c.countersAt i).last.toNat ≤ (x.countersAt i).last.toNat
  known : ∀ (key : UInt64) (x : AccountState), m[key]? = some x → ∃ c, m₀[key]? = some c

/-- Nothing has been published. -/
theorem Published.refl (m : ExtTreeMap UInt64 AccountState) : Published m m :=
  ⟨fun _ c hc => ⟨c, hc, .refl c, fun _ => le_rfl⟩, fun _ x hx => ⟨x, hx⟩⟩

/-- Publishing one of the accounts. -/
theorem Published.insert (m : ExtTreeMap UInt64 AccountState) {key : UInt64}
    {c x : AccountState} (hsame : SameStanding c x)
    (hlast : ∀ i, (c.countersAt i).last.toNat ≤ (x.countersAt i).last.toNat) :
    Published (m.insert key c) (m.insert key x) := by
  refine ⟨fun key' c' hc' => ?_, fun key' x' hx' => ?_⟩
  · by_cases hkey : key' = key
    · rw [hkey, ExtTreeMap.getElem?_insert_self, Option.some.injEq] at hc'
      rw [hkey, ExtTreeMap.getElem?_insert_self, ← hc']
      exact ⟨x, rfl, hsame, hlast⟩
    · rw [Lib.getElem?_insert_of_ne _ _ hkey] at hc' ⊢
      exact ⟨c', hc', .refl c', fun _ => le_rfl⟩
  · by_cases hkey : key' = key
    · rw [hkey, ExtTreeMap.getElem?_insert_self]
      exact ⟨c, rfl⟩
    · rw [Lib.getElem?_insert_of_ne _ _ hkey] at hx' ⊢
      exact ⟨x', hx'⟩

/-- The accounts a snapshot restores reflect the accounts it was taken of, published or not. -/
theorem reflects_durableState {e : CreditEngine J} {m : ExtTreeMap UInt64 AccountState}
    (hstanding : AllStanding e.accounts) (hwindowed : AllWindowed e.accounts)
    (h : Published e.accounts m) (limits : EngineLimits) :
    Reflects (restoredFrom limits ∅ e.durableState.accounts) m := by
  refine ⟨fun key x hx => ?_, fun key p hp => ?_⟩
  · obtain ⟨c, hc⟩ := h.known key x hx
    obtain ⟨x', hx', hsame, hlast⟩ := h.published key c hc
    rw [hx, Option.some.injEq] at hx'
    subst hx'
    refine ⟨restoreAccount limits (c.buildDurable true), ?_,
      .of_image (hstanding key c hc) (hwindowed key c hc) hsame hlast limits⟩
    rw [getElem?_restoredFrom hstanding limits key, hc]
    rfl
  · rw [getElem?_restoredFrom hstanding limits key, Option.map_eq_some_iff] at hp
    obtain ⟨c, hc, -⟩ := hp
    obtain ⟨x, hx, -⟩ := h.published key c hc
    exact ⟨x, hx⟩

variable [Journal J] {e e' : CreditEngine (Observed J)} {s : Status} {disk : Disk}
  {m m' : ExtTreeMap UInt64 AccountState} {n : Nat}

/-! ### A snapshot -/

/-- The storage reflects `m` and continues at `n` or one place later. -/
def SnapshotKeeps (J : Type) (m : ExtTreeMap UInt64 AccountState) (n : Nat) (d : Disk) : Prop :=
  ∃ n', n ≤ n' ∧ n' ≤ n + 1 ∧ Durable J d m n'

omit [Journal J] in
/-- Behind the append of a Snapshot record. -/
theorem Durable.recorded (h : Durable K disk m n) (hseq : e.nextJournalSequence.toNat = n)
    (hn : n + 1 < 2 ^ 64)
    (hm : ∀ limits, Reflects (restoredFrom limits ∅ e.durableState.accounts) m) {d : Disk}
    (happended : disk.Appended e.snapshotRecord d) {n' : Nat} (hle : n ≤ n') (hle' : n' ≤ n + 1) :
    Durable K d m n' :=
  h.snapshotted happended rfl hseq hn rfl hm hle hle'

omit [Journal J] in
/-- Behind the write of the snapshot file, rotated or not. -/
theorem Durable.covered (hseq : e.nextJournalSequence.toNat = n) (hn : n + 1 < 2 ^ 64)
    (hm : ∀ limits, Reflects (restoredFrom limits ∅ e.durableState.accounts) m) {d d' : Disk}
    (hd : Durable K d m n) (hsnapshot : d'.snapshot = some e.snapshotImage)
    (hrecords : ∀ t ∈ d'.records, t ∈ d.records) : Durable K d' m (n + 1) :=
  .of_image hsnapshot (fun t ht => hd.behind.records t (hrecords t ht)) hseq hn rfl hm

/-- **A snapshot.**  What is durable stays durable at every point of a snapshot. -/
theorem Snapshotted.keeps_durable (h : Snapshotted e s e')
    (hseq : e.nextJournalSequence.toNat = n) (hn : n + 1 < 2 ^ 64)
    (hm : ∀ limits, Reflects (restoredFrom limits ∅ e.durableState.accounts) m) :
    n ≤ e'.nextJournalSequence.toNat ∧ e'.nextJournalSequence.toNat ≤ n + 1 ∧
    ∃ events, e'.journal.log = e.journal.log ++ events ∧
      ∀ disk, Durable K disk m n → disk.Through (SnapshotKeeps K m n)
        (fun d => Durable K d m e'.nextJournalSequence.toNat) events := by
  have hsucc : (e.nextJournalSequence + 1).toNat = n + 1 := by
    rw [toNat_add_one (by omega), hseq]
  have hkept : ∀ {d : Disk}, Durable K d m n → SnapshotKeeps K m n d :=
    fun hd => ⟨n, le_rfl, n.le_succ, hd⟩
  have hlater : ∀ {d : Disk}, Durable K d m (n + 1) → SnapshotKeeps K m n d :=
    fun hd => ⟨n + 1, n.le_succ, le_rfl, hd⟩
  -- the record is durable behind an append that returned Ok
  have happend : ∀ {disk d : Disk} {s : Status}, Durable K disk m n → s.ok = true →
      d ∈ disk.after (.appended e.snapshotRecord s) →
      Durable K d m n ∧ Durable K d m (n + 1) := by
    intro disk d s hdisk hs hd
    rcases Disk.after_appended hd with happended | ⟨-, hfailed⟩
    · exact ⟨hdisk.recorded hseq hn hm happended le_rfl n.le_succ,
        hdisk.recorded hseq hn hm happended n.le_succ le_rfl⟩
    · rw [hs] at hfailed
      exact absurd hfailed (by decide)
  have hwrite : ∀ {d d' : Disk} {s : Status}, Durable K d m n → s.ok = true →
      d' ∈ d.after (.wroteSnapshot e.snapshotImage s) →
      d' = { d with snapshot := some e.snapshotImage } := by
    intro d d' s _ hs hd'
    rcases Disk.after_wroteSnapshot hd' with heq | ⟨-, hfailed⟩
    · exact heq
    · rw [hs] at hfailed
      exact absurd hfailed (by decide)
  cases h with
  | appendFailed hfailed =>
    refine ⟨hseq.ge, hseq.trans_le n.le_succ, _, rfl, fun disk hdisk =>
      .cons (hkept hdisk) fun d hd => ?_⟩
    have hstays : Durable K d m n := by
      rcases Disk.after_appended hd with happended | ⟨rfl, -⟩
      · exact hdisk.recorded hseq hn hm happended le_rfl n.le_succ
      · exact hdisk
    refine .nil ⟨n, le_rfl, n.le_succ, hstays⟩ ?_
    show Durable K d m e.nextJournalSequence.toNat
    rw [hseq]
    exact hstays
  | writeFailed ha hfailed =>
    refine ⟨n.le_succ.trans hsucc.ge, hsucc.le, _, List.append_assoc _ _ _,
      fun disk hdisk => .cons (hkept hdisk) fun d hd => ?_⟩
    obtain ⟨hbefore, hbehind⟩ := happend hdisk ha hd
    refine .cons (hlater hbehind) fun d' hd' => ?_
    have hstays : Durable K d' m (n + 1) := by
      rcases Disk.after_wroteSnapshot hd' with rfl | ⟨rfl, -⟩
      · exact .covered hseq hn hm hbefore rfl fun t ht => ht
      · exact hbehind
    refine .nil (hlater hstays) ?_
    show Durable K d' m (e.nextJournalSequence + 1).toNat
    rw [hsucc]
    exact hstays
  | rotateFailed ha hw hfailed =>
    refine ⟨n.le_succ.trans hsucc.ge, hsucc.le, _,
      (List.append_assoc _ _ _).trans (List.append_assoc _ _ _), fun disk hdisk =>
        .cons (hkept hdisk) fun d hd => ?_⟩
    obtain ⟨hbefore, hbehind⟩ := happend hdisk ha hd
    refine .cons (hlater hbehind) fun d' hd' => ?_
    obtain rfl := hwrite hbefore hw hd'
    refine .cons (hlater (.covered hseq hn hm hbefore rfl fun t ht => ht)) fun d'' hd'' => ?_
    obtain ⟨hsnapshot, -, hrecords⟩ := Disk.after_rotated hd''
    have hstays : Durable K d'' m (n + 1) := .covered hseq hn hm hbefore hsnapshot hrecords
    refine .nil (hlater hstays) ?_
    show Durable K d'' m (e.nextJournalSequence + 1).toNat
    rw [hsucc]
    exact hstays
  | durable ha hw hr =>
    refine ⟨n.le_succ.trans hsucc.ge, hsucc.le, _,
      (List.append_assoc _ _ _).trans (List.append_assoc _ _ _), fun disk hdisk =>
        .cons (hkept hdisk) fun d hd => ?_⟩
    obtain ⟨hbefore, hbehind⟩ := happend hdisk ha hd
    refine .cons (hlater hbehind) fun d' hd' => ?_
    obtain rfl := hwrite hbefore hw hd'
    refine .cons (hlater (.covered hseq hn hm hbefore rfl fun t ht => ht)) fun d'' hd'' => ?_
    obtain ⟨hsnapshot, -, hrecords⟩ := Disk.after_rotated hd''
    have hstays : Durable K d'' m (n + 1) := .covered hseq hn hm hbefore hsnapshot hrecords
    refine .nil (hlater hstays) ?_
    show Durable K d'' m (e.nextJournalSequence + 1).toNat
    rw [hsucc]
    exact hstays

/-! ### A decision -/

/-- The storage reflects the accounts in front of the decision or those behind it. -/
def DecisionKeeps (J : Type) (m m' : ExtTreeMap UInt64 AccountState) (n : Nat) (d : Disk) :
    Prop :=
  ∃ m₁ n', (m₁ = m ∨ m₁ = m') ∧ n ≤ n' ∧ n' ≤ n + 3 ∧ Durable J d m₁ n'

/-- **A decision.**  A crash at any point of a decision leaves the accounts in front of it or
    those behind it; when it persists, those behind it are durable. -/
theorem Persisted.moves_durable {r : CreditRequest} {o : CreditOutcome} {a : AccountState}
    {c : Bool} (h : Persisted e r o a c s e') (hdisk : Durable K disk m n)
    (hseq : e.nextJournalSequence.toNat = n) (hn : n + 3 < 2 ^ 64)
    (hwritten : (e.durableAttempt r o a c).Written)
    (hcarries : Carries K (e.durableAttempt r o a c) m m')
    (hm : ∀ limits, Reflects (restoredFrom limits ∅ e.durableState.accounts) m') :
    (s.ok = true → e'.nextJournalSequence.toNat ≤ n + 3) ∧
    ∃ events, e'.journal.log = e.journal.log ++ events ∧
      disk.Through (DecisionKeeps K m m' n)
        (fun d => s.ok = true → Durable K d m' e'.nextJournalSequence.toNat) events := by
  have hone : (e.nextJournalSequence + 1).toNat = n + 1 := by
    rw [toNat_add_one (by omega), hseq]
  have htwo : (e.nextJournalSequence + 1 + 1).toNat = n + 2 := by
    rw [toNat_add_one (by omega), hone]
  -- a crash leaves the accounts in front of the decision or those behind it
  have hkept : ∀ {d : Disk}, Durable K d m n → DecisionKeeps K m m' n d :=
    fun hd => ⟨m, n, .inl rfl, le_rfl, by omega, hd⟩
  have hmoved : ∀ {d : Disk} {n' : Nat}, n + 2 ≤ n' → n' ≤ n + 3 → Durable K d m' n' →
      DecisionKeeps K m m' n d :=
    fun hle hle' hd => ⟨m', _, .inr rfl, by omega, hle', hd⟩
  -- the Intent moves nothing
  have hintent : ∀ {d : Disk} {s : Status}, d ∈ disk.after (.appended (e.intentRecord r) s) →
      Durable K d m n := by
    intro d s hd
    rcases Disk.after_appended hd with happended | ⟨rfl, -⟩
    · exact hdisk.intent happended rfl hseq
    · exact hdisk
  -- the Attempt moves the one to the other
  have hattempt : ∀ {d d' : Disk} {s : Status}, Durable K d m n →
      d' ∈ d.after (.appended (e.attemptRecord r o a c) s) →
      Durable K d' m' (n + 2) ∨ d' = d ∧ s.ok = false := by
    intro d d' s hd hd'
    rcases Disk.after_appended hd' with happended | hsame
    · exact .inl (hd.attempt happended rfl hone (by omega) hwritten rfl hcarries)
    · exact .inr hsame
  have hdurable : ∀ {d d' : Disk} {s : Status}, Durable K d m n → s.ok = true →
      d' ∈ d.after (.appended (e.attemptRecord r o a c) s) → Durable K d' m' (n + 2) := by
    intro d d' s hd hs hd'
    rcases hattempt hd hd' with hmoved | ⟨-, hfailed⟩
    · exact hmoved
    · rw [hs] at hfailed
      exact absurd hfailed (by decide)
  -- the traces of a decision, by where they stop
  cases h with
  | appendFailed happended hs =>
    cases happended with
    | intentFailed hfailed =>
      refine ⟨Status.never_ok hs, _, rfl, .cons (hkept hdisk) fun d hd => ?_⟩
      exact .nil (hkept (hintent hd)) (Status.never_ok hs)
    | attemptFailed hi hfailed =>
      refine ⟨Status.never_ok hs, _, List.append_assoc _ _ _, .cons (hkept hdisk) fun d hd => ?_⟩
      refine .cons (hkept (hintent hd)) fun d' hd' => .nil ?_ (Status.never_ok hs)
      rcases hattempt (hintent hd) hd' with hdone | ⟨rfl, -⟩
      · exact hmoved le_rfl (by omega) hdone
      · exact hkept (hintent hd)
    | durable hi ha => exact Status.never_ok hs rfl
  | kept hi ha hrot =>
    refine ⟨fun _ => ?_, _, List.append_assoc _ _ _, .cons (hkept hdisk) fun d hd => ?_⟩
    · show (e.nextJournalSequence + 1 + 1).toNat ≤ n + 3
      omega
    refine .cons (hkept (hintent hd)) fun d' hd' => ?_
    have hdone := hdurable (hintent hd) ha hd'
    refine .nil (hmoved le_rfl (by omega) hdone) fun _ => ?_
    show Durable K d' m' (e.nextJournalSequence + 1 + 1).toNat
    rw [htwo]
    exact hdone
  -- a snapshot behind the Attempt is one of the accounts behind it
  | rotated hi ha hrot hsnap =>
    obtain ⟨-, hnext, more, hlog, hmore⟩ := hsnap.keeps_durable (K := K) htwo (by omega) hm
    have hall : e'.journal.log = e.journal.log ++
        (.appended (e.intentRecord r) (Journal.append e.journal (e.intentRecord r)).1 ::
          .appended (e.attemptRecord r o a c) (e.attemptAppend r o a c).1 :: more) := by
      rw [hlog]
      exact (List.append_assoc _ _ _).trans (List.append_assoc _ _ _)
    refine ⟨fun _ => by omega, _, hall, .cons (hkept hdisk) fun d hd => ?_⟩
    refine .cons (hkept (hintent hd)) fun d' hd' => ?_
    refine (hmore d' (hdurable (hintent hd) ha hd')).mono ?_ fun _ _ hdone _ => hdone
    rintro d'' ⟨n', hle, hle', hd''⟩
    exact hmoved hle (by omega) hd''

end CreditEngine

end CreditFabric
