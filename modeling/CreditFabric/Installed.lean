import CreditFabric.Closure
import CreditFabric.Determined

namespace CreditFabric

open Std (ExtTreeMap)

/-!
# The accounts that a recovery installs

The journal may hold any records and any snapshot.  Restoring an account checks its invariants
but not the range of its capacity, and a replayed Open takes the account from the image in its
own record and compares it with that image.

* `restoreAccounts_checked`: what restoring a list of accounts has checked.
* `recover_unbroken_iff`: a recovery that succeeds installs unbroken accounts exactly when the
  images it reads are within the range, and those of an Open are what its request asks for.
-/

/-- The account satisfies its invariants, and its capacity is in the range of its
    configuration. -/
structure AccountState.Unbroken (a : AccountState) : Prop where
  invariants : (checkInvariants a.capacity a.totals).ok = true
  positive : 1 ≤ a.capacity
  bounded : a.capacity ≤ a.config.maxCapacity

/-- To be unbroken is to be sound. -/
theorem AccountState.unbroken_iff (a : AccountState) : a.Unbroken ↔ a.Sound := by
  constructor
  · intro h
    exact ⟨(checkInvariants_ok_iff _ _).mp h.invariants, UInt64.le_iff_toNat_le.mp h.positive,
      UInt64.le_iff_toNat_le.mp h.bounded⟩
  · intro h
    exact ⟨(checkInvariants_ok_iff _ _).mpr h.closed, UInt64.le_iff_toNat_le.mpr h.positive,
      UInt64.le_iff_toNat_le.mpr h.bounded⟩

/-- The account has the era, the capacity and the totals of the one that an Open creates. -/
structure AccountState.OpenedAs (a : AccountState) (limits : EngineLimits) (r : CreditRequest) :
    Prop where
  epoch : a.epoch = (openedAccount limits r).epoch
  generation : a.generation = (openedAccount limits r).generation
  capacity : a.capacity = (openedAccount limits r).capacity
  totals : a.totals = (openedAccount limits r).totals

/-- The capacity of an account image is in the range of its configuration. -/
structure DurableAccount.InRange (d : DurableAccount) : Prop where
  positive : 1 ≤ d.capacity
  bounded : d.capacity ≤ d.config.maxCapacity

/-- The image of a created account is that of its request: the era of the authority, the
    configured capacity in range, and nothing issued. -/
structure DurableAttempt.OpensAsAsked (d : DurableAttempt) : Prop where
  epoch : d.account.epoch = d.request.authority.epoch
  generation : d.account.generation = d.request.authority.generation
  capacity : d.account.capacity = d.request.config.capacity
  totals : d.account.totals = {}
  range : d.account.InRange

namespace CreditEngine

variable {J : Type}

/-! ### What a recovery reads -/

/-- The record is behind the loaded snapshot. -/
def Unskipped (image : Option SnapshotImage) (t : JournalRecord) : Prop :=
  (image.map SnapshotImage.sequence).any (t.sequence ≤ ·) = false

/-- The state is restored: from the loaded snapshot, or from a Snapshot record. -/
def Restores (image : Option SnapshotImage) (recs : List JournalRecord) (s : DurableState) :
    Prop :=
  (∃ i, image = some i ∧ decodeDurableState i.payload = .ok s) ∨
    ∃ t ∈ recs, Unskipped image t ∧ t.kind = .snapshot ∧ decodeDurableState t.payload = .ok s

/-- The record of the attempt is replayed, and creates its account. -/
def Creates (image : Option SnapshotImage) (recs : List JournalRecord) (d : DurableAttempt) :
    Prop :=
  ∃ t ∈ recs, Unskipped image t ∧ t.kind = .attempt ∧ decodeDurableAttempt t.payload = .ok d ∧
    d.createdAccount = true

/-! ### Restoring -/

/-- A restoration that succeeds has checked each account. -/
theorem restoreAccounts_checked {e e' : CreditEngine J} {l : List DurableAccount} {s : Status}
    (h : e.restoreAccounts l = (s, e')) (hs : s.ok = true) :
    ∀ d ∈ l, (checkInvariants d.capacity d.totals).ok = true := by
  induction l generalizing e with
  | nil => exact fun d hd => absurd hd List.not_mem_nil
  | cons d rest ih =>
    unfold restoreAccounts at h
    simp only at h
    split_ifs at h with hclosed hdigest
    · have hstatus : Status.refused .journalCorrupt 120 = s := congrArg Prod.fst h
      rw [← hstatus] at hs
      exact absurd hs (by decide)
    · have hstatus : Status.refused .journalDigestMismatch 121 = s := congrArg Prod.fst h
      rw [← hstatus] at hs
      exact absurd hs (by decide)
    · intro d' hd'
      rcases List.mem_cons.mp hd' with rfl | hmem
      · rw [Bool.not_eq_true', Bool.not_eq_false] at hclosed
        exact hclosed
      · exact ih h d' hmem

/-- An image that was checked and is in range is sound. -/
theorem sound_of_inRange {d : DurableAccount} (hchecked : (checkInvariants d.capacity d.totals).ok = true)
    (hrange : d.InRange) : d.Sound :=
  ⟨(checkInvariants_ok_iff _ _).mp hchecked, UInt64.le_iff_toNat_le.mp hrange.positive,
    UInt64.le_iff_toNat_le.mp hrange.bounded⟩

/-- What a successful load of a snapshot has checked. -/
theorem loadSnapshot_checked {e e' : CreditEngine J} {i : SnapshotImage} {s : Status}
    (h : e.loadSnapshot (some i) = (s, e')) (hs : s.ok = true) {restored : DurableState}
    (hdecode : decodeDurableState i.payload = .ok restored) :
    ∀ d ∈ restored.accounts, (checkInvariants d.capacity d.totals).ok = true := by
  unfold loadSnapshot at h
  simp only [hdecode] at h
  split_ifs at h with hsequence hrestore
  · have hstatus : Status.refused .journalDigestMismatch 101 = s := congrArg Prod.fst h
    rw [← hstatus] at hs
    exact absurd hs (by decide)
  · rw [← show _ = s from congrArg Prod.fst h] at hs
    rw [hs] at hrestore
    exact absurd hrestore (by decide)
  · exact restoreAccounts_checked (e := { e with accounts := ∅ }) rfl
      (by simpa [restoreDurableState] using hrestore)

/-- What a successful replay of a Snapshot record has checked. -/
theorem replayRecord_checked {e e' : CreditEngine J} {snap : Option UInt64} {t : JournalRecord}
    {s : Status} (h : e.replayRecord snap t = (s, e')) (hs : s.ok = true)
    (hskip : snap.any (t.sequence ≤ ·) = false) (hkind : t.kind = .snapshot)
    {restored : DurableState} (hdecode : decodeDurableState t.payload = .ok restored) :
    ∀ d ∈ restored.accounts, (checkInvariants d.capacity d.totals).ok = true := by
  unfold replayRecord at h
  rw [if_neg (by rw [hskip]; decide)] at h
  simp only [hkind, replaySnapshot, hdecode] at h
  split_ifs at h with hsequence hrestore
  · have hstatus : Status.refused .journalDigestMismatch 104 = s := congrArg Prod.fst h
    rw [← hstatus] at hs
    exact absurd hs (by decide)
  · rw [← show _ = s from congrArg Prod.fst h] at hs
    rw [hs] at hrestore
    exact absurd hrestore (by decide)
  · exact restoreAccounts_checked (e := { e with accounts := ∅ }) rfl
      (by simpa [restoreDurableState] using hrestore)

/-- Sound images restored among sound accounts. -/
theorem restoredFrom_sound (limits : EngineLimits) {l : List DurableAccount}
    {accounts : ExtTreeMap UInt64 AccountState} (h : AllSound accounts)
    (hl : ∀ d ∈ l, d.Sound) : AllSound (restoredFrom limits accounts l) := by
  induction l generalizing accounts with
  | nil => exact h
  | cons d rest ih =>
    have hd : (restoreAccount limits d).Sound := hl d List.mem_cons_self
    exact ih (h.insert _ hd) fun d' hd' => hl d' (List.mem_cons_of_mem _ hd')

/-- Every record of a replay is replayed with success. -/
theorem ReplaysTo.replayed {snap : Option UInt64} {e e' : CreditEngine J}
    {recs : List JournalRecord} (h : ReplaysTo snap e recs e') : ∀ t ∈ recs,
      ∃ (e₁ e₂ : CreditEngine J) (s : Status), e₁.replayRecord snap t = (s, e₂) ∧
        s.ok = true := by
  induction h with
  | done e j => exact fun t ht => absurd ht List.not_mem_nil
  | @next e e₁ e' t rest j s hrecord hs tail ih =>
    intro t' ht'
    rcases List.mem_cons.mp ht' with rfl | hmem
    · exact ⟨_, _, s, hrecord, hs⟩
    · exact ih t' hmem

/-! ### Replaying -/

/-- A created account that is as asked is sound. -/
theorem sound_of_opensAsAsked {d : DurableAttempt} (h : d.OpensAsAsked) : d.account.Sound := by
  refine ⟨?_, UInt64.le_iff_toNat_le.mp h.range.positive,
    UInt64.le_iff_toNat_le.mp h.range.bounded⟩
  rw [h.totals]
  exact ⟨Nat.le_refl 0, Nat.le_refl 0, Nat.zero_le _⟩

/-- **Step lemma.**  A replayed record keeps the accounts sound, if what it restores is in range
    and what it creates is as asked. -/
theorem RecordReplay.sound {e e' : CreditEngine J} {snap : Option UInt64} {t : JournalRecord}
    {s : Status} (hrecord : e.replayRecord snap t = (s, e')) (hs : s.ok = true)
    (hrestores : ∀ restored, snap.any (t.sequence ≤ ·) = false → t.kind = .snapshot →
      decodeDurableState t.payload = .ok restored → ∀ d ∈ restored.accounts, d.InRange)
    (hcreates : ∀ d, snap.any (t.sequence ≤ ·) = false → t.kind = .attempt →
      decodeDurableAttempt t.payload = .ok d → d.createdAccount = true → d.OpensAsAsked)
    (h : AllSound e.accounts) : AllSound e'.accounts := by
  cases replayRecord_inv hrecord hs with
  | skipped _ => exact h
  | intent _ _ pending => exact markAmbiguous_sound h pending t.sequence
  | snapshot hskip hkind restored decoded stats =>
    refine restoredFrom_sound e.limits allSound_empty fun d hd => ?_
    exact sound_of_inRange (replayRecord_checked hrecord hs hskip hkind decoded d hd)
      (hrestores restored hskip hkind decoded d hd)
  | attempt hskip hkind d decoded chained x e₁ replay journalRecords stats =>
    have hx : x.Sound := by
      rcases replay.decision with ⟨hcreated, -, rfl⟩ | ⟨-, p, s', hfound, hdecision, -⟩
      · exact replayedOpen_sound e.limits
          (sound_of_opensAsAsked (hcreates d hskip hkind decoded hcreated))
      · have hreplayed := replayDecision_sound d (h _ _ hfound)
        rw [hdecision] at hreplayed
        exact hreplayed
    show AllSound e₁.accounts
    rw [replay.accounts]
    refine h.insert _ ?_
    split_ifs
    · exact publishWindow_sound hx _ _
    · exact hx

variable [Journal J]

/-- What a recovery installs: the accounts in the end, those it restores and those it
    creates. -/
structure InstallsUnbroken (e : CreditEngine J) (image : Option SnapshotImage)
    (recs : List JournalRecord) : Prop where
  installed : ∀ (key : UInt64) (a : AccountState), e.recover.2.accounts[key]? = some a →
    a.Unbroken
  restored : ∀ s, Restores image recs s → ∀ d ∈ s.accounts, (restoreAccount e.limits d).Unbroken
  created : ∀ d, Creates image recs d →
    (replayedOpen e.limits d).Unbroken ∧ (replayedOpen e.limits d).OpenedAs e.limits d.request

/-- **A recovery installs unbroken accounts exactly from unbroken images.**  Whatever the journal
    holds, if `recover` succeeds then all accounts that it installs are unbroken, and those that
    an Open creates are the ones its request asks for, exactly when every image that is restored
    is in range and every image of a created account is as asked. -/
theorem recover_unbroken_iff {e : CreditEngine J} {image : Option SnapshotImage}
    {recs : List JournalRecord} {j' : J} (hyields : Yields e.journal image recs j')
    (hok : e.recover.1.ok = true) :
    InstallsUnbroken e image recs ↔
      (∀ s, Restores image recs s → ∀ d ∈ s.accounts, d.InRange) ∧
        ∀ d, Creates image recs d → d.OpensAsAsked := by
  refine ⟨?_, ?_⟩
  -- what is unbroken is in range, and a created account opened as it was asked to
  · intro h
    refine ⟨fun s hs d hd => ?_, fun d hd => ?_⟩
    · have hd' := h.restored s hs d hd
      exact ⟨hd'.positive, hd'.bounded⟩
    · obtain ⟨hunbroken, hopened⟩ := h.created d hd
      exact ⟨hopened.epoch, hopened.generation, hopened.capacity, hopened.totals,
        hunbroken.positive, hunbroken.bounded⟩
  · rintro ⟨hranges, hasked⟩
    obtain ⟨j, s, e₁, e₂, hload, hs, hreplays, hfinal⟩ := recover_inv hyields hok
    -- the code checks the invariants of what it restores, not its ranges
    have hchecked : ∀ restored, Restores image recs restored → ∀ d ∈ restored.accounts,
        (checkInvariants d.capacity d.totals).ok = true := by
      rintro restored (⟨i, rfl, hdecode⟩ | ⟨t, ht, hskip, hkind, hdecode⟩)
      · exact loadSnapshot_checked hload hs hdecode
      · obtain ⟨e₃, e₄, s', hrecord, hs'⟩ := hreplays.replayed t ht
        exact replayRecord_checked hrecord hs' hskip hkind hdecode
    refine ⟨?_, ?_, ?_⟩
    · -- the accounts are sound in front of the replay, and stay so along it
      have hloaded : AllSound e₁.accounts := by
        cases loadSnapshot_inv hload hs with
        | none => exact allSound_empty
        | some i restored decoded =>
          have hrestores : Restores (some i) recs restored := .inl ⟨i, rfl, decoded⟩
          refine restoredFrom_sound _ allSound_empty fun d hd => ?_
          exact sound_of_inRange (hchecked restored hrestores d hd)
            (hranges restored hrestores d hd)
      have hreplayed : AllSound e₂.accounts := by
        refine hreplays.keeps (P := fun e => AllSound e.accounts) (fun _ _ h => h) ?_ hloaded
        intro e₃ e₄ t s' ht h hrecord hs'
        refine RecordReplay.sound hrecord hs' ?_ ?_ h
        · exact fun restored hskip hkind hdecode =>
            hranges restored (.inr ⟨t, ht, hskip, hkind, hdecode⟩)
        · exact fun d hskip hkind hdecode hcreated =>
            hasked d ⟨t, ht, hskip, hkind, hdecode, hcreated⟩
      intro key a ha
      rw [hfinal] at ha
      change (e₂.accounts.map fun _ a => a.forgetLiveness)[key]? = some a at ha
      rw [ExtTreeMap.getElem?_map] at ha
      obtain ⟨b, hb, rfl⟩ := Option.map_eq_some_iff.mp ha
      exact (AccountState.unbroken_iff _).mpr (forgetLiveness_sound (hreplayed key b hb))
    · intro restored hrestores d hd
      refine (AccountState.unbroken_iff _).mpr ?_
      exact sound_of_inRange (hchecked restored hrestores d hd) (hranges restored hrestores d hd)
    · intro d hd
      have hask := hasked d hd
      refine ⟨(AccountState.unbroken_iff _).mpr ?_, ?_⟩
      · exact replayedOpen_sound e.limits (sound_of_opensAsAsked hask)
      · exact ⟨hask.epoch, hask.generation, hask.capacity, hask.totals⟩

/-! ### Two journals that no engine wrote -/

namespace ForgedImages

/-- An Open of the fixture's account. -/
def request : CreditRequest := Fixture.request ⟨5, 5⟩ Fixture.me .open_ 1

/-- An image of capacity zero, in another era than the Open asks for, in which five credits were
    returned and none was issued. -/
def image : DurableAccount :=
  { config := Fixture.config, epoch := 7, generation := 9, totals := { returned := 5 } }

/-- The forged attempt. -/
def attempt : DurableAttempt :=
  { request, outcome := { applied := true, decided := true }, hasAccount := true,
    createdAccount := true, account := image }

/-- The attempt with the digest of the account that its replay creates. -/
def sealed : DurableAttempt :=
  { attempt with account := { image with
      stateDigest := (replayedOpen ({} : EngineLimits).clamp attempt).digest } }

/-- A journal with the record of this attempt. -/
def journal : InMemoryJournal :=
  { entries := [{ record :=
      { sequence := 1, kind := .attempt, chain := expectedChain {} 1 sealed,
        payload := encodeDurableAttempt sealed } }] }

/-- An account image of capacity zero. -/
def emptied : DurableAccount := { config := Fixture.config, epoch := 1, generation := 1 }

/-- A snapshot of this account, with the digest that restoring it has. -/
def state : DurableState where
  journalSequence := 1
  accounts :=
    [{ emptied with stateDigest := (restoreAccount ({} : EngineLimits).clamp emptied).digest }]

/-- A journal with a forged snapshot. -/
def snapshotted : InMemoryJournal :=
  { snapshot := some { sequence := 1, payload := encodeDurableState state } }

/-- The recovery from a journal. -/
def recovered (j : InMemoryJournal) : Status × CreditEngine InMemoryJournal :=
  (make {} j Fixture.me ⟨5, 5⟩).recover

/-- Both recoveries succeed.  The first installs an account that breaks its invariants, with a
    capacity and an epoch that its Open does not ask for, the second one of capacity zero. -/
theorem forged_installed :
    (recovered journal).1 = .success ∧
      ((recovered journal).2.accounts[Fixture.account]?).map (fun a =>
        ((checkInvariants a.capacity a.totals).ok, a.capacity, a.epoch)) = some (false, 0, 7) ∧
      (openedAccount {} request).capacity = 8 ∧ (openedAccount {} request).epoch = 1 ∧
      (recovered snapshotted).1 = .success ∧
      ((recovered snapshotted).2.accounts[Fixture.account]?).map (fun a => a.capacity) =
        some 0 := by
  decide +kernel

/-- The Attempt record of the same Open, as the engine writes it. -/
def honest : DurableAttempt :=
  let a := openedAccount ({} : EngineLimits).clamp request
  { request, outcome := appliedOutcome (.ofRequest request) a, hasAccount := true,
    createdAccount := true, account := a.buildDurable false }

/-- A record that an engine would have written. -/
def honestRecord : JournalRecord :=
  { sequence := 1, kind := .attempt, chain := expectedChain {} 1 honest,
    payload := encodeDurableAttempt honest }

/-- A journal with this record. -/
def honestJournal : InMemoryJournal := { entries := [{ record := honestRecord }] }

/-- The recovery of this record installs an unbroken account, as asked for. -/
theorem honest_installed :
    InstallsUnbroken (make {} honestJournal Fixture.me ⟨5, 5⟩) none [honestRecord] := by
  have hwritten : honest.Written :=
    ⟨rfl, quarantined_computeView _ _, fun _ => rfl, rfl, rfl, rfl, rfl⟩
  have hholds : LawfulJournal.Holds honestJournal none [honestRecord] := ⟨rfl, rfl⟩
  obtain ⟨j', hyields, -⟩ := LawfulJournal.holds_restart hholds
  refine (recover_unbroken_iff (e := make {} honestJournal Fixture.me ⟨5, 5⟩) hyields
    (by decide +kernel)).mpr ⟨?_, ?_⟩
  · rintro s (⟨i, hi, -⟩ | ⟨t, ht, -, hkind, -⟩)
    · exact absurd hi (by simp)
    · rw [List.mem_singleton.mp ht] at hkind
      exact absurd hkind (by decide)
  · rintro d ⟨t, ht, -, -, hdecode, -⟩
    rw [List.mem_singleton.mp ht] at hdecode
    have hsame : Except.ok honest = Except.ok d :=
      (decodeDurableAttempt_encode hwritten (by decide)).symm.trans hdecode
    rw [← Except.ok.inj hsame]
    exact ⟨rfl, rfl, rfl, rfl, by decide, by decide⟩

end ForgedImages

end CreditEngine

end CreditFabric
