import CreditFabric.Mirror
import CreditFabric.Deployment
import CreditFabric.Sequencing

namespace CreditFabric

open Std (ExtTreeMap)

/-!
# What the storage keeps of the accounts

`Durable disk m n` says that every recovery of the storage rebuilds accounts that shadow `m`
and continues the journal at `n` or one place later.  There is one lemma for each journal call:
an Intent keeps `m`, an Attempt moves to the accounts behind it, a snapshot keeps them.
-/

/-- The replayed accounts `P` are shadows of the accounts `m`, and have the invariants. -/
structure Reflects (P m : ExtTreeMap UInt64 AccountState) : Prop where
  mirrored : ∀ (key : UInt64) (a : AccountState), m[key]? = some a →
    ∃ p, P[key]? = some p ∧ CreditEngine.Mirrored key p a
  known : ∀ (key : UInt64) (p : AccountState), P[key]? = some p → ∃ a, m[key]? = some a

section Reflects

variable {P m : ExtTreeMap UInt64 AccountState}

/-- An account of the image is one of the engine. -/
theorem Reflects.found (h : Reflects P m) {key : UInt64} {p : AccountState}
    (hp : P[key]? = some p) : ∃ a, m[key]? = some a ∧ CreditEngine.Mirrored key p a := by
  obtain ⟨a, ha⟩ := h.known key p hp
  obtain ⟨p', hp', hmirrored⟩ := h.mirrored key a ha
  rw [hp, Option.some.injEq] at hp'
  subst hp'
  exact ⟨a, ha, hmirrored⟩

/-- Mirrored accounts on both sides. -/
theorem Reflects.insert (h : Reflects P m) {key : UInt64} {q x : AccountState}
    (hq : CreditEngine.Mirrored key q x) : Reflects (P.insert key q) (m.insert key x) := by
  refine ⟨fun key' a ha => ?_, fun key' p hp => ?_⟩
  · by_cases hkey : key' = key
    · rw [hkey, ExtTreeMap.getElem?_insert_self, Option.some.injEq] at ha
      rw [hkey, ExtTreeMap.getElem?_insert_self, ← ha]
      exact ⟨q, rfl, hq⟩
    · rw [Lib.getElem?_insert_of_ne _ _ hkey] at ha ⊢
      exact h.mirrored key' a ha
  · by_cases hkey : key' = key
    · rw [hkey, ExtTreeMap.getElem?_insert_self]
      exact ⟨x, rfl⟩
    · rw [Lib.getElem?_insert_of_ne _ _ hkey] at hp ⊢
      exact h.known key' p hp

/-- A live account may be replaced by one that has the same shadows. -/
theorem Reflects.replace (h : Reflects P m) {key : UInt64} {a x : AccountState}
    (ha : m[key]? = some a) (hx : ∀ p, Shadow p a → Shadow p x) :
    Reflects P (m.insert key x) := by
  refine ⟨fun key' a' ha' => ?_, fun key' p hp => ?_⟩
  · by_cases hkey : key' = key
    · rw [hkey, ExtTreeMap.getElem?_insert_self, Option.some.injEq] at ha'
      obtain ⟨p, hp, hmirrored⟩ := h.mirrored key a ha
      rw [hkey, ← ha']
      exact ⟨p, hp, hx p hmirrored.shadow, hmirrored.standing, hmirrored.windowed⟩
    · rw [Lib.getElem?_insert_of_ne _ _ hkey] at ha'
      exact h.mirrored key' a' ha'
  · by_cases hkey : key' = key
    · rw [hkey, ExtTreeMap.getElem?_insert_self]
      exact ⟨x, rfl⟩
    · rw [Lib.getElem?_insert_of_ne _ _ hkey]
      exact h.known key' p hp

/-- A replayed account may be replaced by one with the same essentials and window. -/
theorem Reflects.renote (h : Reflects P m) {key : UInt64} {p q : AccountState}
    (hp : P[key]? = some p) (hessentials : q.essentials = p.essentials)
    (hwindow : q.window = p.window) : Reflects (P.insert key q) m := by
  obtain ⟨a, ha, hmirrored⟩ := h.found hp
  have hfield : ∀ {β : Type} (f : AccountState → β), f q.essentials = f p.essentials :=
    fun f => congrArg f hessentials
  have hrecords : q.incarnations = p.incarnations := hfield AccountState.incarnations
  have hq : CreditEngine.Mirrored key q a := by
    refine ⟨hmirrored.shadow.of_same (hfield AccountState.epoch) (hfield AccountState.generation)
      (hfield AccountState.fences) (hfield AccountState.capacity) (hfield AccountState.totals)
      hrecords, hmirrored.standing.of_essentials hessentials,
      hmirrored.windowed.congr hwindow fun i => ?_⟩
    unfold AccountState.countersAt
    rw [hrecords]
  have hinsert := h.insert hq
  rw [Lib.insert_eq_self _ ha] at hinsert
  exact hinsert

end Reflects

namespace CreditEngine

variable {J : Type}

/-! ### One Attempt record -/

/-- Replaying the attempt on accounts that reflect `m` ends in accounts that reflect `m'`. -/
def Carries (J : Type) (d : DurableAttempt) (m m' : ExtTreeMap UInt64 AccountState) : Prop :=
  ∀ (e e' : CreditEngine J) (y : AccountState), Reflects e.accounts m →
    AttemptReplay e d y e' → Reflects e'.accounts m'

section Carries

variable {e : CreditEngine J} {r : CreditRequest} {a a' : AccountState}

/-- The record of an applied decision carries the image to the account behind it. -/
theorem Carries.applied [Journal J] (J' : Type) (hbook : FenceBook a) (hadmitted : Admitted e r a)
    (hd : e.decision a r = .proceed a') {d : DurableAttempt} (hrequest : d.request = r)
    (hcreated : d.createdAccount = false) (happlied : d.outcome.applied = true)
    (hdecided : d.outcome.decided = true)
    (haccount : d.account = (countCommitted a' r.authority.incarnation).buildDurable false) :
    Carries J' d e.accounts (e.accounts.insert r.authority.account (appliedAccount a r a')) := by
  intro ρ ρ' y hreflects hreplay
  rcases hreplay.decision with ⟨hopened, -, -⟩ | ⟨-, p, s, hp, hdecision, hs⟩
  · rw [hcreated] at hopened
    exact absurd hopened (by decide)
  · rw [hrequest] at hp
    obtain ⟨a₁, ha₁, hmirrored⟩ := hreflects.found hp
    rw [hadmitted.found, Option.some.injEq] at ha₁
    subst ha₁
    rw [hreplay.accounts, if_pos hdecided, hrequest]
    exact hreflects.insert (hmirrored.applied hbook hadmitted hd hrequest happlied haccount
      hdecision hs hreplay.verified _)

/-- So does the record of a refused decision. -/
theorem Carries.refused (J' : Type) (hadmitted : Admitted e r a) {s' : Status}
    (hd : e.decision a r = .refuse s' a') {d : DurableAttempt} (hrequest : d.request = r)
    (hcreated : d.createdAccount = false) (hunapplied : d.outcome.applied = false)
    (hdecided : d.outcome.decided = true)
    (haccount : d.account = (countRefused a' r.authority.incarnation).buildDurable false)
    (o : CreditOutcome) : Carries J' d e.accounts
      (e.accounts.insert r.authority.account (refusedAccount e.limits a' r o)) := by
  intro ρ ρ' y hreflects hreplay
  rcases hreplay.decision with ⟨hopened, -, -⟩ | ⟨-, p, s, hp, hdecision, hs⟩
  · rw [hcreated] at hopened
    exact absurd hopened (by decide)
  · rw [hrequest] at hp
    obtain ⟨a₁, ha₁, hmirrored⟩ := hreflects.found hp
    rw [hadmitted.found, Option.some.injEq] at ha₁
    subst ha₁
    rw [hreplay.accounts, if_pos hdecided, hrequest]
    exact hreflects.insert (hmirrored.refused hadmitted hd hrequest hunapplied hdecided haccount
      hdecision hreplay.verified _ o)

/-- So does the record of an Open. -/
theorem Carries.opened (J' : Type) (hopens : Opens e r) {d : DurableAttempt}
    (hrequest : d.request = r) (hcreated : d.createdAccount = true)
    (hdecided : d.outcome.decided = true)
    (haccount : d.account = (openedAccount e.limits r).buildDurable false) :
    Carries J' d e.accounts (e.accounts.insert r.authority.account (e.publishedOpen r)) := by
  intro ρ ρ' y hreflects hreplay
  rcases hreplay.decision with ⟨-, -, heq⟩ | ⟨hexisting, -⟩
  · rw [hreplay.accounts, if_pos hdecided, hrequest, heq]
    exact hreflects.insert (.opened hopens ρ.limits hrequest haccount _)
  · rw [hcreated] at hexisting
    exact absurd hexisting (by decide)

/-- An attempt with the default image fails the comparison on every sound account. -/
theorem AttemptReplay.has_image {e e' : CreditEngine J} {m : ExtTreeMap UInt64 AccountState}
    {d : DurableAttempt} {y : AccountState} (h : AttemptReplay e d y e')
    (hreflects : Reflects e.accounts m) (hcreated : d.createdAccount = false) :
    d.account ≠ {} := by
  intro himage
  rcases h.decision with ⟨hopened, -, -⟩ | ⟨-, p, s, hp, hdecision, -⟩
  · rw [hcreated] at hopened
    exact absurd hopened (by decide)
  · obtain ⟨a, -, hmirrored⟩ := hreflects.found hp
    have hsound := replayDecision_sound d hmirrored.standing.sound
    rw [hdecision] at hsound
    have hpositive := hsound.positive
    obtain ⟨-, hcapacity, -, -, -⟩ := verifyReplay_inv h.verified
    rw [hcapacity, himage] at hpositive
    exact absurd hpositive (by decide)

end Carries

/-! ### What the storage holds -/

/-- The log does not reach past `n`, and the snapshot stays below it. -/
structure Behind (disk : Disk) (n : Nat) : Prop where
  records : ∀ t ∈ disk.records, t.sequence.toNat ≤ n
  snapshot : ∀ i, disk.snapshot = some i → i.sequence.toNat < n

/-- What is behind a number is behind a higher one. -/
theorem Behind.mono {disk : Disk} {n n' : Nat} (h : Behind disk n) (hn : n ≤ n') :
    Behind disk n' :=
  ⟨fun t ht => (h.records t ht).trans hn, fun i hi => (h.snapshot i hi).trans_le hn⟩

/-- A record at the end of the log, ahead of the snapshot. -/
theorem Behind.appended {disk disk' : Disk} {n n' : Nat} (h : Behind disk n) (hn : n ≤ n')
    {t : JournalRecord} (happended : disk.Appended t disk') (hseq : t.sequence.toNat ≤ n') :
    Behind disk' n' := by
  refine ⟨fun t' ht' => ?_, fun i hi => ?_⟩
  · rw [happended.records, List.mem_append, List.mem_singleton] at ht'
    rcases ht' with hold | rfl
    · exact (h.records t' hold).trans hn
    · exact hseq
  · rw [happended.snapshot] at hi
    exact (h.snapshot i hi).trans_le hn

/-- A record at `n` or later is not covered by the snapshot. -/
theorem Behind.uncovered {disk : Disk} {n : Nat} (h : Behind disk n) {t : JournalRecord}
    (hseq : n ≤ t.sequence.toNat) :
    (disk.snapshot.map SnapshotImage.sequence).any (t.sequence ≤ ·) = false := by
  cases hsnapshot : disk.snapshot with
  | none => rfl
  | some i =>
    have hlt := h.snapshot i hsnapshot
    refine decide_eq_false fun hle => ?_
    have hle' : t.sequence.toNat ≤ i.sequence.toNat := hle
    omega

/-- Every recovery of the storage rebuilds accounts that reflect `m`, and continues the journal
    at `n` or one place later. -/
structure Durable (J : Type) (disk : Disk) (m : ExtTreeMap UInt64 AccountState) (n : Nat) :
    Prop where
  reflects : ∀ e : CreditEngine J, Recovers disk e → Reflects e.accounts m
  next : ∀ e : CreditEngine J, Recovers disk e →
    n ≤ e.nextJournalSequence.toNat ∧ e.nextJournalSequence.toNat ≤ n + 1
  behind : Behind disk n

section Durable

variable {disk disk' : Disk} {m m' : ExtTreeMap UInt64 AccountState} {n : Nat}
  {t : JournalRecord}

/-- What has the same shadows is just as durable. -/
theorem Durable.replace (h : Durable J disk m n) {key : UInt64} {a x : AccountState}
    (ha : m[key]? = some a) (hx : ∀ p, Shadow p a → Shadow p x) :
    Durable J disk (m.insert key x) n :=
  ⟨fun e he => (h.reflects e he).replace ha hx, h.next, h.behind⟩

/-- Nothing is durable in front of the first record. -/
theorem Durable.empty {n : Nat} (hn : n ≤ 1) : Durable J {} ∅ n := by
  have hrecovers : ∀ e : CreditEngine J, Recovers {} e →
      e.accounts = ∅ ∧ e.nextJournalSequence = 1 := by
    rintro e ⟨-, e₀, e₁, hloaded, hreplays⟩
    cases hloaded with
    | none =>
      cases hreplays with
      | done => exact ⟨rfl, rfl⟩
  refine ⟨fun e he => ?_, fun e he => ?_, ?_⟩
  · rw [(hrecovers e he).1]
    refine ⟨fun key a ha => ?_, fun key p hp => ?_⟩
    · exact absurd ha (by simp)
    · exact absurd hp (by simp)
  · rw [(hrecovers e he).2, show (1 : UInt64).toNat = 1 from rfl]
    omega
  · exact ⟨fun t ht => absurd ht List.not_mem_nil, fun i hi => absurd hi (by simp)⟩

/-- A note about a pending request is all an Intent record leaves. -/
theorem markAmbiguous_accounts (e : CreditEngine J) (r : CreditRequest) (seq : UInt64) :
    (e.markAmbiguous r seq).accounts = e.accounts ∨
      ∃ p q, e.accounts[r.authority.account]? = some p ∧ q.essentials = p.essentials ∧
        q.window = p.window ∧
        (e.markAmbiguous r seq).accounts = e.accounts.insert r.authority.account q := by
  unfold markAmbiguous
  cases hfound : e.accounts[r.authority.account]? with
  | none => exact .inl rfl
  | some p =>
    simp only
    cases hmarked : p.markAmbiguous e.limits.maxAmbiguousAttempts r seq with
    | none => exact .inl rfl
    | some q =>
      refine .inr ⟨p, q, rfl, ?_, ?_, rfl⟩
      · unfold AccountState.markAmbiguous at hmarked
        split_ifs at hmarked <;> rw [← Option.some.inj hmarked] <;> rfl
      · unfold AccountState.markAmbiguous at hmarked
        split_ifs at hmarked <;> rw [← Option.some.inj hmarked]

/-- **Intent.**  An Intent record keeps what is durable. -/
theorem Durable.intent (h : Durable J disk m n) (happended : disk.Appended t disk')
    (hkind : t.kind = .intent) (hseq : t.sequence.toNat = n) : Durable J disk' m n := by
  have hrecovers : ∀ e : CreditEngine J, Recovers disk' e → ∃ e₁ : CreditEngine J,
      Recovers disk e₁ ∧ e.nextJournalSequence = e₁.nextJournalSequence ∧
        Reflects e.accounts m := by
    intro e he
    obtain ⟨e₁, e₂, j, he₁, hreplay, rfl, -⟩ := he.concat happended.snapshot happended.records
    refine ⟨e₁, he₁, ?_⟩
    cases hreplay with
    | skipped => exact ⟨rfl, h.reflects e₁ he₁⟩
    | intent _ _ pending =>
      refine ⟨markAmbiguous_next e₁ pending t.sequence, ?_⟩
      show Reflects (e₁.markAmbiguous pending t.sequence).accounts m
      rcases markAmbiguous_accounts e₁ pending t.sequence with
        hsame | ⟨p, q, hp, hessentials, hwindow, hinsert⟩
      · rw [hsame]
        exact h.reflects e₁ he₁
      · rw [hinsert]
        exact (h.reflects e₁ he₁).renote hp hessentials hwindow
    | snapshot _ kind => rw [hkind] at kind; exact absurd kind (by decide)
    | attempt _ kind => rw [hkind] at kind; exact absurd kind (by decide)
  refine ⟨fun e he => ?_, fun e he => ?_, h.behind.appended le_rfl happended hseq.le⟩
  · obtain ⟨-, -, -, hreflects⟩ := hrecovers e he
    exact hreflects
  · obtain ⟨e₁, he₁, hnext, -⟩ := hrecovers e he
    rw [hnext]
    exact h.next e₁ he₁

/-- **Attempt.**  An Attempt record moves what is durable to the accounts behind it. -/
theorem Durable.attempt (h : Durable J disk m n) (happended : disk.Appended t disk')
    (hkind : t.kind = .attempt) (hseq : t.sequence.toNat = n + 1) (hn : n + 2 < 2 ^ 64)
    {d : DurableAttempt} (hwritten : d.Written) (hpayload : t.payload = encodeDurableAttempt d)
    (hcarries : Carries J d m m') : Durable J disk' m' (n + 2) := by
  have hsucc : (t.sequence + 1).toNat = n + 2 := by
    rw [toNat_add_one (by omega), hseq]
  have hrecovers : ∀ e : CreditEngine J, Recovers disk' e →
      e.nextJournalSequence.toNat = n + 2 ∧ Reflects e.accounts m' := by
    intro e he
    obtain ⟨e₁, e₂, j, he₁, hreplay, rfl, -⟩ := he.concat happended.snapshot happended.records
    have hreflects := h.reflects e₁ he₁
    cases hreplay with
    | skipped hskip =>
      rw [h.behind.uncovered (by omega)] at hskip
      exact absurd hskip (by decide)
    | intent _ kind => rw [hkind] at kind; exact absurd kind (by decide)
    | snapshot _ kind => rw [hkind] at kind; exact absurd kind (by decide)
    | attempt _ _ d' decoded _ x e₃ replay =>
      refine ⟨hsucc, ?_⟩
      rw [hpayload] at decoded
      rcases decodeDurableAttempt_cases hwritten decoded with rfl | ⟨hcreated, himage⟩
      · exact hcarries e₁ e₃ x hreflects replay
      · exact absurd himage (replay.has_image hreflects hcreated)
  refine ⟨fun e he => (hrecovers e he).2, fun e he => ?_,
    h.behind.appended (by omega) happended (by omega)⟩
  rw [(hrecovers e he).1]
  omega

/-- **Snapshot record.**  The record of a snapshot of accounts that reflect what is durable. -/
theorem Durable.snapshotted (h : Durable J disk m n) (happended : disk.Appended t disk')
    (hkind : t.kind = .snapshot) (hseq : t.sequence.toNat = n) (hn : n + 1 < 2 ^ 64)
    {s : DurableState} (hpayload : t.payload = encodeDurableState s)
    (hs : ∀ limits, Reflects (restoredFrom limits ∅ s.accounts) m) {n' : Nat} (hle : n ≤ n')
    (hle' : n' ≤ n + 1) : Durable J disk' m n' := by
  have hsucc : (t.sequence + 1).toNat = n + 1 := by
    rw [toNat_add_one (by omega), hseq]
  have hrecovers : ∀ e : CreditEngine J, Recovers disk' e →
      e.nextJournalSequence.toNat = n + 1 ∧ Reflects e.accounts m := by
    intro e he
    have haddressable : t.payload.length < 2 ^ 64 := by
      refine he.1.1 t ?_
      rw [happended.records]
      exact List.mem_append_right _ List.mem_cons_self
    obtain ⟨e₁, e₂, j, he₁, hreplay, rfl, -⟩ := he.concat happended.snapshot happended.records
    cases hreplay with
    | skipped hskip =>
      rw [h.behind.uncovered hseq.ge] at hskip
      exact absurd hskip (by decide)
    | intent _ kind => rw [hkind] at kind; exact absurd kind (by decide)
    | attempt _ kind => rw [hkind] at kind; exact absurd kind (by decide)
    | snapshot _ _ restored decoded =>
      refine ⟨hsucc, ?_⟩
      rw [hpayload] at decoded haddressable
      rw [decodeDurableState_of_encode haddressable decoded]
      exact hs e₁.limits
  refine ⟨fun e he => (hrecovers e he).2, fun e he => ?_,
    h.behind.appended hle happended (by omega)⟩
  rw [(hrecovers e he).1]
  omega

/-- **Snapshot file.**  Behind a snapshot that covers the whole log. -/
theorem Durable.of_image {image : SnapshotImage} (hsnapshot : disk.snapshot = some image)
    (hcovered : ∀ t ∈ disk.records, t.sequence.toNat ≤ n) (hseq : image.sequence.toNat = n)
    (hn : n + 1 < 2 ^ 64) {s : DurableState} (hpayload : image.payload = encodeDurableState s)
    (hs : ∀ limits, Reflects (restoredFrom limits ∅ s.accounts) m) :
    Durable J disk m (n + 1) := by
  have hsucc : (image.sequence + 1).toNat = n + 1 := by
    rw [toNat_add_one (by omega), hseq]
  have hall : ∀ t ∈ disk.records, t.sequence ≤ image.sequence := by
    intro t ht
    have hle := hcovered t ht
    rw [← hseq] at hle
    exact hle
  refine ⟨fun e he => ?_, fun e he => ?_, ⟨fun t ht => ?_, fun i hi => ?_⟩⟩
  · obtain ⟨restored, haddressable, decoded, haccounts, -⟩ := he.of_snapshot hsnapshot hall
    rw [hpayload] at decoded haddressable
    rw [haccounts, decodeDurableState_of_encode haddressable decoded]
    exact hs e.limits
  · obtain ⟨-, -, -, -, hnext⟩ := he.of_snapshot hsnapshot hall
    rw [hnext, hsucc]
    omega
  · have hle := hcovered t ht
    omega
  · rw [hsnapshot, Option.some.injEq] at hi
    rw [← hi, hseq]
    exact n.lt_succ_self

end Durable

end CreditEngine

end CreditFabric
