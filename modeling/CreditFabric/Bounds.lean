import CreditFabric.Tracking

namespace CreditFabric

open Std (ExtTreeMap)

/-!
# Structural bounds

Every collection of the engine has a bound among the limits.  Accounts, incarnation records and
fences are counted where a call adds one, and a recovery adds none of its own
(`WithinLimits`, `steady_withinLimits`).  The window, the notes and the refusal log bound
themselves at every insertion, but a recovery copies the notes of a snapshot as they are: the
images on the storage were bounded when they were taken (`Capped`, `BoundedDisk`).

The bounds are those of `limits.clamp`, and every boot of a run has the same limits.
-/

/-! ### Incarnation records and fences -/

/-- The records and the fences of an account fit the limits. -/
structure AccountState.WithinLimits (limits : EngineLimits) (a : AccountState) : Prop where
  incarnations : a.incarnations.size ≤ limits.maxIncarnationsPerAccount
  fences : a.fences.length ≤ limits.maxFencesPerAccount

section WithinLimits

variable {limits : EngineLimits} {a a' : AccountState}

/-- An account with no other records and no other fences. -/
theorem AccountState.WithinLimits.of_keys (h : a.WithinLimits limits)
    (hkeys : ∀ i : IncarnationId, a'.incarnations[i]?.isSome = true →
      a.incarnations[i]?.isSome = true)
    (hfences : a'.fences.length ≤ a.fences.length) : a'.WithinLimits limits :=
  ⟨(Lib.size_le_of_keys hkeys).trans h.incarnations, hfences.trans h.fences⟩

/-- Writing a record that is there, or for which there is room. -/
theorem size_setIncarnation {id : IncarnationId} {b : IncarnationRecord}
    (h : a.incarnations.size ≤ limits.maxIncarnationsPerAccount)
    (hroom : a.incarnations[id]? = none →
      a.incarnations.size < limits.maxIncarnationsPerAccount) :
    (a.setIncarnation id b).incarnations.size ≤ limits.maxIncarnationsPerAccount := by
  show (a.incarnations.insert id b).size ≤ _
  rw [ExtTreeMap.size_insert]
  split_ifs with hmem
  · exact h
  · refine hroom ?_
    rw [ExtTreeMap.contains_eq_isSome_getElem?] at hmem
    simpa using hmem

end WithinLimits

namespace CreditEngine

variable {J : Type}

/-- Every decision keeps to the limits. -/
theorem decision_withinLimits {e : CreditEngine J} {r : CreditRequest} {a : AccountState}
    (hadmitted : Admitted e r a) (h : a.WithinLimits e.limits) :
    (e.decision a r).account.WithinLimits e.limits := by
  rcases e.decision_cases a r with ⟨hcase, -⟩ | ⟨hcase, hop⟩ | ⟨hcase, -⟩ <;>
    generalize e.decision a r = d at hcase ⊢
  -- a record is added only where there is room for one
  · cases hcase with
    | leaked leak => exact ⟨size_setIncarnation h.incarnations fun _ => leak.room, h.fences⟩
    | advanced op plan =>
      refine h.of_keys (fun i hi => ?_) le_rfl
      have hget : ((a.incarnations.map fun _ b => b.forgetLiveness)[i]?).isSome = true := hi
      rwa [ExtTreeMap.getElem?_map, Option.isSome_map] at hget
    | fenced op target unfenced room budget =>
      refine ⟨size_setIncarnation h.incarnations room, ?_⟩
      show (a.fences ++ [fenceOf a r]).length ≤ _
      rw [List.length_append]
      exact budget
    | retiredIncarnation op target b found =>
      exact ⟨size_setIncarnation h.incarnations fun hnone => absurd (found.symm.trans hnone) (by simp),
        h.fences⟩
    | _ => exact ⟨h.incarnations, h.fences⟩
  · cases hcase with
    | rejected s => exact h
    | reconciled proof =>
      refine ⟨size_setIncarnation h.incarnations fun hnone => ?_, h.fences⟩
      have hbound := (bound_of_bindAuthority hadmitted.bound).incarnation
      unfold bindIncarnation at hbound
      simp only [hop, if_true, AccountState.findIncarnation, hnone] at hbound
      split_ifs at hbound with hfenced hfull
      exact Nat.not_le.mp hfull
  · cases hcase with
    | refusedBound op hopen b found =>
      exact ⟨size_setIncarnation h.incarnations fun hnone => absurd (found.symm.trans hnone) (by simp),
        h.fences⟩
    | issued op hopen b found =>
      exact ⟨size_setIncarnation h.incarnations fun hnone => absurd (found.symm.trans hnone) (by simp),
        h.fences⟩
    | _ => exact ⟨h.incarnations, h.fences⟩

/-- The condition of a boot under the limits. -/
def Under (limits : EngineLimits) (e : CreditEngine J) (_ : CreditRequest) : Prop :=
  e.limits = limits

/-- What the constructor's clamp makes of zeros. -/
structure Clamped (limits : EngineLimits) : Prop where
  accounts : 1 ≤ limits.maxAccounts
  incarnations : 1 ≤ limits.maxIncarnationsPerAccount
  window : 1 ≤ limits.maxAttemptWindow
  ambiguous : 1 ≤ limits.maxAmbiguousAttempts

/-- Every engine has clamped limits. -/
theorem clamp_clamped (limits : EngineLimits) : Clamped limits.clamp := by
  have hone : ∀ n : Nat, 1 ≤ if n = 0 then 1 else n := by
    intro n
    split_ifs <;> omega
  exact ⟨hone _, hone _, hone _, hone _⟩

variable [Journal J]

omit [Journal J] in
/-- The bounds on an account hold behind every step on it. -/
theorem steady_withinLimits {limits : EngineLimits} (hlimits : Clamped limits) :
    Steady (J := J) (Under limits) fun _ a => a.WithinLimits limits where
  opened e r _ _ := by
    refine ⟨?_, Nat.zero_le _⟩
    show ((∅ : ExtTreeMap UInt64 IncarnationRecord).insert _ _).size ≤ _
    exact ExtTreeMap.size_insert_le.trans hlimits.incarnations
  decided e r a hadmitted hunder _ h := by
    unfold Under at hunder
    subst hunder
    exact decision_withinLimits hadmitted h
  counted key a x hsame h := by
    refine h.of_keys (fun i hi => ?_) (by rw [hsame.fences])
    obtain ⟨b, hb⟩ := Option.isSome_iff_exists.mp hi
    obtain ⟨b₀, hb₀, -⟩ := hsame.back hb
    rw [hb₀]
    rfl
  undone e r a a' hadmitted hunder hd _ h := by
    unfold Under at hunder
    subst hunder
    obtain ⟨-, -, -, hfences⟩ := restoredAccount_header hd
    have hdecided := decision_withinLimits hadmitted h
    rw [hd] at hdecided
    -- the rollback adds no record to those of the decision
    have hkeys : ∀ i : IncarnationId, (restoredAccount a r a').incarnations[i]?.isSome = true →
        a'.incarnations[i]?.isSome = true := by
      classical
      intro i hi
      rw [getElem?_restoredAccount] at hi
      split_ifs at hi with hsaved
      · have hstep := decision_record e a r i
        rw [hd] at hstep
        exact hstep.known hi
      · exact hi
    exact ⟨(Lib.size_le_of_keys hkeys).trans hdecided.incarnations, by rw [hfences]; exact h.fences⟩
  recovered key p a hmirrored h := by
    refine h.of_keys (fun i hi => ?_) (by rw [← hmirrored.shadow.fences]; rfl)
    rw [AccountState.getElem?_forgetLiveness, Option.isSome_map] at hi
    exact hmirrored.shadow.listed i hi

omit [Journal J] in
/-- The number of accounts grows with an Open only. -/
theorem tracked_size {limits : EngineLimits} : Tracked (J := J) (Under limits)
    fun m => m.size ≤ limits.maxAccounts := by
  refine ⟨fun e r m _ _ hunder h hleads => ?_, fun P m hreflects h => ?_⟩
  · unfold Under at hunder
    subst hunder
    have hkept : ∀ {a : AccountState} (x : AccountState), Admitted e r a →
        (e.accounts.insert r.authority.account x).size ≤ e.limits.maxAccounts := by
      intro a x hadmitted
      refine le_trans (Lib.size_le_of_keys fun key hkey => ?_) h
      by_cases hsame : key = r.authority.account
      · rw [hsame, hadmitted.found]
        rfl
      · rwa [Lib.getElem?_insert_of_ne _ _ hsame] at hkey
    cases hleads with
    | same => exact h
    | rejected a hadmitted => exact hkept _ hadmitted
    | opened hopens =>
      refine ExtTreeMap.size_insert_le.trans ?_
      have haccepted := hopens.accepted
      unfold validateOpen at haccepted
      simp only at haccepted
      split_ifs at haccepted with _ _ _ _ _ _ _ hfull
      all_goals omega
    | refused a hadmitted => exact hkept _ hadmitted
    | refusalUndone a hadmitted => exact hkept _ hadmitted
    | applied a hadmitted => exact hkept _ hadmitted
    | undone a hadmitted => exact hkept _ hadmitted
  · refine le_trans (Lib.size_le_of_keys fun key hkey => ?_) h
    rw [ExtTreeMap.getElem?_map, Option.isSome_map] at hkey
    obtain ⟨p, hp⟩ := Option.isSome_iff_exists.mp hkey
    obtain ⟨a, ha⟩ := hreflects.known key p hp
    rw [ha]
    rfl

end CreditEngine

/-! ### The window bounds itself -/

namespace AttemptWindow

/-- The queue fits the limit, both indices stay behind it. -/
structure Bounded (w : AttemptWindow) : Prop where
  order : w.order.length ≤ w.limit
  keys : ∀ (k : WindowKey) (entry : WindowEntry), w.byKey[k]? = some entry → k ∈ w.order
  attempts : ∀ (id : AttemptId) (k : WindowKey), w.byAttempt[id]? = some k →
    ∃ (k' : WindowKey) (entry : WindowEntry), w.byKey[k']? = some entry ∧ entry.attempt = id

/-- Whatever was in the queue and in the indices, the eviction loop bounds them. -/
private theorem evict_bounded (limit : Nat) {order : List WindowKey}
    {byKey : ExtTreeMap WindowKey WindowEntry} {byAttempt : ExtTreeMap AttemptId WindowKey}
    (hkeys : ∀ (k : WindowKey) (entry : WindowEntry), byKey[k]? = some entry → k ∈ order)
    (hattempts : ∀ (id : AttemptId) (k : WindowKey), byAttempt[id]? = some k →
      ∃ (k' : WindowKey) (entry : WindowEntry), byKey[k']? = some entry ∧ entry.attempt = id) :
    (evict limit order byKey byAttempt).Bounded ∧
      (evict limit order byKey byAttempt).limit = limit := by
  -- induction on the order: each turn evicts the oldest key
  induction order generalizing byKey byAttempt with
  | nil => exact ⟨⟨Nat.zero_le _, hkeys, hattempts⟩, rfl⟩
  | cons oldest rest ih =>
    unfold evict
    split_ifs with hlong
    swap
    · refine ⟨⟨?_, hkeys, hattempts⟩, rfl⟩
      show rest.length + 1 ≤ limit
      omega
    -- a key without an entry is dropped alone
    cases hentry : byKey[oldest]? with
    | none =>
      refine ih (fun k entry hk => ?_) hattempts
      rcases List.mem_cons.mp (hkeys k entry hk) with rfl | hrest
      · rw [hentry] at hk
        exact absurd hk (by simp)
      · exact hrest
    | some entry =>
      refine ih (fun k entry' hk => ?_) fun id k hid => ?_
      · have hne : k ≠ oldest := by
          rintro rfl
          rw [ExtTreeMap.getElem?_erase_self] at hk
          exact absurd hk (by simp)
        rw [Lib.getElem?_erase_of_ne _ hne] at hk
        exact (List.mem_cons.mp (hkeys k entry' hk)).resolve_left hne
      · -- the identity that is left is not the evicted one, so its entry is another one
        have hne : id ≠ entry.attempt := by
          rintro rfl
          rw [ExtTreeMap.getElem?_erase_self] at hid
          exact absurd hid (by simp)
        rw [Lib.getElem?_erase_of_ne _ hne] at hid
        obtain ⟨k', entry', hk', hattempt⟩ := hattempts id k hid
        refine ⟨k', entry', ?_, hattempt⟩
        rw [Lib.getElem?_erase_of_ne _ ?_]
        · exact hk'
        · rintro rfl
          rw [hentry, Option.some.injEq] at hk'
          exact hne (by rw [← hattempt, hk'])

/-- An insertion keeps a window within its limit. -/
theorem Bounded.insert {w : AttemptWindow} (h : w.Bounded) (entry : WindowEntry) :
    (w.insert entry).Bounded ∧ (w.insert entry).limit = w.limit := by
  unfold AttemptWindow.insert
  refine evict_bounded w.limit (fun k entry' hk => ?_) fun id k hid => ?_
  · rw [List.mem_append, List.mem_singleton]
    by_cases hkey : k = entry.key
    · exact .inr hkey
    · rw [Lib.getElem?_insert_of_ne _ _ hkey] at hk
      exact .inl (h.keys k entry' hk)
  · by_cases hsame : id = entry.attempt
    · exact ⟨entry.key, entry, ExtTreeMap.getElem?_insert_self, hsame.symm⟩
    rw [Lib.getElem?_insert_of_ne _ _ hsame] at hid
    -- an identity that is left belongs to another entry than the one written over
    have hold : ∃ (k' : WindowKey) (entry' : WindowEntry), w.byKey[k']? = some entry' ∧
        entry'.attempt = id ∧ k' ≠ entry.key := by
      cases hprevious : w.byKey[entry.key]? with
      | none =>
        rw [hprevious] at hid
        obtain ⟨k', entry', hk', hattempt⟩ := h.attempts id k hid
        refine ⟨k', entry', hk', hattempt, ?_⟩
        rintro rfl
        rw [hprevious] at hk'
        exact absurd hk' (by simp)
      | some previous =>
        rw [hprevious] at hid
        simp only at hid
        have hne : id ≠ previous.attempt := by
          rintro rfl
          rw [ExtTreeMap.getElem?_erase_self] at hid
          exact absurd hid (by simp)
        rw [Lib.getElem?_erase_of_ne _ hne] at hid
        obtain ⟨k', entry', hk', hattempt⟩ := h.attempts id k hid
        refine ⟨k', entry', hk', hattempt, ?_⟩
        rintro rfl
        rw [hprevious, Option.some.injEq] at hk'
        exact hne (by rw [← hattempt, hk'])
    obtain ⟨k', entry', hk', hattempt, hne⟩ := hold
    exact ⟨k', entry', by rw [Lib.getElem?_insert_of_ne _ _ hne]; exact hk', hattempt⟩

/-- A new window is within its limit. -/
theorem make_bounded {limit : Nat} (h : 1 ≤ limit) :
    (AttemptWindow.make limit).Bounded ∧ (AttemptWindow.make limit).limit = limit := by
  refine ⟨⟨Nat.zero_le _, fun k entry hk => absurd hk (by simp [make]), fun id k hid =>
    absurd hid (by simp [make])⟩, ?_⟩
  unfold make
  rw [if_neg (by omega)]

/-- The sizes of the queue and of both indices. -/
theorem Bounded.sizes {w : AttemptWindow} (h : w.Bounded) :
    w.order.length ≤ w.limit ∧ w.byKey.size ≤ w.limit ∧ w.byAttempt.size ≤ w.limit := by
  have hkeys : w.byKey.size ≤ w.limit := (Lib.size_le_length h.keys).trans h.order
  refine ⟨h.order, hkeys, ?_⟩
  have hlength : (w.byKey.toList.map fun entry => entry.2.attempt).length = w.byKey.size := by
    rw [List.length_map, ExtTreeMap.length_toList]
  refine le_trans (Lib.size_le_length fun id k hid => ?_) (hlength.trans_le hkeys)
  obtain ⟨k', entry, hk', hattempt⟩ := h.attempts id k hid
  rw [List.mem_map]
  exact ⟨(k', entry), ExtTreeMap.mem_toList_iff_getElem?_eq_some.mpr hk', hattempt⟩

end AttemptWindow

/-! ### The collections of an account -/

/-- The window, the notes and the refusal log of an account fit the limits. -/
structure AccountState.Capped (limits : EngineLimits) (a : AccountState) : Prop where
  window : a.window.Bounded
  limit : a.window.limit = limits.maxAttemptWindow
  ambiguous : a.ambiguous.length ≤ limits.maxAmbiguousAttempts
  refusals : a.refusals.length ≤ limits.maxRefusalLog

section Capped

variable {limits : EngineLimits} {a a' : AccountState}

/-- The three collections of `a'` are those of `a`. -/
structure AccountState.SameCollections (a a' : AccountState) : Prop where
  window : a'.window = a.window
  ambiguous : a'.ambiguous = a.ambiguous
  refusals : a'.refusals = a.refusals

/-- The caps speak of the collections only. -/
theorem AccountState.Capped.congr (h : a.Capped limits) (hsame : a.SameCollections a') :
    a'.Capped limits :=
  ⟨by rw [hsame.window]; exact h.window, by rw [hsame.window]; exact h.limit,
    by rw [hsame.ambiguous]; exact h.ambiguous, by rw [hsame.refusals]; exact h.refusals⟩

/-- The count of a commit leaves the collections alone. -/
theorem countCommitted_sameCollections (a : AccountState) (caller : IncarnationId) :
    a.SameCollections (countCommitted a caller) := by
  unfold countCommitted
  rw [AccountState.updateIncarnation_eq]
  exact ⟨rfl, rfl, rfl⟩

/-- The count of a refusal leaves the collections alone. -/
theorem countRefused_sameCollections (a : AccountState) (caller : IncarnationId) :
    a.SameCollections (countRefused a caller) := by
  unfold countRefused
  rw [AccountState.updateIncarnation_eq]
  exact ⟨rfl, rfl, rfl⟩

/-- A published entry stays within the window. -/
theorem AccountState.Capped.publish (h : a.Capped limits) (r : CreditRequest)
    (o : CreditOutcome) : (a.publishWindow r o).Capped limits := by
  obtain ⟨hbounded, hlimit⟩ := h.window.insert (windowEntry r o)
  refine ⟨?_, ?_, ?_, ?_⟩
  · rw [window_publishWindow]
    exact hbounded
  · rw [window_publishWindow, hlimit]
    exact h.limit
  · unfold AccountState.publishWindow AccountState.resolveAmbiguous
    simp only
    rw [AccountState.updateIncarnation_eq]
    exact (List.length_filter_le _ _).trans h.ambiguous
  · rw [AccountState.publishWindow_eq]
    exact h.refusals

/-- A recorded refusal stays within the refusal log. -/
theorem AccountState.Capped.recordRefusal (h : a.Capped limits) (r : CreditRequest)
    (o : CreditOutcome) : (a.recordRefusal limits.maxRefusalLog r o).Capped limits := by
  refine ⟨?_, ?_, ?_, ?_⟩
  · rw [AccountState.recordRefusal_eq]
    exact h.window
  · rw [AccountState.recordRefusal_eq]
    exact h.limit
  · rw [AccountState.recordRefusal_eq]
    exact h.ambiguous
  · have hrefusals := h.refusals
    unfold AccountState.recordRefusal
    simp only
    split_ifs with hroom
    · rw [List.length_append]
      exact hroom
    · rw [List.length_set]
      exact hrefusals

end Capped

namespace CreditEngine

variable {J : Type}

/-- No decision touches the collections. -/
theorem decision_sameCollections (e : CreditEngine J) (a : AccountState) (r : CreditRequest) :
    a.SameCollections (e.decision a r).account := by
  rcases e.decision_cases a r with ⟨hcase, -⟩ | ⟨hcase, -⟩ | ⟨hcase, -⟩ <;>
    generalize e.decision a r = d at hcase ⊢
  · cases hcase <;> exact ⟨rfl, rfl, rfl⟩
  · cases hcase <;> exact ⟨rfl, rfl, rfl⟩
  · cases hcase <;> exact ⟨rfl, rfl, rfl⟩

/-- The account an Open creates. -/
private theorem openedAccount_capped {limits : EngineLimits} (hlimits : Clamped limits)
    (r : CreditRequest) : (openedAccount limits r).Capped limits := by
  obtain ⟨hbounded, hlimit⟩ := AttemptWindow.make_bounded hlimits.window
  exact ⟨hbounded, hlimit, Nat.zero_le _, Nat.zero_le _⟩

/-- Whatever a call leads to keeps to the limits. -/
theorem Leads.capped {e : CreditEngine J} (hlimits : Clamped e.limits) {r : CreditRequest}
    {m : ExtTreeMap UInt64 AccountState} (hleads : Leads e r m)
    (h : Everywhere (fun _ a => a.Capped e.limits) e.accounts) :
    Everywhere (fun _ a => a.Capped e.limits) m := by
  have hdecision : ∀ {a : AccountState}, Admitted e r a →
      (e.decision a r).account.Capped e.limits := fun {a} hadmitted =>
    (h _ a hadmitted.found).congr (decision_sameCollections e a r)
  cases hleads with
  | same => exact h
  | rejected a hadmitted s a' hd =>
    have ha' := hdecision hadmitted
    rw [hd] at ha'
    exact h.insert ha'
  | opened hopens => exact h.insert ((openedAccount_capped hlimits r).publish r _)
  | refused a hadmitted s a' hd =>
    have ha' := hdecision hadmitted
    rw [hd] at ha'
    have hcounted := ha'.congr (countRefused_sameCollections a' r.authority.incarnation)
    exact h.insert ((hcounted.publish r _).recordRefusal r _)
  | refusalUndone a hadmitted s a' hd =>
    have ha' := hdecision hadmitted
    rw [hd] at ha'
    exact h.insert ha'
  | applied a hadmitted a' hd =>
    have ha' := hdecision hadmitted
    rw [hd] at ha'
    have hcounted := ha'.congr (countCommitted_sameCollections a' r.authority.incarnation)
    exact h.insert (hcounted.publish r _)
  | undone a hadmitted a' hd =>
    have ha' := hdecision hadmitted
    rw [hd] at ha'
    have hcounted := ha'.congr (countCommitted_sameCollections a' r.authority.incarnation)
    exact h.insert (AccountState.Capped.congr hcounted ⟨rfl, rfl, rfl⟩)

end CreditEngine

/-! ### The images on the storage -/

/-- The image was taken of accounts with at most `n` notes each. -/
def BoundedImage (n : Nat) (payload : List UInt8) : Prop :=
  ∃ s : DurableState, payload = encodeDurableState s ∧ ∀ d ∈ s.accounts, d.ambiguous.length ≤ n

/-- A journal call that hands over only bounded images. -/
def JournalEvent.BoundedBy (n : Nat) : JournalEvent → Prop
  | .appended t _ => t.kind = .snapshot → BoundedImage n t.payload
  | .wroteSnapshot i _ => BoundedImage n i.payload
  | _ => True

/-- The images on the storage are bounded. -/
structure BoundedDisk (n : Nat) (d : Disk) : Prop where
  records : ∀ t ∈ d.records, t.kind = .snapshot → BoundedImage n t.payload
  snapshot : ∀ i, d.snapshot = some i → BoundedImage n i.payload

/-- A journal call with bounded contents leaves bounded contents. -/
theorem BoundedDisk.after {n : Nat} {d d' : Disk} (h : BoundedDisk n d) {ev : JournalEvent}
    (hev : ev.BoundedBy n) (hd' : d' ∈ d.after ev) : BoundedDisk n d' := by
  have hsame : d' = d → BoundedDisk n d' := by
    rintro rfl
    exact h
  cases ev with
  | appended t s =>
    rcases Disk.after_appended hd' with happended | ⟨heq, -⟩
    · refine ⟨fun t' ht' hkind => ?_, fun i hi => ?_⟩
      · rw [happended.records, List.mem_append, List.mem_singleton] at ht'
        rcases ht' with hold | rfl
        · exact h.records t' hold hkind
        · exact hev hkind
      · rw [happended.snapshot] at hi
        exact h.snapshot i hi
    · exact hsame heq
  | wroteSnapshot i s =>
    rcases Disk.after_wroteSnapshot hd' with rfl | ⟨heq, -⟩
    · refine ⟨h.records, fun i' hi' => ?_⟩
      rw [← Option.some.inj hi']
      exact hev
    · exact hsame heq
  | rotated k s =>
    obtain ⟨hsnapshot, -, hrecords⟩ := Disk.after_rotated hd'
    refine ⟨fun t ht => h.records t (hrecords t ht), fun i hi => ?_⟩
    rw [hsnapshot] at hi
    exact h.snapshot i hi
  | _ => exact hsame (List.mem_singleton.mp hd')

/-- The same of any number of journal calls. -/
theorem BoundedDisk.afterAll {n : Nat} {d d' : Disk} (h : BoundedDisk n d)
    {evs : List JournalEvent} (hevs : ∀ ev ∈ evs, ev.BoundedBy n) (hd' : d' ∈ d.afterAll evs) :
    BoundedDisk n d' := by
  induction evs generalizing d with
  | nil =>
    rw [Disk.mem_afterAll_nil.mp hd']
    exact h
  | cons ev evs ih =>
    obtain ⟨d₁, hd₁, hrest⟩ := Disk.mem_afterAll_cons.mp hd'
    exact ih (h.after (hevs ev List.mem_cons_self) hd₁)
      (fun ev' hev' => hevs ev' (List.mem_cons_of_mem _ hev')) hrest

namespace CreditEngine

variable {J : Type}

/-- The image of accounts with at most `n` notes each. -/
theorem durableState_bounded {e : CreditEngine J} {n : Nat}
    (h : Everywhere (fun _ a => a.ambiguous.length ≤ n) e.accounts) :
    BoundedImage n (encodeDurableState e.durableState) := by
  refine ⟨e.durableState, rfl, fun d hd => ?_⟩
  obtain ⟨key, a, ha, rfl⟩ := (mem_durableState e d).mp hd
  exact h key a ha

/-- A snapshot writes bounded contents. -/
theorem snapshotTrace_bounded {e : CreditEngine (Observed J)} {n : Nat}
    (h : Everywhere (fun _ a => a.ambiguous.length ≤ n) e.accounts) {s : Status}
    {events : List JournalEvent} (htrace : SnapshotTrace e s events) :
    ∀ ev ∈ events, ev.BoundedBy n := by
  have himage : BoundedImage n e.snapshotRecord.payload := durableState_bounded h
  have hwritten : BoundedImage n e.snapshotImage.payload := durableState_bounded h
  cases htrace with
  | appendFailed s hs => simpa [JournalEvent.BoundedBy] using fun _ => himage
  | writeFailed s₁ s h₁ hs => simpa [JournalEvent.BoundedBy] using ⟨fun _ => himage, hwritten⟩
  | rotateFailed s₁ s₂ s h₁ h₂ hs =>
    simpa [JournalEvent.BoundedBy] using ⟨fun _ => himage, hwritten⟩
  | durable s₁ s₂ s₃ h₁ h₂ h₃ =>
    simpa [JournalEvent.BoundedBy] using ⟨fun _ => himage, hwritten⟩

variable [Journal J]

/-- The journal calls of a settled decision. -/
theorem settle_bounded {e : CreditEngine (Observed J)} {n : Nat}
    (h : Everywhere (fun _ a => a.ambiguous.length ≤ n) e.accounts) (r : CreditRequest)
    (o : CreditOutcome) (a : AccountState) (c : Bool)
    {f g : CreditEngine (Observed J) → CreditEngine (Observed J)}
    (hf : ∀ e', (f e').journal = e'.journal) (hg : ∀ e', (g e').journal = e'.journal) :
    ∃ events, (e.settle r o a c f g).2.journal.log = e.journal.log ++ events ∧
      ∀ ev ∈ events, ev.BoundedBy n := by
  obtain ⟨events, hlog, htrace⟩ := persistLocked_trace e r o a c
  refine ⟨events, ?_, ?_⟩
  · rw [← hlog]
    cases hok : (e.persistLocked r o a c).1.ok with
    | false =>
      rw [settle_of_failed hok]
      exact congrArg Observed.log (hf _)
    | true =>
      rw [settle_of_ok hok]
      exact congrArg Observed.log (hg _)
  · generalize (e.persistLocked r o a c).1 = status at htrace
    have hintent : (e.intentRecord r).kind ≠ .snapshot := fun hkind =>
      absurd (show JournalRecordKind.intent = .snapshot from hkind) (by decide)
    have hattempt : (e.attemptRecord r o a c).kind ≠ .snapshot := fun hkind =>
      absurd (show JournalRecordKind.attempt = .snapshot from hkind) (by decide)
    cases htrace with
    | intentFailed s hs => simpa [JournalEvent.BoundedBy] using fun hkind => absurd hkind hintent
    | attemptFailed s₁ s h₁ hs =>
      simpa [JournalEvent.BoundedBy] using
        ⟨fun hkind => absurd hkind hintent, fun hkind => absurd hkind hattempt⟩
    | kept s₁ s₂ h₁ h₂ =>
      simpa [JournalEvent.BoundedBy] using
        ⟨fun hkind => absurd hkind hintent, fun hkind => absurd hkind hattempt⟩
    | rotated s₁ s₂ s more h₁ h₂ hsnap =>
      have hmore := snapshotTrace_bounded (e := e.afterDecision r o a c) h hsnap
      simpa [JournalEvent.BoundedBy] using
        ⟨fun hkind => absurd hkind hintent, fun hkind => absurd hkind hattempt, hmore⟩

/-- The journal calls of a call. -/
theorem apply_bounded {e : CreditEngine (Observed J)} {n : Nat}
    (h : Everywhere (fun _ a => a.ambiguous.length ≤ n) e.accounts) (r : CreditRequest) :
    ∃ events, (e.apply r).2.journal.log = e.journal.log ++ events ∧
      ∀ ev ∈ events, ev.BoundedBy n := by
  have hnone : ∃ events, e.journal.log = e.journal.log ++ events ∧
      ∀ ev ∈ events, JournalEvent.BoundedBy n ev :=
    ⟨[], (List.append_nil _).symm, fun _ hev => absurd hev List.not_mem_nil⟩
  -- a decision writes no note
  have hdecision : ∀ {a : AccountState}, Admitted e r a →
      (e.decision a r).account.ambiguous.length ≤ n := by
    intro a hadmitted
    rw [(decision_sameCollections e a r).ambiguous]
    exact h _ a hadmitted.found
  have hcase := e.apply_cases r
  generalize e.apply r = result at hcase ⊢
  cases hcase with
  | answered => exact hnone
  | absorbed => exact hnone
  | opened hopens =>
    exact settle_bounded (e := e.opening r) (h.insert (Nat.zero_le _)) r _ _ _ (fun _ => rfl)
      fun _ => rfl
  | decided a hadmitted =>
    have ha' := hdecision hadmitted
    unfold settleDecision follow
    cases hd : e.decision a r with
    | reject s a' => exact hnone
    | refuse s a' =>
      rw [hd] at ha'
      have hcounted : (countRefused a' r.authority.incarnation).ambiguous.length ≤ n := by
        rw [(countRefused_sameCollections _ _).ambiguous]
        exact ha'
      exact settle_bounded (e := e.refusing r a') (h.insert hcounted) r _ _ _ (fun _ => rfl)
        fun _ => rfl
    | proceed a' =>
      rw [hd] at ha'
      have hcounted : (countCommitted a' r.authority.incarnation).ambiguous.length ≤ n := by
        rw [(countCommitted_sameCollections _ _).ambiguous]
        exact ha'
      exact settle_bounded (e := e.applying r a') (h.insert hcounted) r _ _ _ (fun _ => rfl)
        fun _ => rfl

/-- The journal calls of an explicit snapshot. -/
theorem snapshot_bounded {e : CreditEngine (Observed J)} {n : Nat}
    (h : Everywhere (fun _ a => a.ambiguous.length ≤ n) e.accounts) :
    ∃ events, e.snapshot.2.journal.log = e.journal.log ++ events ∧
      ∀ ev ∈ events, ev.BoundedBy n := by
  have hnone : ∃ events, e.journal.log = e.journal.log ++ events ∧
      ∀ ev ∈ events, JournalEvent.BoundedBy n ev :=
    ⟨[], (List.append_nil _).symm, fun _ hev => absurd hev List.not_mem_nil⟩
  unfold snapshot
  split_ifs
  · exact hnone
  · exact hnone
  · obtain ⟨events, hlog, htrace⟩ := (snapshotLocked_snapshotted e).trace
    exact ⟨events, hlog, snapshotTrace_bounded h htrace⟩

/-! ### What a recovery installs -/

section Recovered

variable {limits : EngineLimits}

omit [Journal J] in
/-- The places of a snapshot are inserted one after the other. -/
private theorem restoreWindow_bounded (hlimits : Clamped limits)
    (identities : List (UInt64 × UInt64)) :
    (restoreWindow limits.maxAttemptWindow identities).Bounded ∧
      (restoreWindow limits.maxAttemptWindow identities).limit = limits.maxAttemptWindow := by
  have hfold : ∀ w : AttemptWindow, w.Bounded → w.limit = limits.maxAttemptWindow →
      (identities.foldl (fun w place => w.insert
        { key := { incarnation := place.1, sequence := place.2 },
          status := .refused .attemptUnknown }) w).Bounded ∧
      (identities.foldl (fun w place => w.insert
        { key := { incarnation := place.1, sequence := place.2 },
          status := .refused .attemptUnknown }) w).limit = limits.maxAttemptWindow := by
    induction identities with
    | nil => exact fun w hw hlimit => ⟨hw, hlimit⟩
    | cons place rest ih =>
      intro w hw hlimit
      obtain ⟨hbounded, hkept⟩ := hw.insert
        { key := { incarnation := place.1, sequence := place.2 },
          status := .refused .attemptUnknown }
      exact ih _ hbounded (hkept.trans hlimit)
  obtain ⟨hmade, hlimit⟩ := AttemptWindow.make_bounded hlimits.window
  exact hfold _ hmade hlimit

omit [Journal J] in
/-- The notes of a snapshot are taken over, so their number is that of the image. -/
private theorem restoreAccount_capped (hlimits : Clamped limits) {d : DurableAccount}
    (h : d.ambiguous.length ≤ limits.maxAmbiguousAttempts) :
    (restoreAccount limits d).Capped limits := by
  obtain ⟨hbounded, hlimit⟩ := restoreWindow_bounded hlimits d.attemptWindow
  exact ⟨hbounded, hlimit, h, Nat.zero_le _⟩

omit [Journal J] in
/-- Restored accounts are within the caps. -/
theorem restoredFrom_capped (hlimits : Clamped limits) {l : List DurableAccount}
    (h : ∀ d ∈ l, d.ambiguous.length ≤ limits.maxAmbiguousAttempts)
    {m : ExtTreeMap UInt64 AccountState} (hm : Everywhere (fun _ a => a.Capped limits) m) :
    Everywhere (fun _ a => a.Capped limits) (restoredFrom limits m l) := by
  induction l generalizing m with
  | nil => exact hm
  | cons d rest ih =>
    refine ih (fun d' hd' => h d' (List.mem_cons_of_mem _ hd')) (hm.insert ?_)
    exact restoreAccount_capped hlimits (h d List.mem_cons_self)

omit [Journal J] in
/-- The oldest note makes room for a new one. -/
theorem markAmbiguous_capped (hlimits : Clamped limits) {a a' : AccountState}
    (h : a.Capped limits) {r : CreditRequest} {seq : UInt64}
    (hmarked : a.markAmbiguous limits.maxAmbiguousAttempts r seq = some a') :
    a'.Capped limits := by
  have hroom := hlimits.ambiguous
  have hnotes := h.ambiguous
  unfold AccountState.markAmbiguous at hmarked
  simp only at hmarked
  split_ifs at hmarked with hknown hfull
  · rw [← Option.some.inj hmarked]
    refine ⟨h.window, h.limit, ?_, h.refusals⟩
    rw [List.length_append, List.length_tail, List.length_singleton]
    omega
  · rw [← Option.some.inj hmarked]
    refine ⟨h.window, h.limit, ?_, h.refusals⟩
    rw [List.length_append, List.length_singleton]
    omega

omit [Journal J] in
/-- No replayed decision touches the collections. -/
theorem replayDecision_sameCollections {p x : AccountState} {d : DurableAttempt} {s : Status}
    (h : replayDecision p d = (s, x)) (hs : s.ok = true) : p.SameCollections x := by
  cases happlied : d.outcome.applied with
  | true =>
    obtain ⟨p', hreplayed, rfl⟩ := replayDecision_applied h hs happlied
    have hsame : p.SameCollections p' := by
      rw [hreplayed.frame]
      exact ⟨rfl, rfl, rfl⟩
    have hcounted := countCommitted_sameCollections p' d.request.authority.incarnation
    exact ⟨hcounted.window.trans hsame.window, hcounted.ambiguous.trans hsame.ambiguous,
      hcounted.refusals.trans hsame.refusals⟩
  | false =>
    cases hdecided : d.outcome.decided with
    | true =>
      rw [replayDecision_refused h happlied hdecided]
      exact countRefused_sameCollections p d.request.authority.incarnation
    | false =>
      unfold replayDecision at h
      simp only [happlied, hdecided, Bool.false_eq_true, if_false] at h
      obtain rfl : p = x := congrArg Prod.snd h
      exact ⟨rfl, rfl, rfl⟩

omit [Journal J] in
/-- One replayed attempt. -/
theorem AttemptReplay.capped {e e' : CreditEngine J} {d : DurableAttempt} {x : AccountState}
    (hreplay : AttemptReplay e d x e') (hlimits : Clamped e.limits)
    (h : Everywhere (fun _ a => a.Capped e.limits) e.accounts) :
    Everywhere (fun _ a => a.Capped e.limits) e'.accounts := by
  have hx : x.Capped e.limits := by
    rcases hreplay.decision with ⟨-, -, rfl⟩ | ⟨-, p, s, hp, hdecision, hs⟩
    · obtain ⟨hbounded, hlimit⟩ := AttemptWindow.make_bounded hlimits.window
      exact ⟨hbounded, hlimit, Nat.zero_le _, Nat.zero_le _⟩
    · exact (h _ p hp).congr (replayDecision_sameCollections hdecision hs)
  rw [hreplay.accounts]
  refine h.insert ?_
  split_ifs
  · exact hx.publish _ _
  · exact hx

omit [Journal J] in
/-- One replayed record. -/
theorem RecordReplay.capped {e e' : CreditEngine J} {snap : Option UInt64} {t : JournalRecord}
    (hreplay : RecordReplay e snap t e') (hlimits : Clamped e.limits)
    (haddressable : t.payload.length < 2 ^ 64)
    (himage : t.kind = .snapshot → BoundedImage e.limits.maxAmbiguousAttempts t.payload)
    (h : Everywhere (fun _ a => a.Capped e.limits) e.accounts) :
    Everywhere (fun _ a => a.Capped e.limits) e'.accounts := by
  cases hreplay with
  | skipped => exact h
  | intent _ kind pending =>
    unfold markAmbiguous
    cases hfound : e.accounts[pending.authority.account]? with
    | none => exact h
    | some a =>
      simp only
      cases hmarked : a.markAmbiguous e.limits.maxAmbiguousAttempts pending t.sequence with
      | none => exact h
      | some a' => exact h.insert (markAmbiguous_capped hlimits (h _ a hfound) hmarked)
  | snapshot _ kind restored decoded =>
    obtain ⟨s, hpayload, hbounded⟩ := himage kind
    rw [hpayload] at decoded haddressable
    rw [decodeDurableState_of_encode haddressable decoded]
    exact restoredFrom_capped hlimits hbounded fun _ _ hnone => absurd hnone (by simp)
  | attempt _ _ d _ _ x e₁ replay => exact replay.capped hlimits h

/-- A recovery keeps the limits and the latch of its engine. -/
theorem recover_limits {e : CreditEngine J} {disk : Disk} {j' : J}
    (hyields : Yields e.journal disk.snapshot disk.records j') (hok : e.recover.1.ok = true) :
    e.recover.2.limits = e.limits ∧ e.recover.2.journalFailed = e.journalFailed := by
  obtain ⟨j, s, e₁, e₂, hload, hs, hreplays, heq⟩ := recover_inv hyields hok
  have hloaded := loadSnapshot_untouched { e with journal := j }.reset disk.snapshot
  rw [hload] at hloaded
  have hreplayed : e₂.limits = e.limits ∧ e₂.journalFailed = e.journalFailed :=
    hreplays.keeps
      (P := fun e' => e'.limits = e.limits ∧ e'.journalFailed = e.journalFailed)
      (fun _ _ h => h)
      (fun e' e'' t s' _ h hrecord _ => by
        have hframe := replayRecord_untouched e' (disk.snapshot.map SnapshotImage.sequence) t
        rw [hrecord] at hframe
        exact ⟨hframe.limits.trans h.1, hframe.journalFailed.trans h.2⟩)
      ⟨hloaded.limits, hloaded.journalFailed⟩
  rw [heq]
  exact hreplayed

/-- **Recovery.**  Whatever the storage holds, the accounts a recovery installs keep to the
    limits of the recovering engine, if the images did. -/
theorem recover_capped {e : CreditEngine J} {disk : Disk} {j' : J} (hlimits : Clamped e.limits)
    (hdisk : BoundedDisk e.limits.maxAmbiguousAttempts disk) (haddressable : disk.Addressable)
    (hyields : Yields e.journal disk.snapshot disk.records j') (hok : e.recover.1.ok = true) :
    Everywhere (fun _ a => a.Capped e.limits) e.recover.2.accounts := by
  obtain ⟨j, s, e₁, e₂, hload, hs, hreplays, heq⟩ := recover_inv hyields hok
  -- the snapshot restores capped accounts, and each record keeps them capped
  have hnone : Everywhere (fun _ a => a.Capped e.limits)
      (∅ : ExtTreeMap UInt64 AccountState) := fun _ _ ha => absurd ha (by simp)
  have hlimits₁ : e₁.limits = e.limits := by
    have hframe := loadSnapshot_untouched { e with journal := j }.reset disk.snapshot
    rw [hload] at hframe
    exact hframe.limits
  have hloaded : Everywhere (fun _ a => a.Capped e.limits) e₁.accounts := by
    have hinv := loadSnapshot_inv hload hs
    generalize himage : disk.snapshot = image at hinv
    cases hinv with
    | none => exact hnone
    | some image restored decoded =>
      obtain ⟨t, hpayload, hbounded⟩ := hdisk.snapshot image himage
      have hlength := haddressable.2 image himage
      rw [hpayload] at decoded hlength
      rw [decodeDurableState_of_encode hlength decoded]
      exact restoredFrom_capped hlimits hbounded hnone
  have hreplayed := hreplays.keeps
    (P := fun e' => e'.limits = e.limits ∧ Everywhere (fun _ a => a.Capped e.limits) e'.accounts)
    (fun _ _ h => h) (fun e' e'' t s' ht h hrecord hs' => ?_) ⟨hlimits₁, hloaded⟩
  · rw [heq]
    intro key x hx
    change (e₂.accounts.map fun _ a => a.forgetLiveness)[key]? = some x at hx
    rw [ExtTreeMap.getElem?_map, Option.map_eq_some_iff] at hx
    obtain ⟨a, ha, rfl⟩ := hx
    exact (hreplayed.2 key a ha).congr ⟨rfl, rfl, rfl⟩
  · have hframe := replayRecord_untouched e' (disk.snapshot.map SnapshotImage.sequence) t
    rw [hrecord] at hframe
    obtain ⟨hsame, haccounts⟩ := h
    refine ⟨hframe.limits.trans hsame, ?_⟩
    rw [← hsame] at haccounts hlimits hdisk ⊢
    exact (replayRecord_inv hrecord hs').capped hlimits (haddressable.1 t ht)
      (hdisk.records t ht) haccounts

end Recovered

end CreditEngine

/-! ### Runs under one set of limits -/

/-- The account fits the limits in every respect. -/
structure AccountState.Fits (limits : EngineLimits) (a : AccountState) : Prop where
  incarnations : a.incarnations.size ≤ limits.maxIncarnationsPerAccount
  fences : a.fences.length ≤ limits.maxFencesPerAccount
  order : a.window.order.length ≤ limits.maxAttemptWindow
  byKey : a.window.byKey.size ≤ limits.maxAttemptWindow
  byAttempt : a.window.byAttempt.size ≤ limits.maxAttemptWindow
  ambiguous : a.ambiguous.length ≤ limits.maxAmbiguousAttempts
  refusals : a.refusals.length ≤ limits.maxRefusalLog

/-- Both kinds of bounds together. -/
theorem AccountState.WithinLimits.fits {limits : EngineLimits} {a : AccountState}
    (h : a.WithinLimits limits) (hcapped : a.Capped limits) : a.Fits limits := by
  obtain ⟨horder, hkeys, hattempts⟩ := hcapped.window.sizes
  rw [hcapped.limit] at horder hkeys hattempts
  exact ⟨h.incarnations, h.fences, horder, hkeys, hattempts, hcapped.ambiguous, hcapped.refusals⟩

namespace Deployment

open CreditEngine

variable {J : Type} [Journal J] {limits : EngineLimits} {w w' : Deployment J} {acts : List Act}

/-- A run in which every boot has the limits. -/
inductive RunUnder (limits : EngineLimits) (w : Deployment J) : List Act → Deployment J → Prop
  | nil (here : w.engine.limits = limits) : RunUnder limits w [] w
  | concat {acts : List Act} {act : Act} {w₁ w₂ : Deployment J} (run : RunUnder limits w acts w₁)
      (step : Step w₁ act w₂) (here : w₂.engine.limits = limits) :
      RunUnder limits w (acts ++ [act]) w₂

/-- The limits of a run are those of its current engine. -/
theorem RunUnder.here (h : RunUnder limits w acts w') : w'.engine.limits = limits := by
  cases h with
  | nil here => exact here
  | concat _ _ here => exact here

/-- Calls and restarts of such a run meet the limits. -/
theorem RunUnder.runWhere (h : RunUnder limits w acts w') : RunWhere (Under limits) w acts w' := by
  induction h with
  | nil => exact .nil
  | concat run step here ih =>
    refine .concat ih step ?_
    cases step with
    | called => exact run.here
    | snapshotted => trivial
    | restarted _ _ _ _ disk _ crash =>
      obtain ⟨done, hdisk, ⟨r, hr⟩ | hsnapshot⟩ := crash
      · exact ⟨done, hdisk, .inl ⟨r, run.here, hr⟩⟩
      · exact ⟨done, hdisk, .inr hsnapshot⟩

/-- The collections in memory and the images on the storage keep to the limits. -/
structure Capped (limits : EngineLimits) (w : Deployment J) : Prop where
  accounts : Everywhere (fun _ a => a.Capped limits) w.engine.accounts
  disk : BoundedDisk limits.maxAmbiguousAttempts w.disk

/-- **Step lemma.** -/
theorem Capped.step (hlimits : Clamped limits) (h : w.Capped limits)
    (hbefore : w.engine.limits = limits) {act : Act} (hstep : Step w act w')
    (hbehind : w'.engine.limits = limits) : w'.Capped limits := by
  subst hbefore
  have hnotes : Everywhere (fun _ a => a.ambiguous.length ≤ w.engine.limits.maxAmbiguousAttempts)
      w.engine.accounts := fun key a ha => (h.accounts key a ha).ambiguous
  have hcall : ∀ r, ∀ ev ∈ events w.engine (w.engine.apply r).2,
      ev.BoundedBy w.engine.limits.maxAmbiguousAttempts := by
    intro r
    obtain ⟨evs, hlog, hevs⟩ := apply_bounded hnotes r
    rw [events_of_append hlog]
    exact hevs
  have hsnapshot : ∀ ev ∈ events w.engine w.engine.snapshot.2,
      ev.BoundedBy w.engine.limits.maxAmbiguousAttempts := by
    obtain ⟨evs, hlog, hevs⟩ := snapshot_bounded hnotes
    rw [events_of_append hlog]
    exact hevs
  cases hstep with
  | called r disk durable =>
    exact ⟨(apply_leads w.engine r).capped hlimits h.accounts, h.disk.afterAll (hcall r) durable⟩
  | snapshotted disk durable =>
    refine ⟨?_, h.disk.afterAll hsnapshot durable⟩
    show Everywhere _ w.engine.snapshot.2.accounts
    rw [(snapshot_sameLedger w.engine).accounts]
    exact h.accounts
  | restarted limits' journal operator nonce disk o' crash addressable yields ok =>
    have hdisk : BoundedDisk w.engine.limits.maxAmbiguousAttempts disk := by
      obtain ⟨done, hdisk, ⟨r, hr⟩ | hrest⟩ := crash
      · exact h.disk.afterAll (fun ev hev => hcall r ev (hr.subset hev)) hdisk
      · exact h.disk.afterAll (fun ev hev => hsnapshot ev (hrest.subset hev)) hdisk
    -- the recovering engine has the limits it was made with
    have hmade : (make limits' (Observed.mk journal []) operator nonce).limits =
        w.engine.limits := by
      rw [← hbehind]
      exact (recover_limits yields ok).1.symm
    rw [← hmade] at hdisk hlimits ⊢
    exact ⟨recover_capped hlimits hdisk addressable yields ok, hdisk⟩

/-- **Run lemma.** -/
theorem RunUnder.capped (hlimits : Clamped limits) (hrun : RunUnder limits w acts w')
    (h : w.Capped limits) : w'.Capped limits := by
  induction hrun with
  | nil => exact h
  | concat run step here ih => exact ih.step hlimits run.here step here

/-- **Structural bounds.**  In every run over any number of boots with the same limits, zeros
    included, the number of accounts and every collection of every account fit the limits. -/
theorem structural_bounds {limits : EngineLimits} {journal : J} {operator : Incarnation}
    {nonce : Digest128} {acts : List Act} {w : Deployment J}
    (hrun : RunUnder limits.clamp (start limits journal operator nonce) acts w)
    (hn : acts.length ≤ 2 ^ 60) :
    w.engine.accounts.size ≤ limits.clamp.maxAccounts ∧
      ∀ (key : UInt64) (a : AccountState), w.engine.accounts[key]? = some a →
        a.Fits limits.clamp := by
  have hlimits := clamp_clamped limits
  have hnone : ∀ {Q : UInt64 → AccountState → Prop},
      Everywhere Q (∅ : ExtTreeMap UInt64 AccountState) := fun _ _ ha => absurd ha (by simp)
  have hkept := hrun.runWhere.kept (tracked_size.and (steady_withinLimits hlimits).tracked)
    (start_kept ⟨Nat.zero_le _, hnone⟩ limits journal operator nonce) (by omega)
  have hcapped := hrun.capped hlimits
    ⟨hnone, fun t ht => absurd ht List.not_mem_nil, fun i hi => absurd hi (by simp [start])⟩
  obtain ⟨hsize, hwithin⟩ := hkept.live
  exact ⟨hsize, fun key a ha => (hwithin key a ha).fits (hcapped.accounts key a ha)⟩

/-- A deployment can make any calls. -/
theorem RunUnder.calls {w₁ : Deployment J} (h : RunUnder limits w acts w₁)
    (rs : List CreditRequest) : ∃ w₂, RunUnder limits w (acts ++ rs.map .call) w₂ ∧
      w₂.engine = w₁.engine.run rs := by
  induction rs generalizing acts w₁ with
  | nil => exact ⟨w₁, by simpa using h, rfl⟩
  | cons r rs ih =>
    obtain ⟨d, hd⟩ := exists_after w₁.disk (events w₁.engine (w₁.engine.apply r).2)
    have hlimits : (w₁.engine.apply r).2.limits = limits :=
      (apply_sameConfig w₁.engine r).limits.trans h.here
    obtain ⟨w₂, hrun, hengine⟩ := ih (h.concat (.called r d hd) hlimits)
    exact ⟨w₂, by simpa using hrun, hengine⟩

end Deployment

namespace ZeroLimits

open Fixture CreditEngine

/-- The nonce of the fixture's boot. -/
def nonce : Digest128 := ⟨0x32, 0x23⟩

/-- Every limit of the collections is zero. -/
def limits : EngineLimits :=
  { maxAccounts := 0, maxIncarnationsPerAccount := 0, maxFencesPerAccount := 0,
    maxAttemptWindow := 0, maxAmbiguousAttempts := 0, maxRefusalLog := 0 }

/-- An account is opened under them, and one place is kept of its two decisions. -/
theorem opened_fits : ∃ w : Deployment InMemoryJournal,
    Deployment.RunUnder limits.clamp (Deployment.start limits {} me nonce)
      [.restart, .call (request nonce me .open_ 1), .call (request nonce me .issue 2)] w ∧
    (∃ a, w.engine.accounts[account]? = some a ∧ a.window.order.length = 1) ∧
    w.engine.accounts.size ≤ 1 ∧
    ∀ a, w.engine.accounts[account]? = some a → a.Fits limits.clamp := by
  obtain ⟨w₁, hstep, -, hboot⟩ := Deployment.exists_first limits nonce
  have hfirst : Deployment.RunUnder limits.clamp (Deployment.start limits {} me nonce)
      [.restart] w₁ := .concat (.nil rfl) hstep (by rw [hboot]; rfl)
  obtain ⟨w, hrun, hengine⟩ :=
    hfirst.calls [request nonce me .open_ 1, request nonce me .issue 2]
  obtain ⟨hsize, hfits⟩ := Deployment.structural_bounds hrun (by decide)
  refine ⟨w, hrun, ?_, hsize, hfits account⟩
  have hplaces : ((boot limits (Observed.mk ({} : InMemoryJournal) []) nonce).run
      [request nonce me .open_ 1, request nonce me .issue 2]).accounts[account]?.map
        (fun (a : AccountState) => a.window.order.length) = some 1 := by decide +kernel
  rw [← hboot, ← hengine, Option.map_eq_some_iff] at hplaces
  exact hplaces

end ZeroLimits

end CreditFabric
