import CreditFabric.Determined

namespace CreditFabric

open Std (ExtTreeMap)

/-!
# Accounts read back from a snapshot

A snapshot holds an image of every account.  For accounts that keep their invariants the image
is restored under the same keys, with the same records; the window is restored with the latest
places that fit the limit of the recovering engine.
-/

/-! ### One account -/

/-- The records of an account are restored under the same keys. -/
theorem restoreAccount_incarnations {a : AccountState} (limits : EngineLimits)
    (hkeyed : ∀ (i : IncarnationId) (b : IncarnationRecord),
      a.incarnations[i]? = some b → b.id = i) :
    (restoreAccount limits (a.buildDurable true)).incarnations = a.incarnations := by
  show (a.incarnations.toList.map Prod.snd).foldl
    (fun (m : ExtTreeMap UInt64 IncarnationRecord) record => m.insert record.id record) ∅ = _
  -- every record stands under its own number, so inserting them all gives the table back
  have hmem : ∀ b ∈ a.incarnations.toList.map Prod.snd, a.incarnations[b.id]? = some b := by
    intro b hb
    obtain ⟨⟨i, b'⟩, hentry, rfl⟩ := List.mem_map.mp hb
    rw [ExtTreeMap.mem_toList_iff_getElem?_eq_some] at hentry
    rw [hkeyed i b' hentry]
    exact hentry
  have hids : (a.incarnations.toList.map Prod.snd).map IncarnationRecord.id =
      a.incarnations.toList.map Prod.fst := by
    rw [List.map_map]
    refine List.map_congr_left fun ⟨i, b⟩ hentry => ?_
    rw [ExtTreeMap.mem_toList_iff_getElem?_eq_some] at hentry
    exact hkeyed i b hentry
  have hnodup : ((a.incarnations.toList.map Prod.snd).map IncarnationRecord.id).Nodup := by
    rw [hids, ExtTreeMap.map_fst_toList_eq_keys]
    exact ExtTreeMap.nodup_keys
  refine ExtTreeMap.ext_getElem? fun i => ?_
  cases hi : a.incarnations[i]? with
  | none =>
    refine (Lib.getElem?_foldl_insert_of_ne IncarnationRecord.id (fun b => b) _ _
      fun b hb heq => ?_).trans ExtTreeMap.getElem?_empty
    have hfound := hmem b hb
    rw [heq, hi] at hfound
    exact absurd hfound (by simp)
  | some b =>
    have hb : b ∈ a.incarnations.toList.map Prod.snd :=
      List.mem_map.mpr ⟨(i, b), ExtTreeMap.mem_toList_iff_getElem?_eq_some.mpr hi, rfl⟩
    have hfound := Lib.getElem?_foldl_insert_of_mem IncarnationRecord.id (fun b => b) hnodup
      (∅ : ExtTreeMap UInt64 IncarnationRecord) hb
    rw [hkeyed i b hi] at hfound
    exact hfound

/-- The key of a place. -/
def placeKey (place : UInt64 × UInt64) : WindowKey where
  incarnation := place.1
  sequence := place.2

/-- The restored window holds the latest places that fit. -/
theorem restoreWindow_spec (limit : Nat) (identities : List (UInt64 × UInt64))
    (hnodup : (identities.map placeKey).Nodup) :
    (restoreWindow limit identities).Indexed ∧
      (restoreWindow limit identities).order = (identities.map placeKey).drop
        (identities.length - (AttemptWindow.make limit).limit) := by
  have hfold : restoreWindow limit identities = (identities.map fun place =>
      { key := placeKey place, status := .refused .attemptUnknown : WindowEntry }).foldl
        AttemptWindow.insert (.make limit) := by
    rw [List.foldl_map]
    rfl
  have hkeys : (identities.map fun place =>
      { key := placeKey place, status := .refused .attemptUnknown : WindowEntry }).map
        WindowEntry.key = identities.map placeKey := by
    rw [List.map_map]
    rfl
  obtain ⟨hindexed, -, horder⟩ := AttemptWindow.insertAll_spec (AttemptWindow.make_indexed limit)
    (Nat.zero_le _) (identities.map fun place =>
      { key := placeKey place, status := .refused .attemptUnknown : WindowEntry }) (by
        rw [hkeys]
        exact hnodup)
  rw [hfold]
  refine ⟨hindexed, ?_⟩
  rw [horder, hkeys, List.length_map]
  show ([] ++ _ : List WindowKey).drop (0 + _ - _) = _
  rw [List.nil_append, Nat.zero_add]

/-- A restored account has its standing. -/
theorem Standing.restored {key : UInt64} {a : AccountState} (h : Standing key a)
    (limits : EngineLimits) : Standing key (restoreAccount limits (a.buildDurable true)) := by
  have hrecords := restoreAccount_incarnations limits h.keyed
  refine ⟨h.sound.congr rfl rfl rfl, h.account, fun i b hb => ?_, fun i hi => ?_, h.book.nodup⟩
  · rw [hrecords] at hb
    exact h.keyed i b hb
  · rw [hrecords]
    exact h.book.fenced i hi

/-- A restored account has its window. -/
theorem Windowed.restored {a : AccountState} (h : Windowed a)
    (hkeyed : ∀ (i : IncarnationId) (b : IncarnationRecord),
      a.incarnations[i]? = some b → b.id = i) (limits : EngineLimits) :
    Windowed (restoreAccount limits (a.buildDurable true)) := by
  have hplaces : a.window.identities.map placeKey = a.window.order := by
    unfold AttemptWindow.identities
    rw [List.map_map]
    exact List.map_id' a.window.order
  obtain ⟨hindexed, horder⟩ := restoreWindow_spec limits.maxAttemptWindow a.window.identities (by
    rw [hplaces]
    exact h.indexed.nodup)
  refine ⟨hindexed, fun k hk => ?_⟩
  have hmem : k ∈ a.window.order := by
    have hk' : k ∈ (restoreWindow limits.maxAttemptWindow a.window.identities).order := hk
    rw [horder, hplaces] at hk'
    exact List.mem_of_mem_drop hk'
  unfold AccountState.countersAt
  rw [restoreAccount_incarnations limits hkeyed]
  exact h.behind k hmem

namespace CreditEngine

variable {J : Type} [Journal J]

/-! ### All accounts -/

omit [Journal J] in
/-- The image of a snapshot lists every account once. -/
theorem mem_durableState (e : CreditEngine J) (d : DurableAccount) :
    d ∈ e.durableState.accounts ↔
      ∃ (key : UInt64) (a : AccountState), e.accounts[key]? = some a ∧ d = a.buildDurable true := by
  show d ∈ List.mergeSort _ _ ↔ _
  rw [List.mem_mergeSort, List.mem_map]
  constructor
  · rintro ⟨⟨key, a⟩, hentry, rfl⟩
    exact ⟨key, a, ExtTreeMap.mem_toList_iff_getElem?_eq_some.mp hentry, rfl⟩
  · rintro ⟨key, a, ha, rfl⟩
    exact ⟨(key, a), ExtTreeMap.mem_toList_iff_getElem?_eq_some.mpr ha, rfl⟩

omit [Journal J] in
/-- No account is twice in an image. -/
private theorem nodup_durableState {e : CreditEngine J} (h : AllStanding e.accounts) :
    (e.durableState.accounts.map fun d => d.config.account).Nodup := by
  have hkeys : (e.accounts.toList.map fun entry => entry.2.buildDurable true).map
      (fun d => d.config.account) = e.accounts.toList.map Prod.fst := by
    rw [List.map_map]
    refine List.map_congr_left fun ⟨key, a⟩ hentry => ?_
    rw [ExtTreeMap.mem_toList_iff_getElem?_eq_some] at hentry
    exact (h key a hentry).account
  refine ((List.mergeSort_perm _ _).map fun d : DurableAccount => d.config.account).nodup_iff.mpr ?_
  rw [hkeys, ExtTreeMap.map_fst_toList_eq_keys]
  exact ExtTreeMap.nodup_keys

omit [Journal J] in
/-- **What a snapshot restores.** -/
theorem getElem?_restoredFrom {e : CreditEngine J} (h : AllStanding e.accounts)
    (limits : EngineLimits) (key : UInt64) :
    (restoredFrom limits ∅ e.durableState.accounts)[key]? =
      (e.accounts[key]?).map fun a => restoreAccount limits (a.buildDurable true) := by
  have hnodup := nodup_durableState h
  unfold restoredFrom
  cases hkey : e.accounts[key]? with
  | none =>
    refine (Lib.getElem?_foldl_insert_of_ne (fun d : DurableAccount => d.config.account)
      (restoreAccount limits) _ _ fun d hd heq => ?_).trans ExtTreeMap.getElem?_empty
    obtain ⟨key', a, ha, rfl⟩ := (mem_durableState e d).mp hd
    have haccount := (h key' a ha).account
    rw [show (a.buildDurable true).config.account = a.config.account from rfl, haccount] at heq
    rw [heq, hkey] at ha
    exact absurd ha (by simp)
  | some a =>
    have hd : a.buildDurable true ∈ e.durableState.accounts :=
      (mem_durableState e _).mpr ⟨key, a, hkey, rfl⟩
    have hfound := Lib.getElem?_foldl_insert_of_mem
      (fun d : DurableAccount => d.config.account) (restoreAccount limits) hnodup
      (∅ : ExtTreeMap UInt64 AccountState) hd
    have haccount := (h key a hkey).account
    rw [show (a.buildDurable true).config.account = a.config.account from rfl, haccount] at hfound
    exact hfound

end CreditEngine

end CreditFabric
