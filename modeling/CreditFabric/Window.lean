import CreditFabric.Account

namespace CreditFabric

open Std (ExtTreeMap)

/-!
# The bounded attempt window

`insert` appends a decision and drops the oldest ones beyond the limit.  For a window whose
queue has no key twice and whose keys are all indexed (`Indexed`), `evict_spec` says exactly
what is left; `insert_spec` is the same for the insertion of a new key.
-/

namespace AttemptWindow

/-- The queue names every decision once, and every one is found by its key. -/
structure Indexed (w : AttemptWindow) : Prop where
  limit : 1 ≤ w.limit
  nodup : w.order.Nodup
  found : ∀ k ∈ w.order, ∃ entry, w.byKey[k]? = some entry
  listed : ∀ k entry, w.byKey[k]? = some entry → k ∈ w.order

/-- A key that is not in the queue is not found. -/
theorem Indexed.unknown {w : AttemptWindow} (h : w.Indexed) {k : WindowKey}
    (hfresh : k ∉ w.order) : w.byKey[k]? = none := by
  cases hk : w.byKey[k]? with
  | none => rfl
  | some entry => exact absurd (h.listed k entry hk) hfresh

/-- The keys that go when the queue is cut to the limit. -/
def surplus (limit : Nat) (keys : List WindowKey) : List WindowKey :=
  keys.take (keys.length - limit)

/-- **What eviction leaves.** -/
private theorem evict_spec (limit : Nat) (keys : List WindowKey)
    (byKey : ExtTreeMap WindowKey WindowEntry) (byAttempt : ExtTreeMap AttemptId WindowKey)
    (hnodup : keys.Nodup) (hfound : ∀ k ∈ keys, ∃ entry, byKey[k]? = some entry) :
    (evict limit keys byKey byAttempt).order = keys.drop (keys.length - limit) ∧
      (evict limit keys byKey byAttempt).limit = limit ∧
      (∀ k, (evict limit keys byKey byAttempt).byKey[k]? =
        if k ∈ surplus limit keys then none else byKey[k]?) ∧
      ∀ id, (evict limit keys byKey byAttempt).byAttempt[id]? =
        if ∃ k ∈ surplus limit keys, (byKey[k]?).map WindowEntry.attempt = some id then none
        else byAttempt[id]? := by
  induction keys generalizing byKey byAttempt with
  | nil => simp [evict, surplus]
  | cons oldest rest ih =>
    obtain ⟨hfresh, hrest⟩ := List.nodup_cons.mp hnodup
    unfold evict
    by_cases hlong : rest.length + 1 > limit
    · obtain ⟨entry, hentry⟩ := hfound oldest List.mem_cons_self
      have hlength : (oldest :: rest).length - limit = (rest.length - limit) + 1 := by
        rw [List.length_cons]
        omega
      have hsurplus : surplus limit (oldest :: rest) = oldest :: surplus limit rest := by
        unfold surplus
        rw [hlength, List.take_succ_cons]
      -- the remaining keys are other ones, so the index still has them
      have hother : ∀ k ∈ rest, (byKey.erase oldest)[k]? = byKey[k]? := by
        intro k hk
        refine Lib.getElem?_erase_of_ne _ ?_
        rintro rfl
        exact hfresh hk
      have hsub : ∀ k ∈ surplus limit rest, k ∈ rest := fun k hk => List.mem_of_mem_take hk
      rw [if_pos hlong, hentry]
      obtain ⟨horder, hlimit, hkeys, hattempts⟩ := ih (byKey.erase oldest)
        (byAttempt.erase entry.attempt) hrest fun k hk => by
          rw [hother k hk]
          exact hfound k (List.mem_cons_of_mem _ hk)
      refine ⟨?_, hlimit, fun k => ?_, fun id => ?_⟩
      · rw [hlength, List.drop_succ_cons]
        exact horder
      · rw [hkeys, hsurplus]
        by_cases hk : k = oldest
        · rw [hk, if_pos List.mem_cons_self, ExtTreeMap.getElem?_erase_self, ite_self]
        · rw [Lib.getElem?_erase_of_ne _ hk]
          simp only [List.mem_cons, hk, false_or]
      · rw [hattempts, hsurplus]
        simp only [List.mem_cons, exists_eq_or_imp, hentry, Option.map_some, Option.some.injEq]
        have hsame : (∃ k ∈ surplus limit rest,
              ((byKey.erase oldest)[k]?).map WindowEntry.attempt = some id) ↔
            ∃ k ∈ surplus limit rest, (byKey[k]?).map WindowEntry.attempt = some id :=
          exists_congr fun k => and_congr_right fun hk => by rw [hother k (hsub k hk)]
        by_cases hid : entry.attempt = id
        · subst hid
          simp only [ExtTreeMap.getElem?_erase_self, ite_self, true_or, if_true]
        · rw [Lib.getElem?_erase_of_ne _ (Ne.symm hid)]
          simp only [hsame, hid, false_or]
    · have hlength : (oldest :: rest).length - limit = 0 := by
        rw [List.length_cons]
        omega
      have hsurplus : surplus limit (oldest :: rest) = [] := by
        unfold surplus
        rw [hlength, List.take_zero]
      rw [if_neg hlong, hsurplus, hlength]
      exact ⟨rfl, rfl, fun k => by simp, fun id => by simp⟩

/-- **What the insertion of a new key leaves.** -/
theorem insert_spec {w : AttemptWindow} (h : w.Indexed) {entry : WindowEntry}
    (hfresh : entry.key ∉ w.order) :
    let gone := w.order.take (w.order.length + 1 - w.limit)
    (w.insert entry).order = w.order.drop (w.order.length + 1 - w.limit) ++ [entry.key] ∧
      (w.insert entry).limit = w.limit ∧
      (∀ k, (w.insert entry).byKey[k]? =
        if k ∈ gone then none else if k = entry.key then some entry else w.byKey[k]?) ∧
      ∀ id, (w.insert entry).byAttempt[id]? =
        if ∃ k ∈ gone, (w.byKey[k]?).map WindowEntry.attempt = some id then none
        else if id = entry.attempt then some entry.key else w.byAttempt[id]? := by
  intro gone
  have hlength : (w.order ++ [entry.key]).length - w.limit = w.order.length + 1 - w.limit := by
    rw [List.length_append, List.length_singleton]
  have hbound : w.order.length + 1 - w.limit ≤ w.order.length := by
    have hlimit := h.limit
    omega
  -- the keys that leave are the oldest, and the new one is not among them
  have hgone : surplus w.limit (w.order ++ [entry.key]) = gone := by
    unfold surplus
    rw [hlength, List.take_append_of_le_length hbound]
  have hgone_ne : ∀ k ∈ gone, k ≠ entry.key := by
    rintro k hk rfl
    exact hfresh (List.mem_of_mem_take hk)
  have hnodup : (w.order ++ [entry.key]).Nodup := by
    rw [List.nodup_append]
    refine ⟨h.nodup, List.nodup_cons.mpr ⟨List.not_mem_nil, List.nodup_nil⟩, ?_⟩
    intro k hk k' hk' heq
    rw [List.mem_singleton.mp hk'] at heq
    rw [heq] at hk
    exact hfresh hk
  have hfound : ∀ k ∈ w.order ++ [entry.key],
      ∃ entry', (w.byKey.insert entry.key entry)[k]? = some entry' := by
    intro k hk
    by_cases hkey : k = entry.key
    · exact ⟨entry, by rw [hkey, ExtTreeMap.getElem?_insert_self]⟩
    · rw [Lib.getElem?_insert_of_ne _ _ hkey]
      refine h.found k ((List.mem_append.mp hk).resolve_right fun hlast => ?_)
      exact hkey (List.mem_singleton.mp hlast)
  have hinsert : w.insert entry = evict w.limit (w.order ++ [entry.key])
      (w.byKey.insert entry.key entry) (w.byAttempt.insert entry.attempt entry.key) := by
    unfold insert
    rw [h.unknown hfresh]
  obtain ⟨horder, hlimit, hkeys, hattempts⟩ := evict_spec w.limit (w.order ++ [entry.key])
    (w.byKey.insert entry.key entry) (w.byAttempt.insert entry.attempt entry.key) hnodup hfound
  rw [hinsert]
  refine ⟨?_, hlimit, fun k => ?_, fun id => ?_⟩
  · rw [horder, hlength, List.drop_append_of_le_length hbound]
  · rw [hkeys, hgone]
    by_cases hkey : k = entry.key
    · rw [hkey, ExtTreeMap.getElem?_insert_self, if_pos rfl]
    · rw [Lib.getElem?_insert_of_ne _ _ hkey, if_neg hkey]
  -- the keys that leave are found as before the insertion
  · have hsame : (∃ k ∈ gone,
          ((w.byKey.insert entry.key entry)[k]?).map WindowEntry.attempt = some id) ↔
        ∃ k ∈ gone, (w.byKey[k]?).map WindowEntry.attempt = some id :=
      exists_congr fun k => and_congr_right fun hk => by
        rw [Lib.getElem?_insert_of_ne _ _ (hgone_ne k hk)]
    rw [hattempts, hgone]
    simp only [hsame]
    by_cases hid : id = entry.attempt
    · rw [hid, ExtTreeMap.getElem?_insert_self, if_pos rfl]
    · rw [Lib.getElem?_insert_of_ne _ _ hid, if_neg hid]

/-- A new key can be inserted, and is found behind it. -/
theorem Indexed.insert {w : AttemptWindow} (h : w.Indexed) {entry : WindowEntry}
    (hfresh : entry.key ∉ w.order) :
    (w.insert entry).Indexed ∧ (w.insert entry).find entry.key = some entry := by
  obtain ⟨horder, hlimit, hkeys, -⟩ := insert_spec h hfresh
  have hfind : (w.insert entry).find entry.key = some entry := by
    unfold find
    rw [hkeys, if_neg fun hk => hfresh (List.mem_of_mem_take hk), if_pos rfl]
  have hsplit := List.take_append_drop (w.order.length + 1 - w.limit) w.order
  have hparts : (w.order.take (w.order.length + 1 - w.limit) ++
      w.order.drop (w.order.length + 1 - w.limit)).Nodup := by
    rw [hsplit]
    exact h.nodup
  obtain ⟨-, hkept, hdisjoint⟩ := List.nodup_append.mp hparts
  -- the limit, the order, what the order lists, and what it does not
  refine ⟨⟨?_, ?_, fun k hk => ?_, fun k entry' hk => ?_⟩, hfind⟩
  · rw [hlimit]
    exact h.limit
  · rw [horder, List.nodup_append]
    refine ⟨hkept, List.nodup_cons.mpr ⟨List.not_mem_nil, List.nodup_nil⟩, ?_⟩
    intro k hk k' hk' heq
    rw [List.mem_singleton.mp hk'] at heq
    rw [heq] at hk
    exact hfresh (List.mem_of_mem_drop hk)
  · rw [horder] at hk
    rcases List.mem_append.mp hk with hold | hnew
    · obtain ⟨entry', hentry'⟩ := h.found k (List.mem_of_mem_drop hold)
      have hne : k ≠ entry.key := by
        rintro rfl
        exact hfresh (List.mem_of_mem_drop hold)
      refine ⟨entry', ?_⟩
      rw [hkeys, if_neg fun hgone => hdisjoint k hgone k hold rfl, if_neg hne, hentry']
    · rw [List.mem_singleton.mp hnew]
      exact ⟨entry, hfind⟩
  · rw [hkeys] at hk
    rw [horder, List.mem_append]
    by_cases hgone : k ∈ w.order.take (w.order.length + 1 - w.limit)
    · rw [if_pos hgone] at hk
      exact absurd hk (by simp)
    by_cases hkey : k = entry.key
    · exact .inr (List.mem_singleton.mpr hkey)
    · rw [if_neg hgone, if_neg hkey] at hk
      have hmem := h.listed k entry' hk
      rw [← hsplit] at hmem
      exact .inl ((List.mem_append.mp hmem).resolve_left hgone)

/-- Only the new key and kept ones are in the queue behind an insertion. -/
theorem mem_order_insert {w : AttemptWindow} (h : w.Indexed) {entry : WindowEntry}
    (hfresh : entry.key ∉ w.order) {k : WindowKey}
    (hk : k ∈ (w.insert entry).order) : k ∈ w.order ∨ k = entry.key := by
  rw [(insert_spec h hfresh).1] at hk
  rcases List.mem_append.mp hk with hold | hnew
  · exact .inl (List.mem_of_mem_drop hold)
  · exact .inr (List.mem_singleton.mp hnew)

/-- Behind an insertion the queue is within its limit. -/
private theorem length_order_insert {w : AttemptWindow} (h : w.Indexed) {entry : WindowEntry}
    (hfresh : entry.key ∉ w.order) :
    (w.insert entry).order.length ≤ (w.insert entry).limit := by
  obtain ⟨horder, hlimit, -, -⟩ := insert_spec h hfresh
  have hpositive := h.limit
  rw [horder, hlimit, List.length_append, List.length_drop, List.length_singleton]
  omega

/-- Many new keys, one after the other: the queue ends with as many of the latest ones as the
    limit allows. -/
theorem insertAll_spec {w : AttemptWindow} (h : w.Indexed) (hlength : w.order.length ≤ w.limit)
    (entries : List WindowEntry) (hnodup : (w.order ++ entries.map WindowEntry.key).Nodup) :
    (entries.foldl insert w).Indexed ∧ (entries.foldl insert w).limit = w.limit ∧
      (entries.foldl insert w).order = (w.order ++ entries.map WindowEntry.key).drop
        (w.order.length + entries.length - w.limit) := by
  induction entries generalizing w with
  | nil =>
    refine ⟨h, rfl, ?_⟩
    have hnone : w.order.length + ([] : List WindowEntry).length - w.limit = 0 := by
      rw [List.length_nil]
      omega
    rw [hnone, List.map_nil, List.append_nil, List.drop_zero]
    rfl
  -- one insertion, then the others on the window it leaves
  | cons entry entries ih =>
    have hsplit : w.order ++ (entry :: entries).map WindowEntry.key =
        (w.order ++ [entry.key]) ++ entries.map WindowEntry.key := by simp
    rw [hsplit] at hnodup ⊢
    have hfresh : entry.key ∉ w.order := by
      intro hmem
      have hdisjoint := (List.nodup_append.mp (List.nodup_append.mp hnodup).1).2.2
      exact hdisjoint _ hmem _ (List.mem_singleton.mpr rfl) rfl
    obtain ⟨horder, hlimit, -, -⟩ := insert_spec h hfresh
    have hpositive := h.limit
    have hgone : w.order.length + 1 - w.limit ≤ w.order.length := by omega
    have hqueue : (w.insert entry).order =
        (w.order ++ [entry.key]).drop (w.order.length + 1 - w.limit) := by
      rw [horder, List.drop_append_of_le_length hgone]
    -- what it evicts is the head of the whole queue
    have hcut : (w.insert entry).order ++ entries.map WindowEntry.key =
        ((w.order ++ [entry.key]) ++ entries.map WindowEntry.key).drop
          (w.order.length + 1 - w.limit) := by
      have hle : w.order.length + 1 - w.limit ≤ (w.order ++ [entry.key]).length := by
        rw [List.length_append, List.length_singleton]
        omega
      rw [hqueue]
      exact (List.drop_append_of_le_length hle).symm
    obtain ⟨hindexed, hlimit', horder'⟩ := ih (w := w.insert entry) (h.insert hfresh).1
      (length_order_insert h hfresh) (by
        rw [hcut]
        exact hnodup.sublist (List.drop_sublist _ _))
    refine ⟨hindexed, hlimit'.trans hlimit, ?_⟩
    rw [List.foldl_cons, horder', hcut, List.drop_drop, hlimit, hqueue, List.length_drop,
      List.length_append, List.length_singleton, List.length_cons]
    congr 1
    omega

/-- A window without entries. -/
theorem make_indexed (limit : Nat) : (make limit).Indexed where
  limit := by
    unfold make
    by_cases h : limit = 0
    · simp [h]
    · simp only [if_neg h]
      omega
  nodup := List.nodup_nil
  found k hk := absurd hk List.not_mem_nil
  listed k entry hk := absurd hk (by simp [make])

end AttemptWindow

end CreditFabric
