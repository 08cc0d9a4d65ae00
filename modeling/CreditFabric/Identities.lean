import CreditFabric.LastEntries

namespace CreditFabric

open Std (ExtTreeMap)
open Lib (latest)

/-!
# The attempt identities of a window

A window is reached by three routes: decisions are published in a running engine, records are
replayed, and a snapshot is restored.  The first two insert entries with an attempt identity;
the third one inserts places only, under the zero identity.

* `Names`: the queue lists these places, and the attempts among them are indexed, the zero one
  excepted where places have been restored.
* `Recalls`: the window names the latest of these decisions, behind restored places.  An
  insertion under a new identity adds one decision to them (`Recalls.insert`).
-/

namespace AttemptWindow

/-- The queue lists the places, each of which has an entry with its attempt, and the attempts
    are indexed.  In a `vague` window the zero attempt stands for no attempt. -/
structure Names (w : AttemptWindow) (vague : Prop) (names : List (WindowKey × AttemptId)) :
    Prop where
  order : w.order = names.map Prod.fst
  entries : ∀ x ∈ names, (w.byKey[x.1]?).map WindowEntry.attempt = some x.2
  found : ∀ x ∈ names, (vague → x.2 ≠ {}) → w.byAttempt[x.2]? = some x.1

section Names

variable {w : AttemptWindow} {vague : Prop} {names : List (WindowKey × AttemptId)}

/-- A named attempt is found. -/
theorem Names.known (h : w.Names vague names) {x : WindowKey × AttemptId} (hx : x ∈ names)
    (hid : vague → x.2 ≠ {}) : (w.findByAttempt x.2).isSome = true := by
  unfold findByAttempt find
  rw [h.found x hx hid]
  have hentry := h.entries x hx
  rw [Option.map_eq_some_iff] at hentry
  obtain ⟨entry, hentry, -⟩ := hentry
  simp [hentry]

/-- **One insertion.**  A new place under a new attempt comes behind the names, and what is too
    much goes from the front. -/
theorem Names.insert (h : w.Names vague names) (hindexed : w.Indexed) {entry : WindowEntry}
    (hfresh : entry.key ∉ w.order)
    (hnew : ∀ x ∈ names, (vague → x.2 ≠ {}) → x.2 ≠ entry.attempt) :
    (w.insert entry).Names vague
      (names.drop (names.length + 1 - w.limit) ++ [(entry.key, entry.attempt)]) := by
  obtain ⟨horder, -, hbyKey, hbyAttempt⟩ := insert_spec hindexed hfresh
  have hlength : w.order.length = names.length := by rw [h.order, List.length_map]
  have hnodup : (names.map Prod.fst).Nodup := by
    rw [← h.order]
    exact hindexed.nodup
  rw [hlength] at hbyKey hbyAttempt horder
  generalize names.length + 1 - w.limit = n at *
  have hgone : w.order.take n = (names.take n).map Prod.fst := by rw [h.order, List.map_take]
  rw [hgone] at hbyKey hbyAttempt
  -- the places that go are none of those that stay
  have hapart : ∀ x ∈ names.drop n, x.1 ∉ (names.take n).map Prod.fst := by
    intro x hx hmem
    rw [← List.take_append_drop n names, List.map_append] at hnodup
    exact (List.nodup_append.mp hnodup).2.2 _ hmem _ (List.mem_map_of_mem hx) rfl
  have hlisted : ∀ x ∈ names, x.1 ∈ w.order := by
    intro x hx
    rw [h.order]
    exact List.mem_map_of_mem hx
  have hattempts : ∀ id : AttemptId, (vague → id ≠ {}) →
      (∃ k ∈ (names.take n).map Prod.fst, (w.byKey[k]?).map WindowEntry.attempt = some id) →
      ∃ y ∈ names.take n, y.2 = id ∧ w.byAttempt[id]? = some y.1 := by
    rintro id hid ⟨k, hk, hattempt⟩
    obtain ⟨y, hy, rfl⟩ := List.mem_map.mp hk
    have hmem := List.mem_of_mem_take hy
    rw [h.entries y hmem, Option.some.injEq] at hattempt
    subst hattempt
    exact ⟨y, hy, rfl, h.found y hmem hid⟩
  refine ⟨?_, fun x hx => ?_, fun x hx hid => ?_⟩
  · rw [horder, h.order, List.map_append, List.map_drop, List.map_singleton]
  · rcases List.mem_append.mp hx with hold | hlast
    · have hmem := List.mem_of_mem_drop hold
      have hne : x.1 ≠ entry.key := by
        intro heq
        exact hfresh (heq ▸ hlisted x hmem)
      rw [hbyKey, if_neg (hapart x hold), if_neg hne]
      exact h.entries x hmem
    · rw [List.mem_singleton.mp hlast]
      show ((w.insert entry).byKey[entry.key]?).map WindowEntry.attempt = _
      rw [hbyKey, if_neg, if_pos rfl, Option.map_some]
      intro hmem
      obtain ⟨y, hy, hkey⟩ := List.mem_map.mp hmem
      exact hfresh (hkey ▸ hlisted y (List.mem_of_mem_take hy))
  · rw [hbyAttempt, if_neg]
    · rcases List.mem_append.mp hx with hold | hlast
      · have hmem := List.mem_of_mem_drop hold
        rw [if_neg (hnew x hmem hid)]
        exact h.found x hmem hid
      · rw [List.mem_singleton.mp hlast, if_pos rfl]
    · -- an attempt that goes is indexed under a place that goes
      intro hleaves
      obtain ⟨y, hy, hsame, hindex⟩ := hattempts x.2 hid hleaves
      have hmem := List.mem_of_mem_take hy
      rcases List.mem_append.mp hx with hold | hlast
      · rw [h.found x (List.mem_of_mem_drop hold) hid, Option.some.injEq] at hindex
        exact hapart x hold (hindex ▸ List.mem_map_of_mem hy)
      · have hattempt : x.2 = entry.attempt := by rw [List.mem_singleton.mp hlast]
        exact hnew y hmem (fun hvague => hsame ▸ hid hvague) (hsame.trans hattempt)

end Names

/-- The window names the latest of the decisions `h`, behind the places a snapshot restored. -/
structure Recalls (limit : Nat) (vague : Prop) (w : AttemptWindow)
    (h : List (WindowKey × AttemptId)) : Prop where
  fits : w.limit = limit
  names : ∃ blanks : List (WindowKey × AttemptId), (∀ b ∈ blanks, b.2 = {}) ∧ (¬ vague → blanks = []) ∧
    w.Names vague (latest limit (blanks ++ h))

section Recalls

variable {limit : Nat} {vague : Prop} {w : AttemptWindow} {h : List (WindowKey × AttemptId)}

/-- The latest decisions are found by their attempts. -/
theorem Recalls.known (hw : Recalls limit vague w h) {x : WindowKey × AttemptId}
    (hx : x ∈ latest limit h) (hid : vague → x.2 ≠ {}) :
    (w.findByAttempt x.2).isSome = true := by
  obtain ⟨blanks, -, -, hnames⟩ := hw.names
  exact hnames.known (Lib.mem_latest_append hx) hid

/-- One more decision, under an attempt that none of the latest ones has. -/
theorem Recalls.insert (hw : Recalls limit vague w h) (hlimit : 1 ≤ limit)
    (hindexed : w.Indexed) {entry : WindowEntry} (hfresh : entry.key ∉ w.order)
    (hnew : ∀ x ∈ latest limit h, x.2 ≠ entry.attempt) :
    Recalls limit vague (w.insert entry) (h ++ [(entry.key, entry.attempt)]) := by
  obtain ⟨blanks, hblank, hnone, hnames⟩ := hw.names
  have hinsert := hnames.insert hindexed hfresh fun x hx hid => by
    rcases Lib.mem_or_mem_latest hx with hrestored | hlate
    · -- a restored place has no attempt
      by_cases hvague : vague
      · exact absurd (hblank x hrestored) (hid hvague)
      · rw [hnone hvague] at hrestored
        exact absurd hrestored List.not_mem_nil
    · exact hnew x hlate
  rw [hw.fits, ← Lib.latest_concat hlimit, List.append_assoc] at hinsert
  exact ⟨(limit_evict _ _ _ _).trans hw.fits, blanks, hblank, hnone, hinsert⟩

/-- A new window. -/
theorem recalls_make (hlimit : 1 ≤ limit) (vague : Prop) : Recalls limit vague (make limit) [] := by
  refine ⟨if_neg (by omega), [], nofun, fun _ => rfl, ?_⟩
  rw [List.nil_append, Lib.latest_nil]
  exact ⟨rfl, nofun, nofun⟩

/-- Eviction finds nothing new. -/
private theorem getElem?_evict {queue : List WindowKey} {byKey : ExtTreeMap WindowKey WindowEntry}
    {byAttempt : ExtTreeMap AttemptId WindowKey} {k : WindowKey} {entry : WindowEntry}
    (hk : (evict limit queue byKey byAttempt).byKey[k]? = some entry) :
    byKey[k]? = some entry := by
  induction queue generalizing byKey byAttempt with
  | nil => exact hk
  | cons oldest rest ih =>
    unfold evict at hk
    split_ifs at hk with hlong
    · cases holdest : byKey[oldest]? with
      | none =>
        rw [holdest] at hk
        exact ih hk
      | some gone =>
        rw [holdest] at hk
        have hrest := ih hk
        by_cases hkey : k = oldest
        · rw [hkey, ExtTreeMap.getElem?_erase_self] at hrest
          exact absurd hrest (by simp)
        · rwa [Lib.getElem?_erase_of_ne _ hkey] at hrest
    · exact hk

/-- An insertion without an attempt into a window that has none. -/
private theorem insert_blank (hw : ∀ (k : WindowKey) (entry : WindowEntry),
      w.byKey[k]? = some entry → entry.attempt = {})
    {entry : WindowEntry} (hentry : entry.attempt = {}) (k : WindowKey) (entry' : WindowEntry)
    (hk : (w.insert entry).byKey[k]? = some entry') : entry'.attempt = {} := by
  have hinserted := getElem?_evict hk
  by_cases hkey : k = entry.key
  · rw [hkey, ExtTreeMap.getElem?_insert_self, Option.some.injEq] at hinserted
    rw [← hinserted, hentry]
  · rw [Lib.getElem?_insert_of_ne _ _ hkey] at hinserted
    exact hw k entry' hinserted

/-- A restored window has places only. -/
theorem restoreWindow_blank (limit : Nat) (identities : List (UInt64 × UInt64)) :
    ∀ (k : WindowKey) (entry : WindowEntry),
      (restoreWindow limit identities).byKey[k]? = some entry → entry.attempt = {} := by
  have hmake : ∀ (k : WindowKey) (entry : WindowEntry),
      (make limit).byKey[k]? = some entry → entry.attempt = {} := by
    intro k entry hk
    exact absurd hk (by simp [make])
  unfold restoreWindow
  generalize make limit = w at hmake
  induction identities generalizing w with
  | nil => exact hmake
  | cons place rest ih => exact ih _ (insert_blank hmake rfl)

/-- A restored window has the limit of a new one. -/
private theorem limit_restoreWindow (limit : Nat) (identities : List (UInt64 × UInt64)) :
    (restoreWindow limit identities).limit = (make limit).limit := by
  unfold restoreWindow
  generalize make limit = w
  induction identities generalizing w with
  | nil => rfl
  | cons place rest ih => exact (ih _).trans (limit_evict _ _ _ _)

/-- A restored window recalls no decision. -/
theorem recalls_restored (hlimit : 1 ≤ limit) (hvague : vague)
    {identities : List (UInt64 × UInt64)} (hnodup : (identities.map placeKey).Nodup) :
    Recalls limit vague (restoreWindow limit identities) [] := by
  obtain ⟨hindexed, horder⟩ := restoreWindow_spec limit identities hnodup
  have hmake : (make limit).limit = limit := if_neg (by omega)
  have hblank := restoreWindow_blank limit identities
  have hkept := (limit_restoreWindow limit identities).trans hmake
  rw [hmake] at horder
  generalize restoreWindow limit identities = w at *
  have hlength : w.order.length ≤ limit := by
    rw [horder, List.length_drop, List.length_map]
    omega
  refine ⟨hkept, w.order.map fun k => (k, {}), fun b hb => ?_, fun hsharp => absurd hvague hsharp,
    ?_⟩
  · obtain ⟨k, -, rfl⟩ := List.mem_map.mp hb
    rfl
  · rw [List.append_nil, Lib.latest_of_length_le (by rwa [List.length_map])]
    refine ⟨?_, fun x hx => ?_, fun x hx hid => ?_⟩
    · rw [List.map_map]
      exact (List.map_id' w.order).symm
    · obtain ⟨k, hk, rfl⟩ := List.mem_map.mp hx
      obtain ⟨entry, hentry⟩ := hindexed.found k hk
      rw [hentry, Option.map_some, hblank k entry hentry]
    · obtain ⟨k, -, rfl⟩ := List.mem_map.mp hx
      exact absurd rfl (hid hvague)

end Recalls

end AttemptWindow

end CreditFabric
