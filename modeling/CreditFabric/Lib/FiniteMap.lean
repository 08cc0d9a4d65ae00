import Mathlib.Algebra.GroupWithZero.Nat
import Mathlib.Data.List.Sort
import Mathlib.Tactic.Common
import Std.Data.ExtTreeMap.Lemmas

namespace CreditFabric.Lib

open Std (ExtTreeMap)

/-!
# Finite maps

Facts about extensional tree maps beyond the standard library: updates that cancel, and sums
over the values.
-/

section Updates

variable {α β : Type} {cmp : α → α → Ordering} [Std.TransCmp cmp] [Std.LawfulEqCmp cmp]
variable (m : ExtTreeMap α β cmp)

/-- Writing the value that is there changes nothing. -/
theorem insert_eq_self {k : α} {v : β} (h : m[k]? = some v) : m.insert k v = m := by
  refine ExtTreeMap.ext_getElem? fun i => ?_
  rw [ExtTreeMap.getElem?_insert]
  by_cases hi : cmp k i = .eq
  · rw [if_pos hi, ← Std.LawfulEqCmp.compare_eq_iff_eq.mp hi, h]
  · rw [if_neg hi]

/-- The second insertion counts. -/
theorem insert_insert_self (k : α) (v w : β) : (m.insert k v).insert k w = m.insert k w := by
  refine ExtTreeMap.ext_getElem? fun i => ?_
  simp only [ExtTreeMap.getElem?_insert]
  by_cases hi : cmp k i = .eq
  · rw [if_pos hi, if_pos hi]
  · rw [if_neg hi, if_neg hi, if_neg hi]

/-- Erasing a key that was added gives the map back. -/
theorem erase_insert_self {k : α} (v : β) (h : m[k]? = none) : (m.insert k v).erase k = m := by
  refine ExtTreeMap.ext_getElem? fun i => ?_
  rw [ExtTreeMap.getElem?_erase, ExtTreeMap.getElem?_insert]
  by_cases hi : cmp k i = .eq
  · rw [if_pos hi, ← Std.LawfulEqCmp.compare_eq_iff_eq.mp hi, h]
  · rw [if_neg hi, if_neg hi]

/-- Putting a value back after erasing its key gives the map back. -/
theorem insert_erase_self {k : α} {v : β} (h : m[k]? = some v) :
    (m.erase k).insert k v = m := by
  refine ExtTreeMap.ext_getElem? fun i => ?_
  rw [ExtTreeMap.getElem?_insert, ExtTreeMap.getElem?_erase]
  by_cases hi : cmp k i = .eq
  · rw [if_pos hi, ← Std.LawfulEqCmp.compare_eq_iff_eq.mp hi, h]
  · rw [if_neg hi, if_neg hi]

/-- An insertion changes its own key only. -/
theorem getElem?_insert_of_ne {k i : α} (v : β) (h : i ≠ k) : (m.insert k v)[i]? = m[i]? := by
  rw [ExtTreeMap.getElem?_insert, if_neg]
  intro hcmp
  exact h (Std.LawfulEqCmp.compare_eq_iff_eq.mp hcmp).symm

/-- An erasure changes its own key only. -/
theorem getElem?_erase_of_ne {k i : α} (h : i ≠ k) : (m.erase k)[i]? = m[i]? := by
  rw [ExtTreeMap.getElem?_erase, if_neg]
  intro hcmp
  exact h (Std.LawfulEqCmp.compare_eq_iff_eq.mp hcmp).symm

end Updates

/-! ### Maps built from a list -/

section Build

variable {α β γ : Type} {cmp : α → α → Ordering} [Std.TransCmp cmp] [Std.LawfulEqCmp cmp]
variable (f : γ → α) (g : γ → β)

/-- A key that is not written keeps its value. -/
theorem getElem?_foldl_insert_of_ne (l : List γ) (m : ExtTreeMap α β cmp) {k : α}
    (h : ∀ c ∈ l, f c ≠ k) : (l.foldl (fun m c => m.insert (f c) (g c)) m)[k]? = m[k]? := by
  induction l generalizing m with
  | nil => rfl
  | cons c l ih =>
    have hc : k ≠ f c := (h c List.mem_cons_self).symm
    rw [List.foldl_cons, ih _ fun c' hc' => h c' (List.mem_cons_of_mem _ hc'),
      getElem?_insert_of_ne _ _ hc]

/-- A key that is written once has the value written there. -/
theorem getElem?_foldl_insert_of_mem {l : List γ} (hnodup : (l.map f).Nodup)
    (m : ExtTreeMap α β cmp) {c : γ} (hc : c ∈ l) :
    (l.foldl (fun m c => m.insert (f c) (g c)) m)[f c]? = some (g c) := by
  induction l generalizing m with
  | nil => exact absurd hc List.not_mem_nil
  | cons c' l ih =>
    rw [List.map_cons] at hnodup
    obtain ⟨hfresh, hrest⟩ := List.nodup_cons.mp hnodup
    rw [List.foldl_cons]
    rcases List.mem_cons.mp hc with rfl | hmem
    · have hne : ∀ c' ∈ l, f c' ≠ f c := by
        intro c' hc' heq
        exact hfresh (heq ▸ List.mem_map_of_mem hc')
      rw [getElem?_foldl_insert_of_ne f g l _ hne, ExtTreeMap.getElem?_insert_self]
    · exact ih hrest _ hmem

end Build

/-! ### Sizes -/

section Sizes

variable {α β γ : Type} {cmp : α → α → Ordering} [Std.TransCmp cmp] [Std.LawfulEqCmp cmp]

/-- A list with every key of the map is at least as long. -/
theorem size_le_length {m : ExtTreeMap α β cmp} {l : List α}
    (h : ∀ (k : α) (v : β), m[k]? = some v → k ∈ l) : m.size ≤ l.length := by
  rw [← ExtTreeMap.length_keys]
  refine ExtTreeMap.nodup_keys.length_le_of_subset fun k hk => ?_
  rw [ExtTreeMap.mem_keys, ExtTreeMap.mem_iff_isSome_getElem?] at hk
  obtain ⟨v, hv⟩ := Option.isSome_iff_exists.mp hk
  exact h k v hv

/-- A map with every key of the other is at least as large. -/
theorem size_le_of_keys {m : ExtTreeMap α β cmp} {m' : ExtTreeMap α γ cmp}
    (h : ∀ k : α, m[k]?.isSome = true → m'[k]?.isSome = true) : m.size ≤ m'.size := by
  rw [← ExtTreeMap.length_keys (t := m')]
  refine size_le_length fun k v hv => ?_
  rw [ExtTreeMap.mem_keys, ExtTreeMap.mem_iff_isSome_getElem?]
  exact h k (by rw [hv]; rfl)

end Sizes

/-! ### Entries in order -/

section Entries

variable {α β : Type} {cmp : α → α → Ordering} [Std.TransCmp cmp] [Std.LawfulEqCmp cmp]
variable {m : ExtTreeMap α β cmp}

/-- Writing over one entry leaves the others where they are. -/
theorem toList_insert_of_mem {k : α} {v : β} (h : m[k]? = some v) (w : β) :
    ∃ l₁ l₂, m.toList = l₁ ++ (k, v) :: l₂ ∧ (m.insert k w).toList = l₁ ++ (k, w) :: l₂ := by
  obtain ⟨l₁, l₂, hlist⟩ :=
    List.append_of_mem (ExtTreeMap.mem_toList_iff_getElem?_eq_some.mpr h)
  refine ⟨l₁, l₂, hlist, ?_⟩
  have hordered := m.ordered_keys_toList
  rw [hlist] at hordered
  -- the order is one of the keys, and those are the same
  have hkeys : (l₁ ++ (k, w) :: l₂).Pairwise fun a b => cmp a.1 b.1 = .lt := by
    have hmap : (l₁ ++ (k, w) :: l₂).map Prod.fst = (l₁ ++ (k, v) :: l₂).map Prod.fst := by simp
    have hfst := (List.pairwise_map (R := fun a b => cmp a b = .lt) (f := Prod.fst)).mpr hordered
    rw [← hmap] at hfst
    exact List.pairwise_map.mp hfst
  have hself : ∀ x : α, cmp x x = .eq := fun _ => Std.ReflCmp.compare_self
  have hother : ∀ entry ∈ l₁ ++ l₂, entry.1 ≠ k := by
    intro entry hentry heq
    rw [List.pairwise_append, List.pairwise_cons] at hkeys
    rcases List.mem_append.mp hentry with hleft | hright
    · have hlt := hkeys.2.2 entry hleft (k, w) List.mem_cons_self
      rw [heq, hself] at hlt
      exact absurd hlt (by decide)
    · have hlt := hkeys.2.1.1 entry hright
      rw [heq, hself] at hlt
      exact absurd hlt (by decide)
  have : Std.Irrefl fun a b : α × β => cmp a.1 b.1 = .lt :=
    ⟨fun a hlt => by rw [hself] at hlt; exact absurd hlt (by decide)⟩
  have : Std.Antisymm fun a b : α × β => cmp a.1 b.1 = .lt :=
    ⟨fun a b hab hba => by
      rw [show cmp a.1 b.1 = _ from Std.OrientedCmp.eq_swap, hba] at hab
      exact absurd hab (by decide)⟩
  refine (m.insert k w).ordered_keys_toList.eq_of_mem_iff hkeys fun ⟨i, x⟩ => ?_
  rw [ExtTreeMap.mem_toList_iff_getElem?_eq_some]
  by_cases hi : i = k
  · subst hi
    rw [ExtTreeMap.getElem?_insert_self, Option.some.injEq]
    constructor
    · rintro rfl
      exact List.mem_append_right _ List.mem_cons_self
    · intro hmem
      rcases List.mem_append.mp hmem with hleft | hright
      · exact absurd rfl (hother _ (List.mem_append_left _ hleft))
      · rcases List.mem_cons.mp hright with heq | hright
        · exact (congrArg Prod.snd heq).symm
        · exact absurd rfl (hother _ (List.mem_append_right _ hright))
  · have hne : ∀ u : β, (i, x) ≠ (k, u) := fun u heq => hi (congrArg Prod.fst heq)
    rw [getElem?_insert_of_ne _ _ hi, ← ExtTreeMap.mem_toList_iff_getElem?_eq_some, hlist]
    simp [hne]

end Entries

/-! ### Sums over the values -/

section Sums

variable {α β : Type} {cmp : α → α → Ordering} [Std.TransCmp cmp] [Std.LawfulEqCmp cmp]

/-- The sum of `f` over the values of a map. -/
def sumValues (f : β → Nat) (m : ExtTreeMap α β cmp) : Nat :=
  (m.toList.map fun entry => f entry.2).sum

variable (f : β → Nat) (m : ExtTreeMap α β cmp)

omit [Std.LawfulEqCmp cmp] in
/-- No entry is listed twice. -/
theorem nodup_toList : m.toList.Nodup := by
  refine m.distinct_keys_toList.imp fun {x y} hne heq => hne ?_
  rw [heq]
  exact Std.ReflCmp.compare_self

omit [Std.LawfulEqCmp cmp] in
/-- The sum over no entries. -/
theorem sumValues_empty : sumValues f (∅ : ExtTreeMap α β cmp) = 0 := by
  unfold sumValues
  rw [ExtTreeMap.toList_eq_nil_iff.mpr rfl]
  rfl

/-- One more entry. -/
theorem sumValues_insert_of_none {k : α} (v : β) (h : m[k]? = none) :
    sumValues f (m.insert k v) = sumValues f m + f v := by
  have hfresh : (k, v) ∉ m.toList := by
    rw [ExtTreeMap.mem_toList_iff_getElem?_eq_some, h]
    simp
  have hperm : (m.insert k v).toList.Perm ((k, v) :: m.toList) := by
    refine (List.perm_ext_iff_of_nodup (nodup_toList _)
      (List.nodup_cons.mpr ⟨hfresh, nodup_toList m⟩)).mpr fun ⟨i, w⟩ => ?_
    rw [ExtTreeMap.mem_toList_iff_getElem?_eq_some, List.mem_cons,
      ExtTreeMap.mem_toList_iff_getElem?_eq_some, ExtTreeMap.getElem?_insert]
    by_cases hi : cmp k i = .eq
    · rw [if_pos hi, ← Std.LawfulEqCmp.compare_eq_iff_eq.mp hi, h]
      simp [eq_comm]
    · have hne : i ≠ k := fun heq => hi (Std.LawfulEqCmp.compare_eq_iff_eq.mpr heq.symm)
      rw [if_neg hi]
      simp [hne]
  unfold sumValues
  rw [(hperm.map _).sum_nat, List.map_cons, List.sum_cons, Nat.add_comm]

/-- One entry less. -/
theorem sumValues_erase {k : α} {v : β} (h : m[k]? = some v) :
    sumValues f (m.erase k) + f v = sumValues f m := by
  have hsum := sumValues_insert_of_none f (m.erase k) (k := k) v (by simp)
  rw [insert_erase_self m h] at hsum
  exact hsum.symm

/-- Writing a value adds the new one and drops the old one. -/
theorem sumValues_insert {k : α} (v : β) {w : β} (h : m[k]? = some w) :
    sumValues f (m.insert k v) + f w = sumValues f m + f v := by
  have hold := sumValues_erase f m h
  have hnew := sumValues_insert_of_none f (m.erase k) (k := k) v (by simp)
  have hcancel : (m.erase k).insert k v = m.insert k v := by
    rw [← insert_insert_self (m.erase k) k w v, insert_erase_self m h]
  rw [hcancel] at hnew
  omega

/-- Writing a value that counts as much as the one there, or as nothing, changes no sum. -/
theorem sumValues_insert_eq {k : α} {v : β} (h : f v = ((m[k]?).map f).getD 0) :
    sumValues f (m.insert k v) = sumValues f m := by
  cases hk : m[k]? with
  | none =>
    rw [sumValues_insert_of_none f m v hk, h, hk]
    rfl
  | some w =>
    have hsum := sumValues_insert f m v hk
    rw [hk] at h
    have heq : f v = f w := h
    omega

omit [Std.LawfulEqCmp cmp] in
/-- Values changed into others of the same weight. -/
theorem sumValues_map {g : α → β → β} (h : ∀ k v, f (g k v) = f v) :
    sumValues f (m.map g) = sumValues f m := by
  unfold sumValues
  rw [ExtTreeMap.toList_map, List.map_map]
  exact congrArg List.sum (List.map_congr_left fun entry _ => h entry.1 entry.2)

/-- A value counts for at most the sum. -/
theorem le_sumValues {k : α} {v : β} (h : m[k]? = some v) : f v ≤ sumValues f m := by
  have hsum := sumValues_erase f m h
  omega

end Sums

end CreditFabric.Lib
