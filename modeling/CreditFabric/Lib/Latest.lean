import Mathlib.Data.List.Rotate
import Mathlib.Data.List.Nodup

namespace CreditFabric.Lib

/-!
# The latest elements of a history

`latest limit xs` is the end of `xs` that a store for `limit` elements can hold.  Two ways of
keeping it when one more element comes are shown to be right: dropping from the front of a
queue (`latest_concat`), and overwriting the place under a cursor that then moves on in a ring
(`rotate_set`).  An index over a history without a key twice is written
accordingly: what goes is taken out, what comes is put in, the rest stays (`found_iff`).
-/

section Latest

variable {α : Type}

/-- The last `limit` elements, in order. -/
def latest (limit : Nat) (xs : List α) : List α := xs.drop (xs.length - limit)

/-- Nothing is dropped while everything fits. -/
theorem latest_of_length_le {limit : Nat} {xs : List α} (h : xs.length ≤ limit) :
    latest limit xs = xs := by
  unfold latest
  rw [Nat.sub_eq_zero_of_le h, List.drop_zero]

/-- The latest of none. -/
@[simp] theorem latest_nil (limit : Nat) : latest limit ([] : List α) = [] := by
  unfold latest
  rw [List.drop_nil]

/-- How many there are. -/
@[simp] theorem length_latest (limit : Nat) (xs : List α) :
    (latest limit xs).length = min xs.length limit := by
  unfold latest
  rw [List.length_drop]
  omega

/-- The latest of the images are the images of the latest. -/
theorem latest_map {β : Type} (f : α → β) (limit : Nat) (xs : List α) :
    latest limit (xs.map f) = (latest limit xs).map f := by
  unfold latest
  rw [List.map_drop, List.length_map]

/-- The latest elements are among all of them, in the same order. -/
theorem latest_sublist (limit : Nat) (xs : List α) : (latest limit xs).Sublist xs :=
  List.drop_sublist _ _

/-- The latest elements of two histories in a row: those of the second one, and as many of the
    first one as still fit in front of them. -/
theorem latest_append (limit : Nat) (xs ys : List α) :
    latest limit (xs ++ ys) = latest (limit - ys.length) xs ++ latest limit ys := by
  unfold latest
  rw [List.drop_append, List.length_append]
  have hfirst : xs.drop (xs.length + ys.length - limit) =
      xs.drop (xs.length - (limit - ys.length)) := by
    by_cases hfits : ys.length ≤ limit
    · congr 1
      omega
    · rw [List.drop_eq_nil_of_le (by omega), List.drop_eq_nil_of_le (by omega)]
  rw [hfirst]
  congr 2
  omega

/-- What is late in the end is late in the whole. -/
theorem mem_latest_append {limit : Nat} {xs ys : List α} {x : α} (h : x ∈ latest limit ys) :
    x ∈ latest limit (xs ++ ys) := by
  rw [latest_append]
  exact List.mem_append_right _ h

/-- What is late in the whole is in front or late in the end. -/
theorem mem_or_mem_latest {limit : Nat} {xs ys : List α} {x : α}
    (h : x ∈ latest limit (xs ++ ys)) : x ∈ xs ∨ x ∈ latest limit ys := by
  rw [latest_append] at h
  exact (List.mem_append.mp h).imp_left fun hfront => List.mem_of_mem_drop hfront

/-- What is late in the whole and in the end is late there. -/
theorem mem_latest_of_mem {limit : Nat} {xs ys : List α} {x : α}
    (h : x ∈ latest limit (xs ++ ys)) (hx : x ∈ ys) : x ∈ latest limit ys := by
  by_cases hfits : ys.length ≤ limit
  · rw [latest_of_length_le hfits]
    exact hx
  · rw [latest_append, Nat.sub_eq_zero_of_le (by omega)] at h
    unfold latest at h
    rw [Nat.sub_zero, List.drop_length, List.nil_append] at h
    exact h

/-- **The queue.**  One more element comes behind the latest ones, and what is too much goes
    from the front. -/
theorem latest_concat {limit : Nat} (hlimit : 1 ≤ limit) (xs : List α) (x : α) :
    latest limit (xs ++ [x]) =
      (latest limit xs).drop ((latest limit xs).length + 1 - limit) ++ [x] := by
  rw [length_latest]
  unfold latest
  rw [List.length_append, List.length_singleton, List.drop_drop,
    List.drop_append_of_le_length (by omega)]
  congr 2
  omega

/-- **The ring.**  Overwriting the place under the cursor and moving the cursor on drops the
    first element of the reading from the cursor and appends the new one. -/
theorem rotate_set {xs : List α} {cursor : Nat} (h : cursor < xs.length) (x : α) :
    (xs.set cursor x).rotate ((cursor + 1) % xs.length) =
      (xs.rotate cursor).drop 1 ++ [x] := by
  -- the list around the place that is overwritten
  obtain ⟨front, old, back, hsplit, hfront⟩ :
      ∃ front old back, xs = front ++ old :: back ∧ front.length = cursor :=
    ⟨xs.take cursor, xs[cursor], xs.drop (cursor + 1),
      by rw [← List.drop_eq_getElem_cons h, List.take_append_drop],
      by rw [List.length_take]; omega⟩
  have hset : xs.set cursor x = (front ++ [x]) ++ back := by
    rw [hsplit, ← hfront, List.set_append_right _ _ (Nat.le_refl _), Nat.sub_self,
      List.set_cons_zero, List.append_assoc, List.singleton_append]
  have hlength : (xs.set cursor x).length = xs.length := List.length_set
  have hnext : cursor + 1 = (front ++ [x]).length := by
    rw [List.length_append, List.length_singleton, hfront]
  have hread : xs.rotate cursor = old :: back ++ front := by
    rw [hsplit, ← hfront, List.rotate_append_length_eq]
  rw [← hlength, List.rotate_mod, hset, hnext, List.rotate_append_length_eq, hread,
    List.cons_append, List.drop_one, List.tail_cons, List.append_assoc]

end Latest

section Keyed

variable {α κ : Type} {key : α → κ}

/-- In a history without a key twice the elements of two parts have different keys. -/
theorem key_ne_of_split {xs ys : List α} (h : ((xs ++ ys).map key).Nodup) {x y : α} (hx : x ∈ xs)
    (hy : y ∈ ys) : key x ≠ key y := by
  rw [List.map_append, List.nodup_append] at h
  exact h.2.2 _ (List.mem_map_of_mem hx) _ (List.mem_map_of_mem hy)

/-- **The index.**  When `gone` goes from the front and `x` comes at the end of a history without
    a key twice, a key of `gone` is found no longer, the key of `x` is found at `x`, and every
    other key where it was. -/
theorem found_iff {gone kept : List α} {x : α} (h : ((gone ++ kept ++ [x]).map key).Nodup)
    (z : α) (i : κ) : z ∈ kept ++ [x] ∧ key z = i ↔
      (¬ ∃ y ∈ gone, key y = i) ∧
        (i = key x ∧ z = x ∨ i ≠ key x ∧ z ∈ gone ++ kept ∧ key z = i) := by
  have hnew : ∀ y ∈ gone ++ kept, key y ≠ key x := fun y hy =>
    key_ne_of_split h hy (List.mem_singleton.mpr rfl)
  rw [List.append_assoc] at h
  constructor
  · rintro ⟨hz, rfl⟩
    refine ⟨?_, ?_⟩
    · rintro ⟨y, hy, hkey⟩
      exact key_ne_of_split h hy hz hkey
    · rcases List.mem_append.mp hz with hkept | hlast
      · have hold : z ∈ gone ++ kept := List.mem_append_right _ hkept
        exact .inr ⟨hnew z hold, hold, rfl⟩
      · rw [List.mem_singleton.mp hlast]
        exact .inl ⟨rfl, rfl⟩
  · rintro ⟨hstays, ⟨rfl, rfl⟩ | ⟨-, hold, rfl⟩⟩
    · exact ⟨List.mem_append_right _ (List.mem_singleton.mpr rfl), rfl⟩
    · rcases List.mem_append.mp hold with hgone | hkept
      · exact absurd ⟨z, hgone, rfl⟩ hstays
      · exact ⟨List.mem_append_left _ hkept, rfl⟩

end Keyed

end CreditFabric.Lib
