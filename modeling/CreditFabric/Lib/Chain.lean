import Mathlib.Data.List.Infix

namespace CreditFabric.Lib

/-!
# Chains of stamped elements

Every element of a chain carries a stamp that is computed from the stamp in front of it.  Where
a stamp gives the one in front of it away (`Rigid`) and the first one never returns, a chain
that is put together from the elements of another one, in any order, with omissions and
repetitions, is a prefix of it (`Chain.prefix_of_subset`).

* `Fits c x`: the element `x` may stand behind the stamp `c`.
* `tip`: the stamp behind a list, the one in front of it when the list is empty.
-/

variable {α β : Type} (stamp : α → β) (start : β)

/-- The stamp behind a list. -/
def tip (xs : List α) : β := (xs.getLast?.map stamp).getD start

/-- Behind no stamps the tip is the start. -/
@[simp] theorem tip_nil : tip stamp start [] = start := rfl

/-- The tip is the last stamp. -/
@[simp] theorem tip_concat (xs : List α) (x : α) : tip stamp start (xs ++ [x]) = stamp x := by
  simp [tip]

/-- Every element fits the stamp in front of it. -/
def Chain (Fits : β → α → Prop) (xs : List α) : Prop :=
  ∀ (front : List α) (x : α), front ++ [x] <+: xs → Fits (tip stamp start front) x

/-- What fits a stamp is the same stamp's only predecessor, and the first one is not a stamp. -/
structure Rigid (Fits : β → α → Prop) (xs : List α) : Prop where
  back : ∀ x ∈ xs, ∀ y ∈ xs, ∀ c ∈ start :: xs.map stamp, ∀ d ∈ start :: xs.map stamp,
    Fits c x → Fits d y → stamp x = stamp y → c = d
  fresh : ∀ x ∈ xs, stamp x ≠ start

variable {stamp start} {Fits : β → α → Prop} {xs ys : List α}

/-- No stamps are a chain. -/
theorem chain_nil : Chain stamp start Fits [] := by
  intro front x hpre
  have hnil := List.prefix_nil.mp hpre
  exact absurd hnil (by simp)

/-- A prefix of a chain is a chain. -/
theorem Chain.of_prefix (h : Chain stamp start Fits xs) (hys : ys <+: xs) :
    Chain stamp start Fits ys :=
  fun front x hpre => h front x (hpre.trans hys)

/-- One more element that fits. -/
theorem Chain.concat (h : Chain stamp start Fits xs) {x : α} (hx : Fits (tip stamp start xs) x) :
    Chain stamp start Fits (xs ++ [x]) := by
  intro front y hpre
  rcases List.prefix_concat_iff.mp hpre with heq | hold
  · obtain ⟨rfl, hlast⟩ := List.append_inj' heq rfl
    obtain rfl := (List.cons.inj hlast).1
    exact hx
  · exact h front y hold

/-- The stamp behind a prefix is the start or a stamp of the list. -/
theorem tip_mem (hys : ys <+: xs) : tip stamp start ys ∈ start :: xs.map stamp := by
  rcases List.eq_nil_or_concat ys with rfl | ⟨front, x, rfl⟩
  · exact List.mem_cons_self
  · rw [List.concat_eq_append] at hys ⊢
    rw [tip_concat]
    refine List.mem_cons_of_mem _ (List.mem_map_of_mem (hys.subset ?_))
    exact List.mem_append_right _ (List.mem_singleton_self x)

/-- **Stamps do not return.**  Two prefixes of a rigid chain with the same stamp behind them are
    the same. -/
theorem Chain.tip_injective (h : Chain stamp start Fits xs) (hrigid : Rigid stamp start Fits xs)
    (hys : ys <+: xs) {zs : List α} (hzs : zs <+: xs)
    (htip : tip stamp start ys = tip stamp start zs) : ys = zs := by
  -- induction on the first prefix, from its end
  induction ys using List.reverseRecOn generalizing zs with
  | nil =>
    rcases List.eq_nil_or_concat zs with rfl | ⟨front, z, rfl⟩
    · rfl
    · rw [List.concat_eq_append] at hzs htip
      rw [tip_nil, tip_concat] at htip
      have hz : z ∈ xs := hzs.subset (List.mem_append_right _ (List.mem_singleton_self z))
      exact absurd htip.symm (hrigid.fresh z hz)
  | append_singleton front y ih =>
    have hy : y ∈ xs := hys.subset (List.mem_append_right _ (List.mem_singleton_self y))
    have hfront : front <+: xs := (List.prefix_append _ _).trans hys
    rw [tip_concat] at htip
    rcases List.eq_nil_or_concat zs with rfl | ⟨front', z, rfl⟩
    · exact absurd htip (hrigid.fresh y hy)
    · rw [List.concat_eq_append] at hzs htip ⊢
      rw [tip_concat] at htip
      have hz : z ∈ xs := hzs.subset (List.mem_append_right _ (List.mem_singleton_self z))
      have hfront' : front' <+: xs := (List.prefix_append _ _).trans hzs
      have hback := hrigid.back y hy z hz _ (tip_mem hfront) _ (tip_mem hfront')
        (h front y hys) (h front' z hzs) htip
      obtain rfl := ih hfront hfront' hback
      -- two prefixes of one length
      have hlength : (front ++ [y]).length = (front ++ [z]).length := by simp
      exact (List.prefix_of_prefix_length_le hys hzs hlength.le).eq_of_length hlength

/-- **Rearrangements.**  A chain of elements of a rigid chain is a prefix of it. -/
theorem Chain.prefix_of_subset (h : Chain stamp start Fits xs)
    (hrigid : Rigid stamp start Fits xs) (hchain : Chain stamp start Fits ys)
    (hsub : ∀ y ∈ ys, y ∈ xs) : ys <+: xs := by
  induction ys using List.reverseRecOn with
  | nil => exact List.nil_prefix
  | append_singleton front y ih =>
    have hfront := ih (hchain.of_prefix (List.prefix_append _ _))
      fun x hx => hsub x (List.mem_append_left _ hx)
    have hy := hsub y (List.mem_append_right _ (List.mem_singleton_self y))
    -- the place of `y` in the rigid chain
    obtain ⟨before, after, rfl⟩ := List.append_of_mem hy
    have hplace : before ++ [y] <+: before ++ y :: after := ⟨after, by simp⟩
    have hbefore : before <+: before ++ y :: after := List.prefix_append _ _
    have hback := hrigid.back y hy y hy _ (tip_mem hfront) _ (tip_mem hbefore)
      (hchain front y (List.prefix_refl _)) (h before y hplace) rfl
    rw [h.tip_injective hrigid hfront hbefore hback]
    exact hplace

end CreditFabric.Lib
