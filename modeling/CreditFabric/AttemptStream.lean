import CreditFabric.Client
import CreditFabric.DigestLanes

namespace CreditFabric

open Function (Injective)

/-!
# The stream of attempt identities

The mixers are permutations of the words, so a generator never issues an identity twice while
its counter does not wrap (`AttemptIdGenerator.issued_injective`).  The replacement of a zero
identity, which could break this, is never made.
-/

/-! ### The stream -/

namespace AttemptIdGenerator

/-- Two words with the same parity never differ by an odd one. -/
private theorem xor_even {x y : UInt64} (h : x.toNat % 2 = y.toNat % 2) :
    (x ^^^ y).toNat % 2 ≠ 1 := by
  rw [UInt64.toNat_xor, ne_eq, Nat.xor_mod_two_eq_one, h]
  simp

/-- An identity is never replaced.  Where both halves are zero the seed is the negated counter,
    so the two words under the mixer have the same parity, and their difference is not odd. -/
theorem not_isZero (seed counter : UInt64) : (Digest128.mk
    (mix64 (seed ^^^ (counter * 0x9E3779B97F4A7C15)))
    (avalanch64 (mix64 (seed ^^^ (counter * 0x9E3779B97F4A7C15)) + counter + seed))).isZero =
      false := by
  by_contra hzero
  rw [Bool.not_eq_false, Digest128.isZero, Bool.and_eq_true, beq_iff_eq, beq_iff_eq] at hzero
  obtain ⟨hlo, hhi⟩ := hzero
  have hmixed : mix64 0x61C8864680B583EB = 0 := by decide
  have hspread : avalanch64 0 = 0 := by decide
  have hword : seed ^^^ (counter * 0x9E3779B97F4A7C15) = 0x61C8864680B583EB :=
    mix64_injective (hlo.trans hmixed.symm)
  have hsum : mix64 (seed ^^^ (counter * 0x9E3779B97F4A7C15)) + counter + seed = 0 :=
    avalanch64_injective (hhi.trans hspread.symm)
  rw [show mix64 (seed ^^^ (counter * 0x9E3779B97F4A7C15)) = 0 from hlo, UInt64.zero_add] at hsum
  have hnegated : (counter.toNat + seed.toNat) % 2 ^ 64 = 0 := by
    rw [← UInt64.toNat_add, hsum]
    rfl
  have hproduct : (counter * 0x9E3779B97F4A7C15).toNat =
      counter.toNat * 0x9E3779B97F4A7C15 % 2 ^ 64 := UInt64.toNat_mul _ _
  refine xor_even (x := seed) (y := counter * 0x9E3779B97F4A7C15) ?_ ?_
  · rw [hproduct]
    omega
  · rw [hword]
    decide

/-- The low word of an id mixes the counter with the seed. -/
theorem issued_lo (seed counter : UInt64) :
    (issued seed counter).lo = mix64 (seed ^^^ (counter * 0x9E3779B97F4A7C15)) := by
  unfold issued
  simp only [not_isZero, Bool.false_eq_true, if_false]

/-- **No identity is issued twice.** -/
theorem issued_injective (seed : UInt64) : Injective (issued seed) := by
  intro n m h
  have hlo := congrArg Digest128.lo h
  rw [issued_lo, issued_lo] at hlo
  have hproduct := (UInt64.xor_right_inj seed).mp (mix64_injective hlo)
  exact Lib.mul_injective (c := 0x9E3779B97F4A7C15) (d := 0xF1DE83E19937733D) (by decide) hproduct

/-- The identities of the next `n` calls. -/
def nexts : Nat → AttemptIdGenerator → List AttemptId
  | 0, _ => []
  | n + 1, g => g.next.1 :: nexts n g.next.2

/-- A generator counts on from where it stands. -/
private theorem nexts_eq (n : Nat) (g : AttemptIdGenerator) :
    nexts n g = (List.range n).map fun k => issued g.streamSeed (g.counter + UInt64.ofNat (k + 1)) := by
  induction n generalizing g with
  | zero => rfl
  | succ n ih =>
    have hfirst : g.next.1 = issued g.streamSeed (g.counter + 1) := rfl
    have hseed : g.next.2.streamSeed = g.streamSeed := rfl
    have hcounter : g.next.2.counter = g.counter + 1 := rfl
    have hone : UInt64.ofNat 1 = 1 := UInt64.ofNat_one
    rw [nexts, ih, List.range_succ_eq_map, List.map_cons, List.map_map, Nat.zero_add, hone, hfirst,
      hseed, hcounter]
    refine congrArg (List.cons _) (List.map_congr_left fun k _ => ?_)
    rw [Function.comp_apply, Nat.succ_eq_add_one, UInt64.ofNat_add (k + 1) 1, hone,
      UInt64.add_assoc, UInt64.add_comm 1]

/-- **Generated identities never repeat.**  Up to the call that wraps the counter, the identities
    of one generator are pairwise distinct, and none is the unset one. -/
theorem nexts_distinct (seed : UInt64) (_hseed : seed ≠ 0) (n : Nat) (hn : n ≤ 2 ^ 64 - 1) :
    (nexts n { streamSeed := seed }).Nodup ∧
      ∀ id ∈ nexts n { streamSeed := seed }, id.isZero = false := by
  rw [nexts_eq]
  constructor
  · refine (List.nodup_map_iff_inj_on List.nodup_range).mpr fun k hk l hl hsame => ?_
    rw [List.mem_range] at hk hl
    have hcounter := issued_injective seed hsame
    rw [UInt64.add_right_inj] at hcounter
    have hnat := congrArg UInt64.toNat hcounter
    rw [UInt64.toNat_ofNat_of_lt' (show k + 1 < UInt64.size by simp only [UInt64.size]; omega),
      UInt64.toNat_ofNat_of_lt' (show l + 1 < UInt64.size by simp only [UInt64.size]; omega)] at hnat
    omega
  · intro id hid
    obtain ⟨k, -, rfl⟩ := List.mem_map.mp hid
    simp only [issued, not_isZero, Bool.false_eq_true, if_false]

/-- Three identities of the seed one. -/
theorem seedOne_distinct : (nexts 3 { streamSeed := 1 }).Nodup ∧
    ∀ id ∈ nexts 3 { streamSeed := 1 }, id.isZero = false :=
  nexts_distinct 1 (by decide) 3 (by decide)

end AttemptIdGenerator

end CreditFabric
