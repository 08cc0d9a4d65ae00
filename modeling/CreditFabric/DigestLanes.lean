import CreditFabric.Lib.Mixing
import CreditFabric.Request

namespace CreditFabric

open Function (Injective)

/-!
# The lanes of a digest

A builder keeps two lanes, and no step of either loses anything: `mix64` and `avalanch64` are
permutations of the words, an input is xored into one lane and added to the other.  So two
builders whose lanes differ stay apart in both lanes whatever they absorb (`Apart.absorb`), two
inputs that differ in one word, flag or byte set them apart (`Altered.apart`), and the digests
differ in both halves (`finish_ne_of_altered`).
-/

/-! ### The mixers -/

/-- `mix64` loses nothing. -/
theorem mix64_injective : Injective mix64 := by
  have hadd : Injective fun x : UInt64 => x + 0x9E3779B97F4A7C15 :=
    fun _ _ h => (UInt64.add_left_inj _).mp h
  have hfirst := (Lib.mul_injective (c := 0xBF58476D1CE4E5B9) (d := 0x96DE1B173F119089)
    (by decide)).comp (Lib.xorShift_injective (k := 30) (by decide))
  have hsecond := (Lib.mul_injective (c := 0x94D049BB133111EB) (d := 0x319642B2D24D8EC3)
    (by decide)).comp (Lib.xorShift_injective (k := 27) (by decide))
  exact (Lib.xorShift_injective (k := 31) (by decide)).comp (hsecond.comp (hfirst.comp hadd))

/-- `avalanch64` loses nothing. -/
theorem avalanch64_injective : Injective avalanch64 := by
  have hfirst := (Lib.mul_injective (c := 0xFF51AFD7ED558CCD) (d := 0x4F74430C22A54005)
    (by decide)).comp (Lib.xorShift_injective (k := 33) (by decide))
  have hsecond := (Lib.mul_injective (c := 0xC4CEB9FE1A85EC53) (d := 0x9CB4B2F8129337DB)
    (by decide)).comp (Lib.xorShift_injective (k := 33) (by decide))
  exact (Lib.xorShift_injective (k := 33) (by decide)).comp (hsecond.comp hfirst)

namespace DigestBuilder

/-! ### Builders that differ -/

/-- The builders have absorbed inputs of one shape and differ in both lanes. -/
structure Apart (b b' : DigestBuilder) : Prop where
  lo : b.lo ≠ b'.lo
  hi : b.hi ≠ b'.hi
  length : b.length = b'.length

/-- Builders that are apart stay apart behind the same word. -/
theorem Apart.u64 {b b' : DigestBuilder} (h : Apart b b') (v : UInt64) :
    Apart (b.u64 v) (b'.u64 v) where
  lo hsame := h.lo ((UInt64.xor_left_inj _).mp (avalanch64_injective hsame))
  hi hsame := h.hi ((UInt64.add_left_inj _).mp (avalanch64_injective hsame))
  length := congrArg (· + 1) h.length

/-- Behind the same byte. -/
theorem Apart.byteStep {b b' : DigestBuilder} (h : Apart b b') (i : Nat) (p : UInt8) :
    Apart (b.byteStep i p) (b'.byteStep i p) where
  lo hsame := h.lo ((UInt64.xor_left_inj _).mp (avalanch64_injective hsame))
  hi hsame := by
    have hsum : b.hi + p.toUInt64 + mix64 (UInt64.ofNat i + 1) =
        b'.hi + p.toUInt64 + mix64 (UInt64.ofNat i + 1) := avalanch64_injective hsame
    exact h.hi ((UInt64.add_left_inj _).mp ((UInt64.add_left_inj _).mp hsum))
  length := congrArg (· + 1) h.length

/-- Behind the same bytes. -/
theorem Apart.bytesFrom {b b' : DigestBuilder} (h : Apart b b') (i : Nat) (data : List UInt8) :
    Apart (b.bytesFrom i data) (b'.bytesFrom i data) := by
  induction data generalizing b b' i with
  | nil => exact h
  | cons p rest ih => exact ih (h.byteStep i p) (i + 1)

/-- Their digests differ in both lanes. -/
theorem Apart.finish {b b' : DigestBuilder} (h : Apart b b') :
    b.finish.lo ≠ b'.finish.lo ∧ b.finish.hi ≠ b'.finish.hi := by
  have hlength := h.length
  constructor
  · intro hsame
    have hlo : b.lo ^^^ mix64 (b.length + 0x2545F4914F6CDD1D) =
        b'.lo ^^^ mix64 (b'.length + 0x2545F4914F6CDD1D) := avalanch64_injective hsame
    rw [hlength] at hlo
    exact h.lo ((UInt64.xor_left_inj _).mp hlo)
  · intro hsame
    have hhi : b.hi ^^^ mix64 (b.length + 0x14057B7EF767814F) =
        b'.hi ^^^ mix64 (b'.length + 0x14057B7EF767814F) := avalanch64_injective hsame
    rw [hlength] at hhi
    exact h.hi ((UInt64.xor_left_inj _).mp hhi)

/-! ### Inputs that differ -/

/-- Another word sets builders apart. -/
theorem u64_apart (b : DigestBuilder) {v v' : UInt64} (h : v ≠ v') : Apart (b.u64 v) (b.u64 v') where
  lo hsame := by
    have hmixed := (UInt64.xor_right_inj b.lo).mp (avalanch64_injective hsame)
    exact h ((UInt64.add_left_inj _).mp (mix64_injective hmixed))
  hi hsame := by
    have hmixed := (UInt64.add_right_inj b.hi).mp (avalanch64_injective hsame)
    exact h ((UInt64.xor_left_inj _).mp (mix64_injective hmixed))
  length := rfl

/-- A byte keeps its place when it is shifted within a word. -/
private theorem shiftByte_inj {p q : UInt8} {i : Nat}
    (h : p.toUInt64 <<< UInt64.ofNat (i % 8 * 8) = q.toUInt64 <<< UInt64.ofNat (i % 8 * 8)) :
    p = q := by
  have hnat := congrArg UInt64.toNat h
  have hplace : (UInt64.ofNat (i % 8 * 8)).toNat % 64 = i % 8 * 8 := by
    rw [UInt64.toNat_ofNat_of_lt' (by simp only [UInt64.size]; omega)]
    omega
  have hp := p.toNat_lt
  have hq := q.toNat_lt
  have hpow : 2 ^ (i % 8 * 8) ≤ 2 ^ 56 := Nat.pow_le_pow_right (by decide) (by omega)
  have hpos : 0 < 2 ^ (i % 8 * 8) := Nat.two_pow_pos _
  have hfits : ∀ {n : Nat}, n < 2 ^ 8 → n * 2 ^ (i % 8 * 8) < 2 ^ 64 := fun hn => by
    calc _ < 2 ^ 8 * 2 ^ (i % 8 * 8) := (Nat.mul_lt_mul_right hpos).mpr hn
      _ ≤ 2 ^ 8 * 2 ^ 56 := Nat.mul_le_mul_left _ hpow
      _ = 2 ^ 64 := by decide
  rw [UInt64.toNat_shiftLeft, UInt64.toNat_shiftLeft, hplace, Nat.shiftLeft_eq, Nat.shiftLeft_eq,
    UInt8.toNat_toUInt64, UInt8.toNat_toUInt64, Nat.mod_eq_of_lt (hfits hp),
    Nat.mod_eq_of_lt (hfits hq)] at hnat
  exact UInt8.toNat_inj.mp (Nat.eq_of_mul_eq_mul_right hpos hnat)

/-- Another byte sets builders apart. -/
theorem byteStep_apart (b : DigestBuilder) (i : Nat) {p q : UInt8} (h : p ≠ q) :
    Apart (b.byteStep i p) (b.byteStep i q) where
  lo hsame := h (shiftByte_inj ((UInt64.xor_right_inj b.lo).mp (avalanch64_injective hsame)))
  hi hsame := by
    have hsum : b.hi + p.toUInt64 + mix64 (UInt64.ofNat i + 1) =
        b.hi + q.toUInt64 + mix64 (UInt64.ofNat i + 1) := avalanch64_injective hsame
    have hbyte := (UInt64.add_right_inj _).mp ((UInt64.add_left_inj _).mp hsum)
    refine h (UInt8.toNat_inj.mp ?_)
    have hnat := congrArg UInt64.toNat hbyte
    rwa [UInt8.toNat_toUInt64, UInt8.toNat_toUInt64] at hnat
  length := rfl

/-- One call of a builder. -/
inductive Input where
  | u64 (v : UInt64)
  | boolean (v : Bool)
  | bytes (data : List UInt8)
deriving DecidableEq, Repr

/-- One input into a builder. -/
def absorbInput (b : DigestBuilder) : Input → DigestBuilder
  | .u64 v => b.u64 v
  | .boolean v => b.boolean v
  | .bytes data => b.bytes data

/-- The calls of a builder, in order. -/
def absorbAll (b : DigestBuilder) (inputs : List Input) : DigestBuilder :=
  inputs.foldl absorbInput b

/-- The calls are of one kind and differ in one word, one flag or one byte. -/
inductive Altered : Input → Input → Prop
  | word {v v' : UInt64} (h : v ≠ v') : Altered (.u64 v) (.u64 v')
  | flag {v v' : Bool} (h : v ≠ v') : Altered (.boolean v) (.boolean v')
  | byte {before after : List UInt8} {p q : UInt8} (h : p ≠ q) :
      Altered (.bytes (before ++ p :: after)) (.bytes (before ++ q :: after))

/-- **One change.**  It sets the two builders apart. -/
theorem Altered.apart {x y : Input} (h : Altered x y) (b : DigestBuilder) :
    Apart (b.absorbInput x) (b.absorbInput y) := by
  cases h with
  | word h => exact u64_apart b h
  | @flag v v' h =>
    refine u64_apart b ?_
    cases v <;> cases v'
    · exact absurd rfl h
    · decide
    · decide
    · exact absurd rfl h
  | @byte before after p q h =>
    show Apart (b.bytesFrom 0 _) (b.bytesFrom 0 _)
    generalize 0 = i
    induction before generalizing b i with
    | nil => exact (byteStep_apart b i h).bytesFrom (i + 1) after
    | cons c before ih => exact ih (b.byteStep i c) (i + 1)

/-- Equal calls keep two builders apart. -/
theorem Apart.absorbAll {b b' : DigestBuilder} (h : Apart b b') (inputs : List Input) :
    Apart (b.absorbAll inputs) (b'.absorbAll inputs) := by
  induction inputs generalizing b b' with
  | nil => exact h
  | cons x inputs ih =>
    have hnext : Apart (b.absorbInput x) (b'.absorbInput x) := by
      cases x with
      | u64 v => exact h.u64 v
      | boolean v => exact h.u64 _
      | bytes data => exact h.bytesFrom 0 data
    exact ih hnext

/-- Inputs one list behind the other. -/
theorem absorbAll_append (b : DigestBuilder) (xs ys : List Input) :
    b.absorbAll (xs ++ ys) = (b.absorbAll xs).absorbAll ys := List.foldl_append

/-- **One change in a sequence of calls** makes another digest, in both halves. -/
theorem finish_ne_of_altered (b : DigestBuilder) {x y : Input} (h : Altered x y)
    (before after : List Input) :
    (b.absorbAll (before ++ x :: after)).finish.lo ≠
        (b.absorbAll (before ++ y :: after)).finish.lo ∧
      (b.absorbAll (before ++ x :: after)).finish.hi ≠
        (b.absorbAll (before ++ y :: after)).finish.hi := by
  rw [absorbAll_append, absorbAll_append]
  exact ((h.apart (b.absorbAll before)).absorbAll after).finish

end DigestBuilder

end CreditFabric
