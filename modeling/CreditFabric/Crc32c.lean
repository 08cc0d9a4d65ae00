import CreditFabric.Bytes

namespace CreditFabric

/-!
# CRC-32C

The table-driven checksum of `crc32c.cpp`.  The lookup table is the function that fills it: an
entry is eight reduction steps from its index.

The top byte of a table entry determines its index (`crcIndex_crcTable`).  So the checksum of a
byte can be undone, and strings that differ in one byte have different checksums
(`crc32c_byte`).
-/

/-- The polynomial of Castagnoli, its bits reversed. -/
def crcPolynomial : UInt32 := 0x82F63B78

/-- One reduction step of the reflected checksum. -/
def crcStep (crc : UInt32) : UInt32 :=
  if crc &&& 1 ≠ 0 then (crc >>> 1) ^^^ crcPolynomial else crc >>> 1

/-- The entry of the lookup table at `index`. -/
def crcTable (index : UInt32) : UInt32 := Nat.fold 8 (fun _ _ crc => crcStep crc) index

/-- The table lookup of one byte. -/
def crcByte (crc : UInt32) (byte : UInt8) : UInt32 :=
  crcTable ((crc ^^^ byte.toUInt32) &&& 0xFF) ^^^ (crc >>> 8)

/-- `crc32c`, on top of the checksum of what came before. -/
def crc32c (data : List UInt8) (seed : UInt32 := 0) : UInt32 := ~~~ (data.foldl crcByte (~~~ seed))

/-- The check value of the polynomial, over the digits one to nine. -/
example : crc32c [0x31, 0x32, 0x33, 0x34, 0x35, 0x36, 0x37, 0x38, 0x39] = 0xE3069283 := by
  decide +kernel

/-! ### One byte makes a difference -/

/-- The reduction step run backwards: the top bit tells whether the polynomial was added. -/
def crcUnstep (crc : UInt32) : UInt32 :=
  if crc &&& 0x80000000 ≠ 0 then ((crc ^^^ crcPolynomial) <<< 1) ||| 1 else crc <<< 1

/-- The index of the table entry with this top byte. -/
def crcIndex (top : UInt32) : UInt32 :=
  Nat.fold 8 (fun _ _ crc => crcUnstep crc) (top <<< 24) &&& 0xFF

/-- The high byte of a table entry names its place in the table. -/
theorem crcIndex_crcTable : ∀ i : Fin 256,
    crcIndex (crcTable (UInt32.ofNat i) >>> 24) = UInt32.ofNat i := by decide +kernel

/-- The low byte of a register is an index of the table. -/
private theorem exists_low_byte (x : UInt32) : ∃ i : Fin 256, x &&& 0xFF = UInt32.ofNat i := by
  refine ⟨⟨(x &&& 0xFF).toNat, ?_⟩, ?_⟩
  · rw [UInt32.toNat_and]
    exact lt_of_le_of_lt Nat.and_le_right (by decide)
  · simp

/-- The register moves down a byte, so the top byte is that of the table entry. -/
theorem crcIndex_crcByte (crc : UInt32) (byte : UInt8) :
    crcIndex (crcByte crc byte >>> 24) = (crc ^^^ byte.toUInt32) &&& 0xFF := by
  have hzero : crc >>> 8 >>> 24 = 0 := by
    have hlt := crc.toNat_lt
    refine UInt32.toNat_inj.mp ?_
    simp only [UInt32.toNat_shiftRight, UInt32.reduceToNat, Nat.reduceMod,
      Nat.shiftRight_eq_div_pow]
    omega
  have htop : crcByte crc byte >>> 24 = crcTable ((crc ^^^ byte.toUInt32) &&& 0xFF) >>> 24 := by
    unfold crcByte
    rw [UInt32.shiftRight_xor, hzero, UInt32.xor_zero]
  obtain ⟨i, hi⟩ := exists_low_byte (crc ^^^ byte.toUInt32)
  rw [htop, hi, crcIndex_crcTable]

/-- The low byte of a sum is the sum of the low bytes. -/
theorem low_byte_xor (x y : UInt32) : (x ^^^ y) &&& 0xFF = (x &&& 0xFF) ^^^ (y &&& 0xFF) := by
  refine UInt32.toBitVec_inj.mp ?_
  simp only [UInt32.toBitVec_and, UInt32.toBitVec_xor]
  refine BitVec.eq_of_getLsbD_eq fun i _ => ?_
  simp only [BitVec.getLsbD_and, BitVec.getLsbD_xor, Bool.and_xor_distrib_right]

/-- The checksum of a byte separates registers. -/
theorem crcByte_left_inj {x y : UInt32} {byte : UInt8} (h : crcByte x byte = crcByte y byte) :
    x = y := by
  have hindex := crcIndex_crcByte x byte
  rw [h, crcIndex_crcByte] at hindex
  have hlow : x &&& 0xFF = y &&& 0xFF := by
    rw [low_byte_xor, low_byte_xor, UInt32.xor_left_inj] at hindex
    exact hindex.symm
  have hhigh : x >>> 8 = y >>> 8 := by
    unfold crcByte at h
    rw [hindex, UInt32.xor_right_inj] at h
    exact h
  have hlow' := congrArg UInt32.toNat hlow
  have hhigh' := congrArg UInt32.toNat hhigh
  simp only [UInt32.toNat_and, UInt32.toNat_shiftRight, UInt32.reduceToNat, Nat.reduceMod,
    Nat.shiftRight_eq_div_pow, show (255 : Nat) = 2 ^ 8 - 1 from rfl,
    Nat.and_two_pow_sub_one_eq_mod] at hlow' hhigh'
  refine UInt32.toNat_inj.mp ?_
  omega

/-- In one register it separates bytes. -/
theorem crcByte_right_inj {crc : UInt32} {byte byte' : UInt8}
    (h : crcByte crc byte = crcByte crc byte') : byte = byte' := by
  have hindex := crcIndex_crcByte crc byte
  rw [h, crcIndex_crcByte, low_byte_xor, low_byte_xor, UInt32.xor_right_inj] at hindex
  have hnat := congrArg UInt32.toNat hindex
  have hlt := byte.toNat_lt
  have hlt' := byte'.toNat_lt
  simp only [UInt32.toNat_and, UInt8.toNat_toUInt32, UInt32.reduceToNat,
    show (255 : Nat) = 2 ^ 8 - 1 from rfl, Nat.and_two_pow_sub_one_eq_mod] at hnat
  refine UInt8.toNat_inj.mp ?_
  omega

/-- A checksum goes back to the one it started from. -/
theorem foldl_crcByte_inj {data : List UInt8} {x y : UInt32}
    (h : data.foldl crcByte x = data.foldl crcByte y) : x = y := by
  induction data generalizing x y with
  | nil => exact h
  | cons byte data ih => exact crcByte_left_inj (ih h)

/-- **One byte.**  Strings that differ in one byte have different checksums. -/
theorem crc32c_byte {before after : List UInt8} {byte byte' : UInt8} {seed : UInt32}
    (h : crc32c (before ++ byte :: after) seed = crc32c (before ++ byte' :: after) seed) :
    byte = byte' := by
  unfold crc32c at h
  rw [UInt32.not_inj, List.foldl_append, List.foldl_append] at h
  exact crcByte_right_inj (foldl_crcByte_inj h)

/-- Overwriting a byte with another one changes the checksum. -/
theorem crc32c_set {data : List UInt8} {i : Nat} {byte : UInt8} (hi : i < data.length)
    (h : crc32c (data.set i byte) = crc32c data) : data[i]? = some byte := by
  have hset : data.set i byte = data.take i ++ byte :: data.drop (i + 1) := by
    rw [List.set_eq_take_append_cons_drop, if_pos hi]
  have hdata : data = data.take i ++ data[i] :: data.drop (i + 1) := by
    rw [← List.drop_eq_getElem_cons hi, List.take_append_drop]
  rw [hset] at h
  nth_rewrite 3 [hdata] at h
  rw [crc32c_byte h, List.getElem?_eq_getElem hi]

end CreditFabric
