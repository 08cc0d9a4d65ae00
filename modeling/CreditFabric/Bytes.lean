import CreditFabric.Strong

namespace CreditFabric

open Lib Lib.Decoder

/-!
# Little-endian byte codec

`ByteWriter` and `ByteReader` of `bytes.hpp`.  A writer operation is modelled by the bytes it
appends.  A reader operation that fails reports the reader at the point of failure, from
which the callers take the position they put into their status.
-/

/-! ### Writer -/

namespace ByteWriter

/-- One byte. -/
def u8 (value : UInt8) : List UInt8 := [value]

/-- A boolean as one byte. -/
def boolean (value : Bool) : List UInt8 := [if value then 1 else 0]

/-- Two bytes, the lowest first. -/
def u16 (value : UInt16) : List UInt8 := leBytes 2 value.toNat

/-- Four bytes, the lowest first. -/
def u32 (value : UInt32) : List UInt8 := leBytes 4 value.toNat

/-- Eight bytes, the lowest first. -/
def u64 (value : UInt64) : List UInt8 := leBytes 8 value.toNat

/-- Both words of a digest. -/
def digest (value : Digest128) : List UInt8 := u64 value.lo ++ u64 value.hi

/-- A length-prefixed string; nothing at all is written beyond `maxBytes`. -/
def text (value : List UInt8) (maxBytes : Nat) : List UInt8 :=
  if value.length > maxBytes then [] else u32 (UInt32.ofNat value.length) ++ value

@[simp] theorem length_u8 (v : UInt8) : (u8 v).length = 1 := rfl

@[simp] theorem length_boolean (v : Bool) : (boolean v).length = 1 := rfl

@[simp] theorem length_u16 (v : UInt16) : (u16 v).length = 2 := length_leBytes _ _

@[simp] theorem length_u32 (v : UInt32) : (u32 v).length = 4 := length_leBytes _ _

@[simp] theorem length_u64 (v : UInt64) : (u64 v).length = 8 := length_leBytes _ _

@[simp] theorem length_digest (v : Digest128) : (digest v).length = 16 := by simp [digest]

/-- A word is determined by its bytes. -/
theorem u64_inj {v w : UInt64} (h : u64 v = u64 w) : v = w := by
  have hval := congrArg leValue h
  unfold u64 at hval
  rw [leValue_leBytes 8 _ v.toNat_lt, leValue_leBytes 8 _ w.toNat_lt] at hval
  exact UInt64.toNat_inj.mp hval

end ByteWriter

/-! ### Reader -/

/-- The unread bytes and the position of the source's `ByteReader`. -/
abbrev ByteReader := Cursor

namespace ByteReader

/-- `ByteReader::u8`. -/
def u8 : Decoder ByteReader UInt8 := do
  let bs ← readBytes 1
  pure (UInt8.ofNat (leValue bs))

/-- A byte above one is refused after it has been read. -/
def boolean : Decoder ByteReader Bool := do
  let raw ← u8
  if raw > 1 then Decoder.fail id else pure (raw == 1)

/-- `ByteReader::u16`. -/
def u16 : Decoder ByteReader UInt16 := do
  let bs ← readBytes 2
  pure (UInt16.ofNat (leValue bs))

/-- `ByteReader::u32`. -/
def u32 : Decoder ByteReader UInt32 := do
  let bs ← readBytes 4
  pure (UInt32.ofNat (leValue bs))

/-- `ByteReader::u64`. -/
def u64 : Decoder ByteReader UInt64 := do
  let bs ← readBytes 8
  pure (UInt64.ofNat (leValue bs))

/-- `ByteReader::digest`. -/
def digest : Decoder ByteReader Digest128 := do
  let lo ← u64
  let hi ← u64
  pure { lo, hi }

/-- A length-prefixed string of at most `maxBytes` bytes. -/
def text (maxBytes : Nat) : Decoder ByteReader (List UInt8) := do
  let length ← u32
  if length.toNat > maxBytes then Decoder.fail id else readBytes length.toNat

/-- A fixed-width word read: `n` bytes, converted by the word type's `ofNat`. -/
theorem recognizes_word {α : Type} (n : Nat) (ofNat : Nat → α) (toNat : α → Nat)
    (hlt : ∀ a, toNat a < 256 ^ n) (hto : ∀ v < 256 ^ n, toNat (ofNat v) = v)
    (hof : ∀ a, ofNat (toNat a) = a) :
    Recognizes (do let bs ← readBytes n; pure (ofNat (leValue bs)))
      (fun a u => u = leBytes n (toNat a)) := by
  refine ((recognizes_readBytes n).bind fun bs => recognizes_pure _).congr (fun a u => ?_)
  constructor
  · rintro ⟨bs, v, w, ⟨hlen, rfl⟩, ⟨rfl, rfl⟩, rfl⟩
    have hval : toNat (ofNat (leValue v)) = leValue v := hto _ (hlen ▸ leValue_lt v)
    rw [List.append_nil, hval, ← hlen, leBytes_leValue]
  · rintro rfl
    refine ⟨_, _, [], ⟨length_leBytes _ _, rfl⟩, ⟨?_, rfl⟩, (List.append_nil _).symm⟩
    rw [leValue_leBytes _ _ (hlt a), hof]

/-- Two bytes are read back as they were written, and nothing else is read. -/
theorem recognizes_u16 : u16.Recognizes (fun v u => u = ByteWriter.u16 v) :=
  recognizes_word 2 UInt16.ofNat UInt16.toNat (fun v => v.toNat_lt)
    (fun _ hv => UInt16.toNat_ofNat_of_lt' hv) (fun v => by simp)

/-- The same of four bytes. -/
theorem recognizes_u32 : u32.Recognizes (fun v u => u = ByteWriter.u32 v) :=
  recognizes_word 4 UInt32.ofNat UInt32.toNat (fun v => v.toNat_lt)
    (fun _ hv => UInt32.toNat_ofNat_of_lt' hv) (fun v => by simp)

/-- The same of eight bytes. -/
theorem recognizes_u64 : u64.Recognizes (fun v u => u = ByteWriter.u64 v) :=
  recognizes_word 8 UInt64.ofNat UInt64.toNat (fun v => v.toNat_lt)
    (fun _ hv => UInt64.toNat_ofNat_of_lt' hv) (fun v => by simp)

/-- The same of one byte. -/
theorem recognizes_u8 : u8.Recognizes (fun v u => u = ByteWriter.u8 v) := by
  refine (recognizes_word 1 UInt8.ofNat UInt8.toNat (fun v => v.toNat_lt)
    (fun _ hv => UInt8.toNat_ofNat_of_lt' hv) (fun v => by simp)).congr (fun v u => ?_)
  simp [leBytes, ByteWriter.u8]

/-- The same of a boolean. -/
theorem recognizes_boolean : boolean.Recognizes (fun v u => u = ByteWriter.boolean v) := by
  intro c v c'
  have hu8 := recognizes_u8
  unfold boolean
  rw [Decoder.bind_def]
  constructor
  · intro h
    cases hc : u8 c with
    | error e => rw [hc] at h; exact absurd h (by simp)
    | ok r =>
      obtain ⟨raw, c₁⟩ := r
      obtain ⟨u, rfl, hrest, hpos⟩ := (hu8 c raw c₁).mp hc
      rw [hc] at h
      by_cases hraw : raw > 1
      · simp [hraw, Decoder.fail] at h
      · have hle : raw.toNat ≤ 1 := by
          simpa [UInt8.lt_iff_toNat_lt] using hraw
        simp only [hraw, if_false] at h
        obtain ⟨w, ⟨rfl, rfl⟩, hrest', hpos'⟩ := (recognizes_pure _ c₁ v c').mp h
        refine ⟨_, rfl, ?_, ?_⟩
        · rw [hrest, hrest']
          have hcases : raw = 0 ∨ raw = 1 := by
            rcases Nat.le_one_iff_eq_zero_or_eq_one.mp hle with h0 | h1
            · exact .inl (UInt8.toNat_inj.mp h0)
            · exact .inr (UInt8.toNat_inj.mp h1)
          rcases hcases with rfl | rfl <;> rfl
        · rw [hpos', hpos]
          simp
  · rintro ⟨u, rfl, hrest, hpos⟩
    have hc : u8 c = .ok (if v then 1 else 0, c') := by
      refine (hu8 c _ c').mpr ⟨_, rfl, ?_, ?_⟩
      · rw [hrest]; rfl
      · rw [hpos]; rfl
    rw [hc]
    cases v <;> rfl

/-- The same of a digest. -/
theorem recognizes_digest : digest.Recognizes (fun v u => u = ByteWriter.digest v) := by
  refine (recognizes_u64.bind fun lo => recognizes_u64.bind fun hi =>
    recognizes_pure _).congr (fun v u => ?_)
  constructor
  · rintro ⟨lo, v, w, rfl, ⟨hi, v', w', rfl, ⟨rfl, rfl⟩, rfl⟩, rfl⟩
    simp [ByteWriter.digest]
  · rintro rfl
    exact ⟨_, _, _, rfl, ⟨_, _, [], rfl, ⟨rfl, rfl⟩, rfl⟩, by simp [ByteWriter.digest]⟩

/-- A string is recognized together with its length prefix when it fits both the bound and
    the 32-bit prefix. -/
theorem recognizes_text (maxBytes : Nat) :
    (text maxBytes).Recognizes (fun s u => s.length ≤ maxBytes ∧ s.length < 2 ^ 32 ∧
      u = ByteWriter.u32 (UInt32.ofNat s.length) ++ s) := by
  have hbody : ∀ length : UInt32, Recognizes
      (if length.toNat > maxBytes then Decoder.fail id else readBytes length.toNat)
      (fun s u => length.toNat ≤ maxBytes ∧ s.length = length.toNat ∧ u = s) := by
    intro length
    by_cases hlen : length.toNat > maxBytes
    · intro c s c'
      have hnot : ¬ length.toNat ≤ maxBytes := by omega
      simp only [hlen, if_true, hnot, false_and, exists_false, iff_false]
      exact fun h => absurd h (by simp [Decoder.fail])
    · simp only [hlen, if_false]
      refine (recognizes_readBytes length.toNat).congr (fun s u => ?_)
      simp only [show length.toNat ≤ maxBytes by omega, true_and]
  refine (recognizes_u32.bind hbody).congr (fun s u => ?_)
  constructor
  · rintro ⟨length, v, w, rfl, ⟨hle, hlen, rfl⟩, rfl⟩
    refine ⟨by omega, by have := length.toNat_lt; omega, ?_⟩
    rw [hlen]
    simp
  · rintro ⟨hle, hlt, rfl⟩
    have hto : (UInt32.ofNat s.length).toNat = s.length := UInt32.toNat_ofNat_of_lt' hlt
    exact ⟨_, _, _, rfl, ⟨by rw [hto]; exact hle, hto.symm, rfl⟩, rfl⟩

end ByteReader

end CreditFabric
