import CreditFabric.Status
import Std.Data.ExtTreeMap.Lemmas

namespace CreditFabric

/-!
# Identities and binding digests

The tagged `StrongId` types of the source are all one 64-bit word whose zero means "unset";
the tags exist only at compile time, so the model names each identity type and keeps the
word.

`Digest128` is the keyed binding digest.  `DigestBuilder` absorbs words and bytes into two
64-bit lanes; every operation is on machine words, so additions and products wrap exactly as
in the source.
-/

abbrev DomainId := UInt64
abbrev AccountId := UInt64
abbrev ResourceId := UInt64
abbrev ProducerId := UInt64
abbrev ConsumerId := UInt64
abbrev GrantId := UInt64
abbrev PolicyId := UInt64
abbrev PublisherId := UInt64
abbrev BootId := UInt64
abbrev IncarnationId := UInt64
abbrev EpochId := UInt64
abbrev Generation := UInt64

/-- An identity is set when its word is not zero. -/
def isSet (id : UInt64) : Bool := id != 0

/-- 128-bit binding digest. -/
structure Digest128 where
  lo : UInt64 := 0
  hi : UInt64 := 0
deriving DecidableEq, Repr, Inhabited

namespace Digest128

/-- `is_zero`. -/
def isZero (d : Digest128) : Bool := d.lo == 0 && d.hi == 0

/-- The defaulted three-way comparison of the source: `lo` first, then `hi`. -/
instance : Ord Digest128 := ⟨compareLex (compareOn lo) (compareOn hi)⟩

instance : Std.TransOrd Digest128 :=
  inferInstanceAs (Std.TransCmp (compareLex (compareOn lo) (compareOn hi)))

instance : Std.LawfulEqOrd Digest128 where
  eq_of_compare {a b} h := by
    obtain ⟨hlo, hhi⟩ := Ordering.then_eq_eq.mp (show _ = Ordering.eq from h)
    cases a; cases b
    simp_all [compareOn]

end Digest128

/-- Strongly typed 128-bit attempt identity. -/
abbrev AttemptId := Digest128

/-- `mix64`. -/
def mix64 (x : UInt64) : UInt64 :=
  let x := x + 0x9E3779B97F4A7C15
  let x := (x ^^^ (x >>> 30)) * 0xBF58476D1CE4E5B9
  let x := (x ^^^ (x >>> 27)) * 0x94D049BB133111EB
  x ^^^ (x >>> 31)

/-- `avalanch64`. -/
def avalanch64 (x : UInt64) : UInt64 :=
  let x := x ^^^ (x >>> 33)
  let x := x * 0xFF51AFD7ED558CCD
  let x := x ^^^ (x >>> 33)
  let x := x * 0xC4CEB9FE1A85EC53
  x ^^^ (x >>> 33)

/-- Incremental keyed 128-bit binding digest. -/
structure DigestBuilder where
  lo : UInt64 := 0xCBF29CE484222325
  hi : UInt64 := 0x9E3779B97F4A7C15
  length : UInt64 := 0
deriving DecidableEq, Repr

namespace DigestBuilder

/-- The keyed constructor `DigestBuilder{key}`. -/
def keyed (key : Digest128) : DigestBuilder :=
  { lo := key.lo ^^^ 0xCBF29CE484222325, hi := key.hi ^^^ 0x9E3779B97F4A7C15 }

/-- `u64`: one word into both lanes. -/
def u64 (b : DigestBuilder) (v : UInt64) : DigestBuilder where
  lo := avalanch64 (b.lo ^^^ mix64 (v + 0x9E3779B97F4A7C15))
  hi := avalanch64 (b.hi + mix64 (v ^^^ 0xD6E8FEB86659FD93))
  length := b.length + 1

/-- `boolean`, absorbed as a word. -/
def boolean (b : DigestBuilder) (v : Bool) : DigestBuilder :=
  b.u64 (if v then 0x9E3779B97F4A7C15 else 0x1)

/-- `digest`: both halves. -/
def digest (b : DigestBuilder) (value : Digest128) : DigestBuilder :=
  (b.u64 value.lo).u64 value.hi

/-- One iteration of the loop of `bytes`, on the byte at index `i`. -/
def byteStep (b : DigestBuilder) (i : Nat) (p : UInt8) : DigestBuilder where
  lo := avalanch64 (b.lo ^^^ (p.toUInt64 <<< UInt64.ofNat (i % 8 * 8)))
  hi := avalanch64 (b.hi + p.toUInt64 + mix64 (UInt64.ofNat i + 1))
  length := b.length + 1

/-- The loop of `bytes`, started at index `i`. -/
def bytesFrom (b : DigestBuilder) (i : Nat) : List UInt8 → DigestBuilder
  | [] => b
  | p :: rest => (b.byteStep i p).bytesFrom (i + 1) rest

/-- `bytes`, with the index each byte stands at. -/
def bytes (b : DigestBuilder) (data : List UInt8) : DigestBuilder := b.bytesFrom 0 data

/-- `text`: the bytes of a string. -/
def text (b : DigestBuilder) (sv : List UInt8) : DigestBuilder := b.bytes sv

/-- `finish`: both lanes, avalanched. -/
def finish (b : DigestBuilder) : Digest128 where
  lo := avalanch64 (b.lo ^^^ mix64 (b.length + 0x2545F4914F6CDD1D))
  hi := avalanch64 (b.hi ^^^ mix64 (b.length + 0x14057B7EF767814F))

end DigestBuilder

/-- Process-unique incarnation identity: a publisher identity bound to a boot. -/
def makeIncarnationId (publisher : PublisherId) (boot : BootId) : IncarnationId :=
  let d := (((DigestBuilder.keyed ⟨0x1234567890ABCDEF, 0xFEDCBA0987654321⟩).u64 publisher).u64
    boot).finish
  d.lo ^^^ d.hi

end CreditFabric
