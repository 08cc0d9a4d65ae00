import Mathlib.Tactic.Common
import Mathlib.Data.Nat.Digits.Defs

namespace CreditFabric.Lib

/-!
# Byte decoders and the language they recognize

A `Decoder ε α` reads a value from the front of a byte string and reports an error of type
`ε` otherwise.  A decoder is specified by the *language* it recognizes: `Recognizes d L` says
that `d` succeeds with value `a` exactly when the input starts with a word `u` such that
`L a u`, and that it then consumes exactly `u`.  One such fact gives both directions of a
codec at once:

* an encoding decodes to the encoded value, whatever follows it;
* an accepted input is the encoding of the decoded value.

The rules below compose the languages of sequenced, guarded and repeated decoders, so that a
format's specification follows the shape of its decoder.
-/

/-! ### Cursors and decoders -/

/-- A read position in a byte string: the unread bytes and how many were read. -/
structure Cursor where
  rest : List UInt8
  position : Nat := 0
deriving DecidableEq, Repr

/-- A decoder: the decoded value and the cursor behind it, or an error. -/
def Decoder (ε α : Type) := Cursor → Except ε (α × Cursor)

namespace Decoder

variable {ε ε' α β : Type}

instance : Monad (Decoder ε) where
  pure a := fun c => .ok (a, c)
  bind d k := fun c =>
    match d c with
    | .ok (a, c') => k a c'
    | .error e => .error e

/-- One decoder and then the next, on what the first has left. -/
theorem bind_def (d : Decoder ε α) (k : α → Decoder ε β) (c : Cursor) :
    (d >>= k) c = match d c with
      | .ok (a, c') => k a c'
      | .error e => .error e := rfl

/-- Fail with an error computed from the current cursor. -/
def fail (e : Cursor → ε) : Decoder ε α := fun c => .error (e c)

/-- Translate a decoder's error. -/
def mapError (d : Decoder ε α) (f : ε → ε') : Decoder ε' α := fun c =>
  match d c with
  | .ok r => .ok r
  | .error e => .error (f e)

/-- Continue only if `p` holds; `p` does not read. -/
def require (p : Bool) (e : ε) : Decoder ε Unit := fun c =>
  if p then .ok ((), c) else .error e

/-- Continue with the value of an option. -/
def ofOption (o : Option α) (e : ε) : Decoder ε α := fun c =>
  match o with
  | some a => .ok (a, c)
  | none => .error e

/-- Decode `n` values in a row. -/
def replicate (d : Decoder ε α) : Nat → Decoder ε (List α)
  | 0 => pure []
  | n + 1 => do
    let a ← d
    let as ← replicate d n
    pure (a :: as)

/-- Run a decoder over a whole byte string: nothing may be left over. -/
def run (d : Decoder ε α) (bs : List UInt8) (leftover : Cursor → ε) : Except ε α :=
  match d { rest := bs } with
  | .error e => .error e
  | .ok (a, c) => if c.rest = [] then .ok a else .error (leftover c)

/-! ### Languages -/

/-- `d` succeeds with `a` exactly on inputs that start with a word of `L a`, and consumes that
    word. -/
def Recognizes (d : Decoder ε α) (L : α → List UInt8 → Prop) : Prop :=
  ∀ (c : Cursor) (a : α) (c' : Cursor), d c = .ok (a, c') ↔
    ∃ u, L a u ∧ c.rest = u ++ c'.rest ∧ c'.position = c.position + u.length

/-- Languages are compared extensionally. -/
theorem Recognizes.congr {d : Decoder ε α} {L M : α → List UInt8 → Prop}
    (h : Recognizes d L) (hLM : ∀ a u, L a u ↔ M a u) : Recognizes d M := by
  intro c a c'
  rw [h c a c']
  simp only [hLM]

/-- A decoder that reads nothing. -/
theorem recognizes_pure (a : α) :
    Recognizes (pure a : Decoder ε α) (fun b u => b = a ∧ u = []) := by
  intro c b c'
  show Except.ok (a, c) = Except.ok (b, c') ↔ _
  obtain ⟨rest, pos⟩ := c'
  cases c
  simp only [Except.ok.injEq, Prod.mk.injEq, Cursor.mk.injEq]
  constructor
  · rintro ⟨rfl, rfl, rfl⟩
    exact ⟨[], ⟨rfl, rfl⟩, rfl, rfl⟩
  · rintro ⟨u, ⟨rfl, rfl⟩, hrest, hpos⟩
    exact ⟨rfl, hrest, hpos.symm⟩

/-- Sequencing concatenates the words of the parts. -/
theorem Recognizes.bind {d : Decoder ε α} {k : α → Decoder ε β}
    {L : α → List UInt8 → Prop} {M : α → β → List UInt8 → Prop}
    (hd : Recognizes d L) (hk : ∀ a, Recognizes (k a) (M a)) :
    Recognizes (d >>= k) (fun b u => ∃ a v w, L a v ∧ M a b w ∧ u = v ++ w) := by
  intro c b c'
  rw [bind_def]
  constructor
  · intro h
    cases hc : d c with
    | error e => rw [hc] at h; exact absurd h (by simp)
    | ok r =>
      obtain ⟨a, c₁⟩ := r
      rw [hc] at h
      obtain ⟨v, hv, hrest, hpos⟩ := (hd c a c₁).mp hc
      obtain ⟨w, hw, hrest', hpos'⟩ := (hk a c₁ b c').mp h
      refine ⟨v ++ w, ⟨a, v, w, hv, hw, rfl⟩, ?_, ?_⟩
      · rw [hrest, hrest', List.append_assoc]
      · rw [hpos', hpos, List.length_append, Nat.add_assoc]
  · rintro ⟨u, ⟨a, v, w, hv, hw, rfl⟩, hrest, hpos⟩
    have hd' : d c = .ok (a, ⟨w ++ c'.rest, c.position + v.length⟩) :=
      (hd c a _).mpr ⟨v, hv, by rw [hrest, List.append_assoc], rfl⟩
    rw [hd']
    refine (hk a _ b c').mpr ⟨w, hw, rfl, ?_⟩
    rw [hpos, List.length_append, Nat.add_assoc]

/-- The errors are not part of the language. -/
theorem Recognizes.mapError {d : Decoder ε α} {L : α → List UInt8 → Prop}
    (h : Recognizes d L) (f : ε → ε') : Recognizes (d.mapError f) L := by
  intro c a c'
  rw [← h c a c']
  unfold Decoder.mapError
  cases d c <;> simp

/-- A check reads nothing. -/
theorem recognizes_require (p : Bool) (e : ε) :
    Recognizes (require p e) (fun _ u => p = true ∧ u = []) := by
  intro c a c'
  by_cases hp : p = true
  · rw [show require p e c = (pure () : Decoder ε Unit) c from if_pos hp,
      recognizes_pure () c a c']
    simp [hp]
  · simp [require, hp]

/-- Nor does a value that may be missing. -/
theorem recognizes_ofOption (o : Option α) (e : ε) :
    Recognizes (ofOption o e) (fun b u => o = some b ∧ u = []) := by
  intro c b c'
  cases o with
  | none => simp [ofOption]
  | some a =>
    rw [show ofOption (some a) e c = (pure a : Decoder ε α) c from rfl, recognizes_pure a c b c']
    simp only [Option.some.injEq, eq_comm]

/-- Repeating a decoder of `valid` encodings recognizes the concatenated encodings of lists of
    valid values. -/
theorem Recognizes.replicate {d : Decoder ε α} {enc : α → List UInt8} {valid : α → Prop}
    (hd : Recognizes d (fun a u => valid a ∧ u = enc a)) (n : Nat) :
    Recognizes (d.replicate n)
      (fun as u => as.length = n ∧ (∀ a ∈ as, valid a) ∧ u = as.flatMap enc) := by
  induction n with
  | zero =>
    refine (recognizes_pure []).congr (fun as u => ?_)
    constructor
    · rintro ⟨rfl, rfl⟩
      simp
    · rintro ⟨hlen, -, rfl⟩
      rw [List.length_eq_zero_iff] at hlen
      subst hlen
      simp
  | succ n ih =>
    refine (hd.bind fun a => ih.bind fun as => recognizes_pure (a :: as)).congr (fun as u => ?_)
    constructor
    · rintro ⟨a, v, w, ⟨hv, rfl⟩, ⟨tl, v', w', ⟨hlen, htl, rfl⟩, ⟨rfl, rfl⟩, rfl⟩, rfl⟩
      refine ⟨by simp [hlen], ?_, by simp⟩
      intro x hx
      rcases List.mem_cons.mp hx with rfl | hx
      · exact hv
      · exact htl x hx
    · rintro ⟨hlen, hval, rfl⟩
      cases as with
      | nil => simp at hlen
      | cons a tl =>
        refine ⟨a, enc a, tl.flatMap enc, ⟨hval a (by simp), rfl⟩, ⟨tl, tl.flatMap enc, [],
          ⟨by simpa using hlen, fun x hx => hval x (by simp [hx]), rfl⟩, ⟨rfl, rfl⟩, by simp⟩, ?_⟩
        simp

/-- A whole-string decoder accepts exactly the words of its language. -/
theorem Recognizes.run {d : Decoder ε α} {L : α → List UInt8 → Prop} (h : Recognizes d L)
    (bs : List UInt8) (leftover : Cursor → ε) (a : α) :
    d.run bs leftover = .ok a ↔ L a bs := by
  unfold Decoder.run
  constructor
  · intro hrun
    cases hd : d { rest := bs } with
    | error e => rw [hd] at hrun; exact absurd hrun (by simp)
    | ok r =>
      obtain ⟨b, c⟩ := r
      rw [hd] at hrun
      obtain ⟨u, hu, hrest, -⟩ := (h _ b c).mp hd
      by_cases hc : c.rest = []
      · simp only [hc, if_true, Except.ok.injEq] at hrun
        subst hrun
        rw [hc, List.append_nil] at hrest
        rwa [show bs = u from hrest]
      · simp [hc] at hrun
  · intro hL
    have hd : d { rest := bs } = .ok (a, ⟨[], 0 + bs.length⟩) :=
      (h _ a _).mpr ⟨bs, hL, by simp, rfl⟩
    rw [hd]
    simp

/-- A decoder returns one value: two valid readings of the same bytes agree. -/
theorem Recognizes.unique {d : Decoder ε α} {enc : α → List UInt8}
    {valid : α → Prop} (h : Recognizes d (fun a u => valid a ∧ u = enc a)) {a a' : α}
    (ha : valid a) (ha' : valid a') {x y : List UInt8} (hbytes : enc a ++ x = enc a' ++ y) :
    a = a' ∧ x = y := by
  have hread := (h ⟨enc a ++ x, 0⟩ a ⟨x, (enc a).length⟩).mpr ⟨enc a, ⟨ha, rfl⟩, rfl, by simp⟩
  have hread' := (h ⟨enc a ++ x, 0⟩ a' ⟨y, (enc a').length⟩).mpr
    ⟨enc a', ⟨ha', rfl⟩, hbytes, by simp⟩
  rw [hread, Except.ok.injEq, Prod.mk.injEq, Cursor.mk.injEq] at hread'
  exact ⟨hread'.1, hread'.2.1⟩

/-! ### Errors -/

/-- Every error of `d` satisfies `P`. -/
def Fails (d : Decoder ε α) (P : ε → Prop) : Prop := ∀ c e, d c = .error e → P e

/-- A decoder that reads nothing does not fail. -/
theorem fails_pure (a : α) (P : ε → Prop) : (pure a : Decoder ε α).Fails P := by
  intro c e h
  cases h

/-- Errors of the first decoder, or of the next. -/
theorem Fails.bind {d : Decoder ε α} {k : α → Decoder ε β} {P : ε → Prop} (hd : d.Fails P)
    (hk : ∀ a, (k a).Fails P) : (d >>= k).Fails P := by
  intro c e h
  rw [bind_def] at h
  cases hc : d c with
  | error e' =>
    rw [hc] at h
    rw [← Except.error.inj h]
    exact hd c e' hc
  | ok r =>
    rw [hc] at h
    exact hk r.1 r.2 e h

/-- All the errors are mapped. -/
theorem fails_mapError {d : Decoder ε α} {f : ε → ε'} {P : ε' → Prop} (h : ∀ e, P (f e)) :
    (d.mapError f).Fails P := by
  intro c e hc
  unfold mapError at hc
  cases hd : d c with
  | error e' =>
    rw [hd] at hc
    rw [← Except.error.inj hc]
    exact h e'
  | ok r =>
    rw [hd] at hc
    cases hc

/-- A value that is missing is the given error. -/
theorem fails_ofOption {o : Option α} {e : ε} {P : ε → Prop} (h : P e) :
    (ofOption o e).Fails P := by
  intro c e' hc
  cases o with
  | none =>
    rw [← Except.error.inj hc]
    exact h
  | some a => cases hc

/-- Errors of a whole run, with the one for what is left over. -/
theorem Fails.run {d : Decoder ε α} {P : ε → Prop} (h : d.Fails P) {leftover : Cursor → ε}
    (hleftover : ∀ c, P (leftover c)) {bs : List UInt8} {e : ε}
    (hrun : d.run bs leftover = .error e) : P e := by
  unfold Decoder.run at hrun
  cases hd : d { rest := bs } with
  | error e' =>
    rw [hd] at hrun
    rw [← Except.error.inj hrun]
    exact h _ e' hd
  | ok r =>
    rw [hd] at hrun
    by_cases hrest : r.2.rest = []
    · simp [hrest] at hrun
    · simp only [hrest, if_false] at hrun
      rw [← Except.error.inj hrun]
      exact hleftover r.2

end Decoder

/-! ### Fixed-width reads -/

/-- The first `n` elements and the others; `none` when there are fewer than `n`. -/
def takeExact {α : Type} : Nat → List α → Option (List α × List α)
  | 0, l => some ([], l)
  | _ + 1, [] => none
  | n + 1, x :: l => (takeExact n l).map fun p => (x :: p.1, p.2)

/-- What is taken is in front of the rest. -/
theorem takeExact_eq_some {α : Type} (n : Nat) (l xs ys : List α) :
    takeExact n l = some (xs, ys) ↔ xs.length = n ∧ l = xs ++ ys := by
  induction n generalizing l xs with
  | zero =>
    simp only [takeExact, Option.some.injEq, Prod.mk.injEq, List.length_eq_zero_iff]
    constructor
    · rintro ⟨rfl, rfl⟩
      exact ⟨rfl, rfl⟩
    · rintro ⟨rfl, rfl⟩
      exact ⟨rfl, rfl⟩
  | succ n ih =>
    cases l with
    | nil =>
      simp only [takeExact, reduceCtorEq, false_iff, not_and]
      intro hlen hnil
      rw [eq_comm, List.append_eq_nil_iff] at hnil
      simp [hnil.1] at hlen
    | cons x l =>
      cases xs with
      | nil => simp [takeExact]
      | cons y xs =>
        have ih' := ih l xs
        simp only [takeExact, Option.map_eq_some_iff, Prod.exists, Prod.mk.injEq,
          List.cons.injEq, List.length_cons, Nat.add_right_cancel_iff, List.cons_append]
        constructor
        · rintro ⟨as, bs, hsome, ⟨rfl, rfl⟩, rfl⟩
          obtain ⟨hlen, rfl⟩ := ih'.mp hsome
          exact ⟨hlen, rfl, rfl⟩
        · rintro ⟨hlen, rfl, rfl⟩
          exact ⟨xs, ys, ih'.mpr ⟨hlen, rfl⟩, ⟨rfl, rfl⟩, rfl⟩

/-- Read exactly `n` bytes.  The error is the cursor at which the read was attempted. -/
def readBytes (n : Nat) : Decoder Cursor (List UInt8) := fun c =>
  match takeExact n c.rest with
  | some (bs, rest) => .ok (bs, ⟨rest, c.position + n⟩)
  | none => .error c

/-- Bytes are read as they are. -/
theorem recognizes_readBytes (n : Nat) :
    (readBytes n).Recognizes (fun bs u => bs.length = n ∧ u = bs) := by
  intro c bs c'
  obtain ⟨rest, pos⟩ := c'
  unfold readBytes
  constructor
  · intro h
    cases ht : takeExact n c.rest with
    | none => rw [ht] at h; exact absurd h (by simp)
    | some p =>
      obtain ⟨xs, ys⟩ := p
      rw [ht] at h
      simp only [Except.ok.injEq, Prod.mk.injEq, Cursor.mk.injEq] at h
      obtain ⟨rfl, rfl, rfl⟩ := h
      obtain ⟨hlen, hrest⟩ := (takeExact_eq_some n c.rest xs ys).mp ht
      exact ⟨xs, ⟨hlen, rfl⟩, hrest, by rw [hlen]⟩
  · rintro ⟨u, ⟨hlen, rfl⟩, hrest, hpos⟩
    rw [(takeExact_eq_some n c.rest u rest).mpr ⟨hlen, hrest⟩,
      show pos = c.position + n from hlen ▸ hpos]

/-! ### Little-endian words -/

/-- The `n` low-order bytes of `v`, least significant first. -/
def leBytes : Nat → Nat → List UInt8
  | 0, _ => []
  | n + 1, v => UInt8.ofNat (v % 256) :: leBytes n (v / 256)

/-- The number with the given little-endian bytes. -/
def leValue : List UInt8 → Nat
  | [] => 0
  | b :: bs => b.toNat + 256 * leValue bs

/-- A word has its number of bytes. -/
@[simp] theorem length_leBytes (n v : Nat) : (leBytes n v).length = n := by
  induction n generalizing v with
  | zero => rfl
  | succ n ih => simp [leBytes, ih]

/-- Bytes are a number below their bound. -/
theorem leValue_lt (bs : List UInt8) : leValue bs < 256 ^ bs.length := by
  induction bs with
  | nil => simp [leValue]
  | cons b bs ih =>
    have hb : b.toNat < 256 := b.toNat_lt
    simp only [leValue, List.length_cons, Nat.pow_succ]
    omega

/-- A number is read back from its bytes. -/
theorem leValue_leBytes (n v : Nat) (h : v < 256 ^ n) : leValue (leBytes n v) = v := by
  induction n generalizing v with
  | zero =>
    have : v = 0 := by simpa using h
    simp [leBytes, leValue, this]
  | succ n ih =>
    have hdiv : v / 256 < 256 ^ n := by
      rw [Nat.pow_succ] at h
      omega
    have hmod : v % 256 < 256 := Nat.mod_lt v (by decide)
    have hbyte : (UInt8.ofNat (v % 256)).toNat = v % 256 := by
      simp
    simp only [leBytes, leValue, ih _ hdiv, hbyte]
    omega

/-- Bytes are written back from their number. -/
theorem leBytes_leValue (bs : List UInt8) : leBytes bs.length (leValue bs) = bs := by
  induction bs with
  | nil => rfl
  | cons b bs ih =>
    have hb : b.toNat < 256 := b.toNat_lt
    have hmod : (b.toNat + 256 * leValue bs) % 256 = b.toNat := by omega
    have hdiv : (b.toNat + 256 * leValue bs) / 256 = leValue bs := by omega
    simp only [List.length_cons, leValue, leBytes, hmod, hdiv, ih]
    simp

/-- A word is determined by its little-endian bytes. -/
theorem leBytes_eq_iff {n v : Nat} (hv : v < 256 ^ n) (bs : List UInt8) :
    (bs.length = n ∧ leValue bs = v) ↔ bs = leBytes n v := by
  constructor
  · rintro ⟨rfl, rfl⟩
    exact (leBytes_leValue bs).symm
  · rintro rfl
    exact ⟨length_leBytes n v, leValue_leBytes n v hv⟩

/-! ### Enumerations -/

/-- In a duplicate-free list that holds every value at its code, looking up a code inverts
    `code`. -/
theorem getElem?_eq_some_iff_code {α : Type} (l : List α) (code : α → Nat) (hnd : l.Nodup)
    (hcode : ∀ a, l[code a]? = some a) (n : Nat) (a : α) : l[n]? = some a ↔ n = code a := by
  constructor
  · intro h
    have hn : n < l.length := by
      by_contra hle
      rw [List.getElem?_eq_none (by omega)] at h
      exact absurd h (by simp)
    exact (List.getElem?_inj hn hnd).mp (h.trans (hcode a).symm)
  · rintro rfl
    exact hcode a

/-! ### Canonical codecs -/

/-- The decoder reads back every valid value that is written, and accepts nothing but what the
    encoder writes. -/
structure Canonical {ε α : Type} (Valid : α → Prop) (encode : α → Except ε (List UInt8))
    (decode : List UInt8 → Except ε α) : Prop where
  reads : ∀ a, Valid a → ∃ bs, encode a = .ok bs ∧ decode bs = .ok a
  writes : ∀ bs a, decode bs = .ok a → encode a = .ok bs
  unique : ∀ bs bs' a, decode bs = .ok a → decode bs' = .ok a → bs = bs'

/-- A decoder whose language is the image of the valid values. -/
theorem Canonical.of_iff {ε α : Type} {Valid : α → Prop} {encode : α → Except ε (List UInt8)}
    {decode : List UInt8 → Except ε α} (hwritten : ∀ a, Valid a → ∃ bs, encode a = .ok bs)
    (h : ∀ bs a, decode bs = .ok a ↔ Valid a ∧ encode a = .ok bs) :
    Canonical Valid encode decode := by
  refine ⟨fun a ha => ?_, fun bs a hread => ((h bs a).mp hread).2,
    fun bs bs' a hread hread' => ?_⟩
  · obtain ⟨bs, hbs⟩ := hwritten a ha
    exact ⟨bs, hbs, (h bs a).mpr ⟨ha, hbs⟩⟩
  · have hbs := ((h bs a).mp hread).2
    rw [((h bs' a).mp hread').2, Except.ok.injEq] at hbs
    exact hbs.symm

end CreditFabric.Lib
