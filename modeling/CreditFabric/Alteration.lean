import CreditFabric.DigestLanes
import CreditFabric.Prefix

namespace CreditFabric

/-!
# Altered requests

The digest of a request is fed field by field.  A request that differs from another one in one
word of its own, or in one byte of its note, has another digest (`Changed.digest_ne`), in both
halves, and the window does not take it for the other one (`altered_not_absorbed`).
-/

open DigestBuilder (Input Altered)

/-- The calls `CreditRequest::digest` makes. -/
def CreditRequest.inputs (r : CreditRequest) : List Input :=
  [.u64 r.attempt.lo, .u64 r.attempt.hi, .u64 (UInt64.ofNat r.op.code), .u64 r.sequence,
    .u64 r.authority.digest.lo, .u64 r.authority.digest.hi, .u64 r.presenter.publisher,
    .u64 r.presenter.boot, .u64 r.presenter.id, .u64 r.resource, .u64 r.producer, .u64 r.consumer,
    .u64 r.grant, .u64 r.target, .u64 r.count, .u64 r.newCapacity, .u64 r.proof.lo,
    .u64 r.proof.hi, .u64 r.expectedState.lo, .u64 r.expectedState.hi, .u64 r.config.digest.lo,
    .u64 r.config.digest.hi, .u64 (UInt64.ofNat r.decision.code),
    .u64 (UInt64.ofNat r.fenceCause.code), .bytes r.note]

/-- The digest absorbs the inputs in their order, from a fixed key. -/
theorem CreditRequest.digest_eq (r : CreditRequest) :
    r.digest = ((DigestBuilder.keyed ⟨0xFEEDFACE12345678, 0x87654321CEFAEDEF⟩).absorbAll
      r.inputs).finish := rfl

/-- The request differs from `r` in one field, or in one byte of its note. -/
inductive Changed (r : CreditRequest) : CreditRequest → Prop
  | op {v : OpKind} (h : r.op ≠ v) : Changed r { r with op := v }
  | sequence {v : UInt64} (h : r.sequence ≠ v) : Changed r { r with sequence := v }
  | publisher {v : PublisherId} (h : r.presenter.publisher ≠ v) :
      Changed r { r with presenter := { r.presenter with publisher := v } }
  | boot {v : BootId} (h : r.presenter.boot ≠ v) :
      Changed r { r with presenter := { r.presenter with boot := v } }
  | presenter {v : IncarnationId} (h : r.presenter.id ≠ v) :
      Changed r { r with presenter := { r.presenter with id := v } }
  | resource {v : ResourceId} (h : r.resource ≠ v) : Changed r { r with resource := v }
  | producer {v : ProducerId} (h : r.producer ≠ v) : Changed r { r with producer := v }
  | consumer {v : ConsumerId} (h : r.consumer ≠ v) : Changed r { r with consumer := v }
  | grant {v : GrantId} (h : r.grant ≠ v) : Changed r { r with grant := v }
  | target {v : IncarnationId} (h : r.target ≠ v) : Changed r { r with target := v }
  | count {v : UInt64} (h : r.count ≠ v) : Changed r { r with count := v }
  | newCapacity {v : UInt64} (h : r.newCapacity ≠ v) : Changed r { r with newCapacity := v }
  | decision {v : RevalidationDecision} (h : r.decision ≠ v) : Changed r { r with decision := v }
  | fenceCause {v : Reason} (h : r.fenceCause ≠ v) : Changed r { r with fenceCause := v }
  | note {before after : List UInt8} {p q : UInt8} (hnote : r.note = before ++ p :: after)
      (h : p ≠ q) : Changed r { r with note := before ++ q :: after }

/-- A code is a word. -/
theorem ofNat_code_ne {m n : Nat} (hm : m < 2 ^ 64) (hn : n < 2 ^ 64) (h : m ≠ n) :
    UInt64.ofNat m ≠ UInt64.ofNat n := by
  intro hsame
  have hnat := congrArg UInt64.toNat hsame
  rw [UInt64.toNat_ofNat_of_lt' hm, UInt64.toNat_ofNat_of_lt' hn] at hnat
  exact h hnat

/-- Operations are told apart by their codes. -/
theorem OpKind.code_ne {x y : OpKind} (h : x ≠ y) : UInt64.ofNat x.code ≠ UInt64.ofNat y.code := by
  have hx := x.code_lt
  have hy := y.code_lt
  refine ofNat_code_ne (by omega) (by omega) fun hsame => h ?_
  have hcode := (ofCode?_eq_some x.code y).mpr hsame
  rw [(ofCode?_eq_some x.code x).mpr rfl, Option.some.injEq] at hcode
  exact hcode

/-- Decisions are told apart by their codes. -/
theorem RevalidationDecision.code_ne {x y : RevalidationDecision} (h : x ≠ y) :
    UInt64.ofNat x.code ≠ UInt64.ofNat y.code := by
  have hx := x.code_lt
  have hy := y.code_lt
  refine ofNat_code_ne (by omega) (by omega) fun hsame => h ?_
  have hcode := (ofCode?_eq_some x.code y).mpr hsame
  rw [(ofCode?_eq_some x.code x).mpr rfl, Option.some.injEq] at hcode
  exact hcode

/-- Reasons are told apart by their codes. -/
theorem Reason.code_ne {x y : Reason} (h : x ≠ y) : UInt64.ofNat x.code ≠ UInt64.ofNat y.code := by
  have hx := x.code_lt
  have hy := y.code_lt
  refine ofNat_code_ne (by omega) (by omega) fun hsame => h ?_
  have hcode := (ofCode?_eq_some x.code y).mpr hsame
  rw [(ofCode?_eq_some x.code x).mpr rfl, Option.some.injEq] at hcode
  exact hcode

/-- A changed field is one changed call. -/
theorem Changed.inputs {r r' : CreditRequest} (h : Changed r r') :
    ∃ (before after : List Input) (x y : Input), r.inputs = before ++ x :: after ∧
      r'.inputs = before ++ y :: after ∧ Altered x y := by
  cases h with
  | op h => exact ⟨r.inputs.take 2, r.inputs.drop 3, _, _, rfl, rfl, .word (OpKind.code_ne h)⟩
  | sequence h => exact ⟨r.inputs.take 3, r.inputs.drop 4, _, _, rfl, rfl, .word h⟩
  | publisher h => exact ⟨r.inputs.take 6, r.inputs.drop 7, _, _, rfl, rfl, .word h⟩
  | boot h => exact ⟨r.inputs.take 7, r.inputs.drop 8, _, _, rfl, rfl, .word h⟩
  | presenter h => exact ⟨r.inputs.take 8, r.inputs.drop 9, _, _, rfl, rfl, .word h⟩
  | resource h => exact ⟨r.inputs.take 9, r.inputs.drop 10, _, _, rfl, rfl, .word h⟩
  | producer h => exact ⟨r.inputs.take 10, r.inputs.drop 11, _, _, rfl, rfl, .word h⟩
  | consumer h => exact ⟨r.inputs.take 11, r.inputs.drop 12, _, _, rfl, rfl, .word h⟩
  | grant h => exact ⟨r.inputs.take 12, r.inputs.drop 13, _, _, rfl, rfl, .word h⟩
  | target h => exact ⟨r.inputs.take 13, r.inputs.drop 14, _, _, rfl, rfl, .word h⟩
  | count h => exact ⟨r.inputs.take 14, r.inputs.drop 15, _, _, rfl, rfl, .word h⟩
  | newCapacity h => exact ⟨r.inputs.take 15, r.inputs.drop 16, _, _, rfl, rfl, .word h⟩
  | decision h =>
    exact ⟨r.inputs.take 22, r.inputs.drop 23, _, _, rfl, rfl,
      .word (RevalidationDecision.code_ne h)⟩
  | fenceCause h =>
    exact ⟨r.inputs.take 23, r.inputs.drop 24, _, _, rfl, rfl, .word (Reason.code_ne h)⟩
  | @note before after p q hnote h =>
    refine ⟨r.inputs.take 24, [], .bytes r.note, .bytes (before ++ q :: after), rfl, rfl, ?_⟩
    rw [hnote]
    exact .byte h

/-- Both lanes of the digest differ. -/
theorem Changed.digest_ne {r r' : CreditRequest} (h : Changed r r') :
    r.digest.lo ≠ r'.digest.lo ∧ r.digest.hi ≠ r'.digest.hi := by
  obtain ⟨before, after, x, y, hr, hr', haltered⟩ := h.inputs
  rw [r.digest_eq, r'.digest_eq, hr, hr']
  exact DigestBuilder.finish_ne_of_altered _ haltered before after

namespace CreditEngine

variable {J : Type} [Journal J]

/-- **The digest separates single changes.**  Two sequences of calls on one builder that differ in
    one word, one flag or one byte have digests that differ in both halves; so have two requests
    that differ in one field or one byte of the note, and a call is not absorbed by the window
    entry of a request it differs from in this way. -/
theorem digest_separates :
    (∀ (key : Digest128) (before after : List Input) (x y : Input), Altered x y →
      let b := DigestBuilder.keyed key
      (b.absorbAll (before ++ x :: after)).finish.lo ≠
          (b.absorbAll (before ++ y :: after)).finish.lo ∧
        (b.absorbAll (before ++ x :: after)).finish.hi ≠
          (b.absorbAll (before ++ y :: after)).finish.hi) ∧
    (∀ r r' : CreditRequest, Changed r r' → r.digest ≠ r'.digest) ∧
    ∀ (e : CreditEngine J) (r r' : CreditRequest) (a : AccountState) (decided : WindowEntry),
      Changed r r' → e.accounts[r'.authority.account]? = some a →
      a.window.find { incarnation := r'.authority.incarnation, sequence := r'.sequence } =
        some decided → decided.request = r.digest → (e.apply r').1.duplicate = false := by
  refine ⟨fun key before after x y h => DigestBuilder.finish_ne_of_altered _ h before after,
    fun r r' h hsame => h.digest_ne.1 (congrArg Digest128.lo hsame), ?_⟩
  intro e r r' a decided hchanged hfound hentry hdigest
  cases hdup : (e.apply r').1.duplicate with
  | false => rfl
  | true =>
    obtain ⟨-, a', existing, hfound', hplaced⟩ := duplicate_inv hdup
    rw [hfound, Option.some.injEq] at hfound'
    subst hfound'
    unfold placeInSequence at hplaced
    rw [hentry] at hplaced
    simp only at hplaced
    split_ifs at hplaced with hsame
    rw [hdigest] at hsame
    exact absurd (congrArg Digest128.lo hsame) hchanged.digest_ne.1

end CreditEngine

/-! ### An altered Issue -/

namespace AlteredIssue

/-- The Issue of the fixture. -/
def issue : CreditRequest := Fixture.request ⟨4, 4⟩ Fixture.me .issue 2

/-- An engine that has opened an account and issued a credit. -/
def issued : CreditEngine InMemoryJournal :=
  (Fixture.boot {} {} ⟨4, 4⟩).run [Fixture.request ⟨4, 4⟩ Fixture.me .open_ 1, issue]

/-- The Issue over two credits is not the one that was decided. -/
theorem two_not_absorbed :
    ((DigestBuilder.keyed {}).absorbAll [.u64 0]).finish.lo ≠
        ((DigestBuilder.keyed {}).absorbAll [.u64 1]).finish.lo ∧
      issue.digest ≠ { issue with count := 2 }.digest ∧
      (issued.apply { issue with count := 2 }).1.duplicate = false := by
  have hchanged : Changed issue { issue with count := 2 } := .count (by decide)
  have hsum := CreditEngine.digest_separates (J := InMemoryJournal)
  refine ⟨(hsum.1 {} [] [] (.u64 0) (.u64 1) (.word (by decide))).1, hsum.2.1 _ _ hchanged, ?_⟩
  have hentry : (issued.accounts[issue.authority.account]?.bind fun a => a.window.find
      { incarnation := issue.authority.incarnation, sequence := issue.sequence }).map
        WindowEntry.request = some issue.digest := by decide +kernel
  obtain ⟨decided, hfind, hdigest⟩ := Option.map_eq_some_iff.mp hentry
  obtain ⟨a, hfound, hdecided⟩ := Option.bind_eq_some_iff.mp hfind
  exact hsum.2.2 issued issue _ a decided hchanged hfound hdecided hdigest

end AlteredIssue

end CreditFabric
