import CreditFabric.Strong

namespace CreditFabric

/-!
# Authority vectors, incarnations and fences

A decision is bound to the exact domain, account, epoch, generation and incarnation that
justified it.  This file has the authority data of `authority.hpp`, the liveness test of an
incarnation record and the reconciliation challenge of one authority boot.
-/

/-- Lifecycle of a process incarnation as known to this authority. -/
inductive AuthorityState where
  | unknown
  | reconciled
  | fenced
  | retired
deriving DecidableEq, Repr, Inhabited

namespace AuthorityState

/-- The byte of a state on the wire, and in a digest. -/
def code (s : AuthorityState) : Nat := s.ctorIdx

/-- The state with a given code; `none` above `Retired`. -/
def ofCode? (n : Nat) : Option AuthorityState :=
  [unknown, reconciled, fenced, retired][n]?

/-- Codes and states determine each other. -/
theorem ofCode?_eq_some (n : Nat) (s : AuthorityState) : ofCode? n = some s ↔ n = s.code :=
  Lib.getElem?_eq_some_iff_code _ _ (by decide) (fun s => by cases s <;> rfl) n s

/-- There are four codes. -/
theorem code_lt (s : AuthorityState) : s.code < 4 := by cases s <;> decide

end AuthorityState

/-- A process incarnation: a publisher identity bound to one boot. -/
structure Incarnation where
  publisher : PublisherId := 0
  boot : BootId := 0
  id : IncarnationId := 0
deriving DecidableEq, Repr, Inhabited

/-- `Incarnation::make`: the identity is derived from publisher and boot. -/
def Incarnation.make (publisher : PublisherId) (boot : BootId) : Incarnation :=
  { publisher, boot, id := makeIncarnationId publisher boot }

/-- The authority under which a single request is evaluated. -/
structure AuthorityVector where
  domain : DomainId := 0
  account : AccountId := 0
  epoch : EpochId := 0
  generation : Generation := 0
  incarnation : IncarnationId := 0
deriving DecidableEq, Repr, Inhabited

/-- `AuthorityVector::digest`. -/
def AuthorityVector.digest (a : AuthorityVector) : Digest128 :=
  ((((({} : DigestBuilder).u64 a.domain).u64 a.account).u64 a.epoch).u64 a.generation).u64
    a.incarnation |>.finish

/-- Durable record of an incarnation's standing with the authority. -/
@[ext]
structure IncarnationRecord where
  id : IncarnationId := 0
  publisher : PublisherId := 0
  boot : BootId := 0
  state : AuthorityState := .unknown
  reconciledEpoch : EpochId := 0
  reconciledGeneration : Generation := 0
  reconciliationProof : Digest128 := {}
  producer : ProducerId := 0
  consumer : ConsumerId := 0
  grant : GrantId := 0
  lastSequence : UInt64 := 0
  committedOps : UInt64 := 0
  refusedOps : UInt64 := 0
  fencedAtSequence : UInt64 := 0
deriving DecidableEq, Repr, Inhabited

/-- The record is reconciled, in the era of its account. -/
def IncarnationRecord.isLive (r : IncarnationRecord) (epoch : EpochId)
    (generation : Generation) : Bool :=
  r.state == .reconciled && r.reconciledEpoch == epoch && r.reconciledGeneration == generation

/-- The liveness reset of `recover` and of an epoch advance: a reconciled incarnation becomes
    unknown, every other record is kept. -/
def IncarnationRecord.forgetLiveness (r : IncarnationRecord) : IncarnationRecord :=
  if r.state = .reconciled then { r with state := .unknown } else r

/-- Only a reconciled record has a liveness to forget. -/
theorem forgetLiveness_eq_self_iff (record : IncarnationRecord) :
    record.forgetLiveness = record ↔ record.state ≠ .reconciled := by
  unfold IncarnationRecord.forgetLiveness
  by_cases h : record.state = .reconciled
  · rw [if_pos h]
    refine iff_of_false (fun heq => ?_) (fun hne => hne h)
    have hstate : AuthorityState.unknown = record.state := congrArg IncarnationRecord.state heq
    rw [h] at hstate
    exact absurd hstate (by decide)
  · rw [if_neg h]
    exact iff_of_true rfl h

/-- A record whose liveness is forgotten is not reconciled. -/
theorem forgetLiveness_state (b : IncarnationRecord) : b.forgetLiveness.state ≠ .reconciled := by
  unfold IncarnationRecord.forgetLiveness
  by_cases h : b.state = .reconciled
  · rw [if_pos h]
    exact fun hstate => AuthorityState.noConfusion hstate
  · rw [if_neg h]
    exact h

/-- Permanent fence over an incarnation. -/
structure FenceRecord where
  incarnation : IncarnationId := 0
  epoch : EpochId := 0
  generation : Generation := 0
  cause : Reason := .unknownState
  sequence : UInt64 := 0
  fencedCredit : UInt64 := 0
deriving DecidableEq, Repr, Inhabited

/-- Proof that a caller participated in this authority boot.  The boot's nonce is drawn by
    the constructor and is a parameter of the engine in this model. -/
structure ReconciliationChallenge where
  nonce : Digest128
deriving DecidableEq, Repr, Inhabited

namespace ReconciliationChallenge

/-- `ReconciliationChallenge::compute`: the digest of the nonce, the incarnation and the authority.
    -/
def compute (nonce : Digest128) (incarnation : Incarnation) (authority : AuthorityVector) :
    Digest128 :=
  (((((((((DigestBuilder.keyed ⟨0x5A5A5A5A5A5A5A5A, 0xA5A5A5A5A5A5A5A5⟩).digest nonce).u64
    incarnation.publisher).u64 incarnation.boot).u64 incarnation.id).u64
    authority.domain).u64 authority.account).u64 authority.epoch).u64
    authority.generation).u64 authority.incarnation |>.finish

/-- The proof that an incarnation presents in this boot. -/
def prove (c : ReconciliationChallenge) (incarnation : Incarnation)
    (authority : AuthorityVector) : Digest128 :=
  compute c.nonce incarnation authority

/-- The branch-free comparison of the source: the two lanes' differences are combined. -/
def verify (c : ReconciliationChallenge) (incarnation : Incarnation)
    (authority : AuthorityVector) (proof : Digest128) : Bool :=
  let expected := c.prove incarnation authority
  ((expected.lo ^^^ proof.lo) ||| (expected.hi ^^^ proof.hi)) == 0

end ReconciliationChallenge

end CreditFabric
