import CreditFabric.Ledger
import CreditFabric.Policy

namespace CreditFabric

/-!
# Requests and outcomes

The operation kinds, the fixed-shape request and the outcome that is returned to the caller
and recorded durably, with the digests the journal chain is built from.  A note is a byte
string, so its length is the length the source bounds.
-/

/-- Operation kinds, in the order of their durable codes. -/
inductive OpKind where
  | describe
  | open_
  | issue
  | consume
  | return_
  | protect
  | unprotect
  | exhaust
  | clearExhaustion
  | setCapacity
  | advanceEpoch
  | fence
  | rotate
  | retire
  | revalidate
  | reconcile
  | retireIncarnation
deriving DecidableEq, Repr, Inhabited

namespace OpKind

/-- The byte of an operation. -/
def code (op : OpKind) : Nat := op.ctorIdx

/-- The operation with a given code; `none` from `kOpKindCount = 17` on. -/
def ofCode? (n : Nat) : Option OpKind :=
  [describe, open_, issue, consume, return_, protect, unprotect, exhaust, clearExhaustion,
    setCapacity, advanceEpoch, fence, rotate, retire, revalidate, reconcile,
    retireIncarnation][n]?

/-- Codes and operations determine each other. -/
theorem ofCode?_eq_some (n : Nat) (op : OpKind) : ofCode? n = some op ↔ n = op.code :=
  Lib.getElem?_eq_some_iff_code _ _ (by decide) (fun op => by cases op <;> rfl) n op

/-- There are seventeen codes. -/
theorem code_lt (op : OpKind) : op.code < 17 := by cases op <;> decide

end OpKind

/-- How an operation is authorized. -/
inductive OpClass where
  | read
  | data
  | control
deriving DecidableEq, Repr, Inhabited

/-- `classify`. -/
def classify : OpKind → OpClass
  | .describe => .read
  | .issue | .consume | .return_ | .protect | .unprotect | .reconcile => .data
  | _ => .control

/-- `op_requires_count`. -/
def opRequiresCount : OpKind → Bool
  | .issue | .consume | .return_ | .protect | .unprotect | .retire | .revalidate => true
  | _ => false

/-- `op_is_ledger`. -/
def opIsLedger : OpKind → Bool
  | .issue | .consume | .return_ | .protect | .unprotect => true
  | _ => false

/-- How quarantined credit is resolved by a Revalidate attempt. -/
inductive RevalidationDecision where
  | none
  | toReturned
  | toConsumed
deriving DecidableEq, Repr, Inhabited

namespace RevalidationDecision

/-- The byte of a decision. -/
def code (d : RevalidationDecision) : Nat := d.ctorIdx

/-- The decision with a given code; no value above `ToConsumed`. -/
def ofCode? (n : Nat) : Option RevalidationDecision :=
  [RevalidationDecision.none, toReturned, toConsumed][n]?

/-- Codes and decisions determine each other. -/
theorem ofCode?_eq_some (n : Nat) (d : RevalidationDecision) : ofCode? n = some d ↔ n = d.code :=
  Lib.getElem?_eq_some_iff_code _ _ (by decide) (fun d => by cases d <;> rfl) n d

/-- There are three codes. -/
theorem code_lt (d : RevalidationDecision) : d.code < 3 := by cases d <;> decide

end RevalidationDecision

/-- One authoritative request. -/
structure CreditRequest where
  attempt : AttemptId := {}
  op : OpKind := .describe
  sequence : UInt64 := 0
  authority : AuthorityVector := {}
  presenter : Incarnation := {}
  resource : ResourceId := 0
  producer : ProducerId := 0
  consumer : ConsumerId := 0
  grant : GrantId := 0
  target : IncarnationId := 0
  count : UInt64 := 0
  newCapacity : UInt64 := 0
  proof : Digest128 := {}
  expectedState : Digest128 := {}
  config : AccountConfig := {}
  decision : RevalidationDecision := .none
  fenceCause : Reason := .unknownState
  note : List UInt8 := []
deriving DecidableEq, Repr, Inhabited

/-- `CreditRequest::digest`: the fields in this order. -/
def CreditRequest.digest (r : CreditRequest) : Digest128 :=
  let b := DigestBuilder.keyed ⟨0xFEEDFACE12345678, 0x87654321CEFAEDEF⟩
  let b := ((b.digest r.attempt).u64 (UInt64.ofNat r.op.code)).u64 r.sequence
  let b := b.digest r.authority.digest
  let b := ((b.u64 r.presenter.publisher).u64 r.presenter.boot).u64 r.presenter.id
  let b := ((((b.u64 r.resource).u64 r.producer).u64 r.consumer).u64 r.grant).u64 r.target
  let b := (b.u64 r.count).u64 r.newCapacity
  let b := ((b.digest r.proof).digest r.expectedState).digest r.config.digest
  let b := (b.u64 (UInt64.ofNat r.decision.code)).u64 (UInt64.ofNat r.fenceCause.code)
  (b.text r.note).finish

/-- Result of one attempt, as returned to the caller and recorded durably. -/
structure CreditOutcome where
  status : Status := {}
  op : OpKind := .describe
  sequence : UInt64 := 0
  applied : Bool := false
  duplicate : Bool := false
  decided : Bool := false
  authority : AuthorityVector := {}
  view : CreditView := {}
  stateDigest : Digest128 := {}
  ambiguousPending : UInt64 := 0
deriving DecidableEq, Repr, Inhabited

namespace CreditOutcome

/-- `outcome_digest` of `engine.cpp`. -/
def digest (o : CreditOutcome) : Digest128 :=
  let b := DigestBuilder.keyed ⟨0x1122334455667788, 0x8877665544332211⟩
  let b := (b.u64 (UInt64.ofNat o.status.reason.code)).u64 o.status.detail
  let b := (b.u64 (UInt64.ofNat o.op.code)).u64 o.sequence
  let b := (b.boolean o.applied).boolean o.decided
  (b.digest o.stateDigest).finish

/-- The outcome every path starts from: operation, sequence and authority of the request. -/
def ofRequest (r : CreditRequest) : CreditOutcome :=
  { op := r.op, sequence := r.sequence, authority := r.authority }

/-- A refusal that carries no durable identity. -/
def refused (o : CreditOutcome) (reason : Reason) (detail : UInt64) : CreditOutcome :=
  { o with status := .refused reason detail, applied := false }

/-- A refusal decided against the ledger. -/
def decidedRefusal (o : CreditOutcome) (reason : Reason) (detail : UInt64 := 0) :
    CreditOutcome :=
  { o with status := .refused reason detail, applied := false, decided := true }

end CreditOutcome

/-- An attempt whose intent is durable and whose commit is not. -/
structure AmbiguousNote where
  attempt : AttemptId := {}
  op : OpKind := .describe
  sequence : UInt64 := 0
  incarnation : IncarnationId := 0
  journalSequence : UInt64 := 0
deriving DecidableEq, Repr, Inhabited

/-- One row of the bounded refusal log. -/
structure RefusalNote where
  attempt : AttemptId := {}
  op : OpKind := .describe
  sequence : UInt64 := 0
  incarnation : IncarnationId := 0
  reason : Reason := .ok
  detail : UInt64 := 0
  epoch : EpochId := 0
  generation : Generation := 0
deriving DecidableEq, Repr, Inhabited

end CreditFabric
