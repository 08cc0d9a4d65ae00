import CreditFabric.Lib.Decoder

namespace CreditFabric

/-!
# Refusal reasons and status values

Every refusal of the authority names an exact reason.  The numeric codes are part of the
durable journal and wire contract, so `Reason.code` follows the declaration order of the
source's `CREDITFABRIC_REASON_LIST` and `Reason.ofCode?` is its inverse on valid codes.
-/

/-- Refusal reasons, in the order of their durable codes. -/
inductive Reason where
  | ok
  | unknownState
  | reconciliationRequired
  | staleAuthority
  | staleEvidence
  | fencedIncarnation
  | unknownIncarnation
  | incarnationNotReconciled
  | staleReplay
  | sequenceGap
  | attemptConflict
  | duplicateAttempt
  | attemptUnknown
  | accountUnknown
  | accountExists
  | accountClosed
  | domainMismatch
  | resourceMismatch
  | producerMismatch
  | consumerMismatch
  | grantMismatch
  | policyRefused
  | profileNotSupported
  | insufficientAvailable
  | insufficientOutstanding
  | insufficientProtected
  | capacityExceeded
  | capacityShrinkViolation
  | capacityOutOfRange
  | countZero
  | countOverflow
  | exhaustedHard
  | notExhausted
  | nothingToRetire
  | invalidState
  | malformedMessage
  | unsupportedVersion
  | oversizedFrame
  | checksumMismatch
  | truncatedInput
  | journalCorrupt
  | journalTorn
  | journalVersionUnsupported
  | journalDigestMismatch
  | ioError
  | transportError
  | connectionLimitReached
  | shutdownInProgress
  | cancelled
  | budgetExceeded
  | unsupported
  | notOperator
  | internalError
deriving DecidableEq, Repr, Inhabited

namespace Reason

/-- All reasons, listed by code. -/
def all : List Reason :=
  [ok, unknownState, reconciliationRequired, staleAuthority, staleEvidence, fencedIncarnation,
    unknownIncarnation, incarnationNotReconciled, staleReplay, sequenceGap, attemptConflict,
    duplicateAttempt, attemptUnknown, accountUnknown, accountExists, accountClosed,
    domainMismatch, resourceMismatch, producerMismatch, consumerMismatch, grantMismatch,
    policyRefused, profileNotSupported, insufficientAvailable, insufficientOutstanding,
    insufficientProtected, capacityExceeded, capacityShrinkViolation, capacityOutOfRange,
    countZero, countOverflow, exhaustedHard, notExhausted, nothingToRetire, invalidState,
    malformedMessage, unsupportedVersion, oversizedFrame, checksumMismatch, truncatedInput,
    journalCorrupt, journalTorn, journalVersionUnsupported, journalDigestMismatch, ioError,
    transportError, connectionLimitReached, shutdownInProgress, cancelled, budgetExceeded,
    unsupported, notOperator, internalError]

/-- The durable numeric value of a reason. -/
def code (r : Reason) : Nat := r.ctorIdx

/-- The reason with a given code; `none` from `kReasonCount = 53` on. -/
def ofCode? (n : Nat) : Option Reason := all[n]?

/-- A code read back is the reason it was written from. -/
theorem ofCode?_eq_some (n : Nat) (r : Reason) : ofCode? n = some r ↔ n = r.code :=
  Lib.getElem?_eq_some_iff_code _ _ (by decide) (fun r => by cases r <;> rfl) n r

/-- There are 53 codes. -/
theorem code_lt (r : Reason) : r.code < 53 := by cases r <;> decide

end Reason

/-- A reason code plus a bounded non-authoritative detail word. -/
structure Status where
  reason : Reason := .ok
  detail : UInt64 := 0
deriving DecidableEq, Repr, Inhabited

namespace Status

/-- `Status::success`. -/
def success : Status := {}

/-- `Status::refused`, with its detail. -/
def refused (reason : Reason) (detail : UInt64 := 0) : Status := { reason, detail }

/-- `ok`: the reason is Ok. -/
def ok (s : Status) : Bool := s.reason == .ok

/-- Success is Ok. -/
@[simp] theorem ok_success : success.ok = true := rfl

/-- A refusal is Ok for the reason Ok only. -/
@[simp] theorem ok_refused (r : Reason) (d : UInt64) : (refused r d).ok = (r == .ok) := rfl

@[simp] theorem refused_reason (r : Reason) (d : UInt64) : (refused r d).reason = r := rfl

/-- A status that was refused is not Ok: the branch in which it would be is empty. -/
theorem never_ok {s : Status} {P : Prop} (hrefused : s.ok = false) (hok : s.ok = true) : P := by
  rw [hrefused] at hok
  exact absurd hok (by decide)

end Status

end CreditFabric
