import CreditFabric.Authority

namespace CreditFabric

/-!
# Account configuration, profiles and engine limits
-/

/-- Provenance of a credit mechanism. -/
inductive ProfileKind where
  | abstract
  | synthetic
  | physicalUnvalidated
  | physicalValidated
deriving DecidableEq, Repr, Inhabited

namespace ProfileKind

/-- The byte of a profile. -/
def code (p : ProfileKind) : Nat := p.ctorIdx

/-- The profile with a given code; `none` above `PhysicalValidated`. -/
def ofCode? (n : Nat) : Option ProfileKind :=
  [.abstract, synthetic, physicalUnvalidated, physicalValidated][n]?

/-- Codes and profiles determine each other. -/
theorem ofCode?_eq_some (n : Nat) (p : ProfileKind) : ofCode? n = some p ↔ n = p.code :=
  Lib.getElem?_eq_some_iff_code _ _ (by decide) (fun p => by cases p <;> rfl) n p

/-- There are four codes. -/
theorem code_lt (p : ProfileKind) : p.code < 4 := by cases p <;> decide

end ProfileKind

/-- Per-account credit policy. -/
structure CreditPolicy where
  minIssue : UInt64 := 1
  maxIssuePerAttempt : UInt64 := 0xFFFFFFFFFFFFFFFF
  allowProtect : Bool := true
  allowReturn : Bool := true
  allowCapacityGrowth : Bool := false
deriving DecidableEq, Repr, Inhabited

/-- Immutable account configuration established at open time. -/
structure AccountConfig where
  domain : DomainId := 0
  account : AccountId := 0
  resource : ResourceId := 0
  policy : PolicyId := 0
  capacity : UInt64 := 0
  maxCapacity : UInt64 := 0
  profile : ProfileKind := .abstract
  rules : CreditPolicy := {}
deriving DecidableEq, Repr, Inhabited

/-- `config_digest` of `engine.cpp`. -/
def AccountConfig.digest (c : AccountConfig) : Digest128 :=
  ((((((((((((DigestBuilder.keyed ⟨0x3C9A17E5B2D48F60, 0x608FD4B2E517A93C⟩).u64 c.domain).u64
    c.account).u64 c.resource).u64 c.policy).u64 c.capacity).u64 c.maxCapacity).u64
    (UInt64.ofNat c.profile.code)).u64 c.rules.minIssue).u64
    c.rules.maxIssuePerAttempt).boolean c.rules.allowProtect).boolean
    c.rules.allowReturn).boolean c.rules.allowCapacityGrowth |>.finish

/-- Structural bounds of one engine.  The three explanation bounds, the connection bound and
    the two byte bounds that no modelled function reads are left out. -/
structure EngineLimits where
  maxAccounts : Nat := 64
  maxIncarnationsPerAccount : Nat := 256
  maxFencesPerAccount : Nat := 1024
  maxAttemptWindow : Nat := 8192
  maxAmbiguousAttempts : Nat := 256
  maxRefusalLog : Nat := 256
  maxNoteBytes : Nat := 128
  maxJournalBytes : Nat := 64 * 2 ^ 20
  journalRecordsPerSnapshot : Nat := 4096
deriving DecidableEq, Repr, Inhabited

/-- The constructor's clamping: a zero bound becomes the smallest useful one. -/
def EngineLimits.clamp (l : EngineLimits) : EngineLimits where
  maxAccounts := if l.maxAccounts = 0 then 1 else l.maxAccounts
  maxIncarnationsPerAccount :=
    if l.maxIncarnationsPerAccount = 0 then 1 else l.maxIncarnationsPerAccount
  maxFencesPerAccount := if l.maxFencesPerAccount = 0 then 1 else l.maxFencesPerAccount
  maxAttemptWindow := if l.maxAttemptWindow = 0 then 1 else l.maxAttemptWindow
  maxAmbiguousAttempts := if l.maxAmbiguousAttempts = 0 then 1 else l.maxAmbiguousAttempts
  maxRefusalLog := if l.maxRefusalLog = 0 then 1 else l.maxRefusalLog
  maxNoteBytes := if l.maxNoteBytes = 0 then 1 else l.maxNoteBytes
  maxJournalBytes := l.maxJournalBytes
  journalRecordsPerSnapshot :=
    if l.journalRecordsPerSnapshot = 0 then 1024 else l.journalRecordsPerSnapshot

end CreditFabric
