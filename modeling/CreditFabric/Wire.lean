import CreditFabric.Bytes
import CreditFabric.Request

namespace CreditFabric

open Lib Lib.Decoder

/-!
# Shared field codecs and messages

The field codecs of `wire.cpp` that the journal uses: authority vectors, account
configurations, views, requests and outcomes.  Every decoder is followed by the language it
recognizes, which is the encoder's image (`decode*_recognizes`); the request codec is exact
for notes of at most 4096 bytes, because `encodeRequestBody` writes no note field at all
beyond that bound.
-/

/-- The status of a chain of reads that ran out of bytes. -/
def truncated {α : Type} (d : Decoder ByteReader α) : Decoder Status α :=
  d.mapError fun r => .refused .truncatedInput (UInt64.ofNat r.position)

/-! ### Authority -/

/-- `encode_authority`. -/
def encodeAuthority (a : AuthorityVector) : List UInt8 :=
  ByteWriter.u64 a.domain ++ ByteWriter.u64 a.account ++ ByteWriter.u64 a.epoch ++
    ByteWriter.u64 a.generation ++ ByteWriter.u64 a.incarnation

/-- `decode_authority`. -/
def decodeAuthority : Decoder Status AuthorityVector := truncated do
  let domain ← ByteReader.u64
  let account ← ByteReader.u64
  let epoch ← ByteReader.u64
  let generation ← ByteReader.u64
  let incarnation ← ByteReader.u64
  pure { domain, account, epoch, generation, incarnation }

/-- It reads exactly what the encoder writes. -/
theorem decodeAuthority_recognizes :
    decodeAuthority.Recognizes (fun a u => u = encodeAuthority a) := by
  refine (Recognizes.mapError (ByteReader.recognizes_u64.bind fun _ =>
    ByteReader.recognizes_u64.bind fun _ => ByteReader.recognizes_u64.bind fun _ =>
    ByteReader.recognizes_u64.bind fun _ => ByteReader.recognizes_u64.bind fun _ =>
    recognizes_pure _) _).congr (fun a u => ?_)
  cases a
  simp [encodeAuthority]

/-! ### Account configuration -/

/-- `encode_account_config`. -/
def encodeAccountConfig (c : AccountConfig) : List UInt8 :=
  ByteWriter.u64 c.domain ++ ByteWriter.u64 c.account ++ ByteWriter.u64 c.resource ++
    ByteWriter.u64 c.policy ++ ByteWriter.u64 c.capacity ++ ByteWriter.u64 c.maxCapacity ++
    ByteWriter.u8 (UInt8.ofNat c.profile.code) ++ ByteWriter.u64 c.rules.minIssue ++
    ByteWriter.u64 c.rules.maxIssuePerAttempt ++ ByteWriter.boolean c.rules.allowProtect ++
    ByteWriter.boolean c.rules.allowReturn ++ ByteWriter.boolean c.rules.allowCapacityGrowth

/-- `decode_account_config`: the profile is checked once every field was read. -/
def decodeAccountConfig : Decoder Status AccountConfig := do
  let (c, profile) ← truncated do
    let domain ← ByteReader.u64
    let account ← ByteReader.u64
    let resource ← ByteReader.u64
    let policy ← ByteReader.u64
    let capacity ← ByteReader.u64
    let maxCapacity ← ByteReader.u64
    let profile ← ByteReader.u8
    let minIssue ← ByteReader.u64
    let maxIssuePerAttempt ← ByteReader.u64
    let allowProtect ← ByteReader.boolean
    let allowReturn ← ByteReader.boolean
    let allowCapacityGrowth ← ByteReader.boolean
    let rules : CreditPolicy :=
      { minIssue, maxIssuePerAttempt, allowProtect, allowReturn, allowCapacityGrowth }
    pure (({ domain, account, resource, policy, capacity, maxCapacity, rules } : AccountConfig),
      profile)
  let kind ← ofOption (ProfileKind.ofCode? profile.toNat)
    (.refused .malformedMessage profile.toUInt64)
  pure { c with profile := kind }

/-- An enumeration byte carries its code exactly. -/
theorem toNat_eq_iff_ofNat {v : UInt8} {n : Nat} (hn : n < 256) :
    v.toNat = n ↔ v = UInt8.ofNat n := by
  rw [← UInt8.toNat_inj, UInt8.toNat_ofNat_of_lt' hn]

/-- It reads exactly what the encoder writes. -/
theorem decodeAccountConfig_recognizes :
    decodeAccountConfig.Recognizes (fun c u => u = encodeAccountConfig c) := by
  refine ((Recognizes.mapError (ByteReader.recognizes_u64.bind fun _ =>
    ByteReader.recognizes_u64.bind fun _ => ByteReader.recognizes_u64.bind fun _ =>
    ByteReader.recognizes_u64.bind fun _ => ByteReader.recognizes_u64.bind fun _ =>
    ByteReader.recognizes_u64.bind fun _ => ByteReader.recognizes_u8.bind fun _ =>
    ByteReader.recognizes_u64.bind fun _ => ByteReader.recognizes_u64.bind fun _ =>
    ByteReader.recognizes_boolean.bind fun _ => ByteReader.recognizes_boolean.bind fun _ =>
    ByteReader.recognizes_boolean.bind fun _ => recognizes_pure _) _).bind fun _ =>
    (recognizes_ofOption _ _).bind fun _ => recognizes_pure _).congr (fun c u => ?_)
  have hcode : c.profile.code < 256 := lt_trans c.profile.code_lt (by decide)
  obtain ⟨domain, account, resource, policy, capacity, maxCapacity, profile, rules⟩ := c
  cases rules
  simp [-Bool.exists_bool, encodeAccountConfig, ProfileKind.ofCode?_eq_some,
    toNat_eq_iff_ofNat hcode]

/-! ### Views -/

/-- `encode_view`. -/
def encodeView (v : CreditView) : List UInt8 :=
  ByteWriter.u64 v.capacity ++ ByteWriter.u64 v.issued ++ ByteWriter.u64 v.consumed ++
    ByteWriter.u64 v.returned ++ ByteWriter.u64 v.stale ++ ByteWriter.u64 v.spent ++
    ByteWriter.u64 v.protectedCredits ++ ByteWriter.u64 v.inFlight ++
    ByteWriter.u64 v.outstanding ++ ByteWriter.u64 v.available ++ ByteWriter.boolean v.closed

/-- `quarantined` is not transmitted; it is read back as `stale`. -/
def decodeView : Decoder Status CreditView := truncated do
  let capacity ← ByteReader.u64
  let issued ← ByteReader.u64
  let consumed ← ByteReader.u64
  let returned ← ByteReader.u64
  let stale ← ByteReader.u64
  let spent ← ByteReader.u64
  let protectedCredits ← ByteReader.u64
  let inFlight ← ByteReader.u64
  let outstanding ← ByteReader.u64
  let available ← ByteReader.u64
  let closed ← ByteReader.boolean
  pure { capacity, issued, consumed, returned, stale, spent, protectedCredits, inFlight,
         outstanding, quarantined := stale, available, closed }

/-- It reads the views whose quarantined counter is the stale one. -/
theorem decodeView_recognizes :
    decodeView.Recognizes (fun v u => v.quarantined = v.stale ∧ u = encodeView v) := by
  refine (Recognizes.mapError (ByteReader.recognizes_u64.bind fun _ =>
    ByteReader.recognizes_u64.bind fun _ => ByteReader.recognizes_u64.bind fun _ =>
    ByteReader.recognizes_u64.bind fun _ => ByteReader.recognizes_u64.bind fun _ =>
    ByteReader.recognizes_u64.bind fun _ => ByteReader.recognizes_u64.bind fun _ =>
    ByteReader.recognizes_u64.bind fun _ => ByteReader.recognizes_u64.bind fun _ =>
    ByteReader.recognizes_u64.bind fun _ => ByteReader.recognizes_boolean.bind fun _ =>
    recognizes_pure _) _).congr (fun v u => ?_)
  cases v
  simp [-Bool.exists_bool, encodeView]

/-! ### Requests -/

/-- The fixed-width fields of a request, in front of its note. -/
def encodeRequestHead (r : CreditRequest) : List UInt8 :=
  ByteWriter.digest r.attempt ++ ByteWriter.u8 (UInt8.ofNat r.op.code) ++
    ByteWriter.u64 r.sequence ++ encodeAuthority r.authority ++
    ByteWriter.u64 r.presenter.publisher ++ ByteWriter.u64 r.presenter.boot ++
    ByteWriter.u64 r.presenter.id ++ ByteWriter.u64 r.resource ++ ByteWriter.u64 r.producer ++
    ByteWriter.u64 r.consumer ++ ByteWriter.u64 r.grant ++ ByteWriter.u64 r.target ++
    ByteWriter.u64 r.count ++ ByteWriter.u64 r.newCapacity ++ ByteWriter.digest r.proof ++
    ByteWriter.digest r.expectedState ++ encodeAccountConfig r.config ++
    ByteWriter.u8 (UInt8.ofNat r.decision.code) ++
    ByteWriter.u16 (UInt16.ofNat r.fenceCause.code)

/-- The result of writing the note is ignored: a note of more than 4096 bytes leaves no trace
    in the encoding, not even a length. -/
def encodeRequestBody (r : CreditRequest) : List UInt8 :=
  encodeRequestHead r ++ ByteWriter.text r.note 4096

/-- `decode_request_body`. -/
def decodeRequestBody (maxNoteBytes : Nat) : Decoder Status CreditRequest := do
  let (attempt, opRaw, sequence) ← truncated do
    let attempt ← ByteReader.digest
    let opRaw ← ByteReader.u8
    let sequence ← ByteReader.u64
    pure (attempt, opRaw, sequence)
  let op ← ofOption (OpKind.ofCode? opRaw.toNat) (.refused .malformedMessage opRaw.toUInt64)
  let authority ← decodeAuthority
  let presenter ← truncated do
    let publisher ← ByteReader.u64
    let boot ← ByteReader.u64
    let id ← ByteReader.u64
    pure ({ publisher, boot, id } : Incarnation)
  let (resource, producer, consumer, grant, target, count, newCapacity) ← truncated do
    let resource ← ByteReader.u64
    let producer ← ByteReader.u64
    let consumer ← ByteReader.u64
    let grant ← ByteReader.u64
    let target ← ByteReader.u64
    let count ← ByteReader.u64
    let newCapacity ← ByteReader.u64
    pure (resource, producer, consumer, grant, target, count, newCapacity)
  let (proof, expectedState) ← truncated do
    let proof ← ByteReader.digest
    let expectedState ← ByteReader.digest
    pure (proof, expectedState)
  let config ← decodeAccountConfig
  let decisionRaw ← truncated ByteReader.u8
  let decision ← ofOption (RevalidationDecision.ofCode? decisionRaw.toNat)
    (.refused .malformedMessage decisionRaw.toUInt64)
  let causeRaw ← truncated ByteReader.u16
  let fenceCause ← ofOption (Reason.ofCode? causeRaw.toNat)
    (.refused .malformedMessage causeRaw.toUInt64)
  let note ← (ByteReader.text maxNoteBytes).mapError fun r =>
    .refused .malformedMessage (UInt64.ofNat r.position)
  pure { attempt, op, sequence, authority, presenter, resource, producer, consumer, grant,
         target, count, newCapacity, proof, expectedState, config, decision, fenceCause, note }

/-- A 16-bit word and its number. -/
theorem toNat_eq_iff_ofNat16 {v : UInt16} {n : Nat} (hn : n < 2 ^ 16) :
    v.toNat = n ↔ v = UInt16.ofNat n := by
  rw [← UInt16.toNat_inj, UInt16.toNat_ofNat_of_lt' hn]

/-- It reads exactly the bodies with a note within the bound. -/
theorem decodeRequestBody_recognizes (maxNoteBytes : Nat) :
    (decodeRequestBody maxNoteBytes).Recognizes (fun r u => r.note.length ≤ maxNoteBytes ∧
      r.note.length < 2 ^ 32 ∧
      u = encodeRequestHead r ++ (ByteWriter.u32 (UInt32.ofNat r.note.length) ++ r.note)) := by
  refine ((Recognizes.mapError (ByteReader.recognizes_digest.bind fun _ =>
      ByteReader.recognizes_u8.bind fun _ => ByteReader.recognizes_u64.bind fun _ =>
      recognizes_pure _) _).bind fun _ =>
    (recognizes_ofOption _ _).bind fun _ => decodeAuthority_recognizes.bind fun _ =>
    (Recognizes.mapError (ByteReader.recognizes_u64.bind fun _ =>
      ByteReader.recognizes_u64.bind fun _ => ByteReader.recognizes_u64.bind fun _ =>
      recognizes_pure _) _).bind fun _ =>
    (Recognizes.mapError (ByteReader.recognizes_u64.bind fun _ =>
      ByteReader.recognizes_u64.bind fun _ => ByteReader.recognizes_u64.bind fun _ =>
      ByteReader.recognizes_u64.bind fun _ => ByteReader.recognizes_u64.bind fun _ =>
      ByteReader.recognizes_u64.bind fun _ => ByteReader.recognizes_u64.bind fun _ =>
      recognizes_pure _) _).bind fun _ =>
    (Recognizes.mapError (ByteReader.recognizes_digest.bind fun _ =>
      ByteReader.recognizes_digest.bind fun _ => recognizes_pure _) _).bind fun _ =>
    decodeAccountConfig_recognizes.bind fun _ =>
    (ByteReader.recognizes_u8.mapError _).bind fun _ => (recognizes_ofOption _ _).bind fun _ =>
    (ByteReader.recognizes_u16.mapError _).bind fun _ => (recognizes_ofOption _ _).bind fun _ =>
    ((ByteReader.recognizes_text maxNoteBytes).mapError _).bind fun _ =>
    recognizes_pure _).congr (fun r u => ?_)
  have hop : r.op.code < 256 := lt_trans r.op.code_lt (by decide)
  have hdecision : r.decision.code < 256 := lt_trans r.decision.code_lt (by decide)
  have hcause : r.fenceCause.code < 2 ^ 16 := lt_trans r.fenceCause.code_lt (by decide)
  obtain ⟨attempt, op, sequence, authority, presenter, resource, producer, consumer, grant,
    target, count, newCapacity, proof, expectedState, config, decision, fenceCause, note⟩ := r
  cases presenter
  simp [encodeRequestHead, OpKind.ofCode?_eq_some, RevalidationDecision.ofCode?_eq_some,
    Reason.ofCode?_eq_some, toNat_eq_iff_ofNat hop, toNat_eq_iff_ofNat hdecision,
    toNat_eq_iff_ofNat16 hcause, and_assoc]

/-- Within the 4096 bytes of the encoder the body is exactly the encoder's. -/
theorem encodeRequestBody_of_le {r : CreditRequest} (h : r.note.length ≤ 4096) :
    encodeRequestBody r =
      encodeRequestHead r ++ (ByteWriter.u32 (UInt32.ofNat r.note.length) ++ r.note) := by
  simp [encodeRequestBody, ByteWriter.text, Nat.not_lt.mpr h]

/-- A note beyond 4096 bytes is left out, its length with it. -/
theorem encodeRequestBody_of_gt {r : CreditRequest} (h : 4096 < r.note.length) :
    encodeRequestBody r = encodeRequestHead r := by
  simp [encodeRequestBody, ByteWriter.text, h]

/-- The bytes of an authority vector. -/
@[simp] theorem length_encodeAuthority (a : AuthorityVector) :
    (encodeAuthority a).length = 40 := by
  simp [encodeAuthority]

/-- Those of a configuration. -/
@[simp] theorem length_encodeAccountConfig (c : AccountConfig) :
    (encodeAccountConfig c).length = 68 := by
  simp [encodeAccountConfig]

/-- Those of a request before its note. -/
@[simp] theorem length_encodeRequestHead (r : CreditRequest) :
    (encodeRequestHead r).length = 248 := by
  simp [encodeRequestHead]

/-- Those of the whole body. -/
theorem length_encodeRequestBody {r : CreditRequest} (h : r.note.length ≤ 4096) :
    (encodeRequestBody r).length = 252 + r.note.length := by
  rw [encodeRequestBody_of_le h]
  simp only [List.length_append, length_encodeRequestHead, ByteWriter.length_u32]
  omega

/-! ### Outcomes -/

/-- `encode_outcome_body`. -/
def encodeOutcomeBody (o : CreditOutcome) : List UInt8 :=
  ByteWriter.u16 (UInt16.ofNat o.status.reason.code) ++ ByteWriter.u64 o.status.detail ++
    ByteWriter.u8 (UInt8.ofNat o.op.code) ++ ByteWriter.u64 o.sequence ++
    ByteWriter.boolean o.applied ++ ByteWriter.boolean o.duplicate ++
    ByteWriter.boolean o.decided ++ encodeAuthority o.authority ++ encodeView o.view ++
    ByteWriter.digest o.stateDigest ++ ByteWriter.u64 o.ambiguousPending

/-- `decode_outcome_body`. -/
def decodeOutcomeBody : Decoder Status CreditOutcome := do
  let (reasonRaw, detail) ← truncated do
    let reasonRaw ← ByteReader.u16
    let detail ← ByteReader.u64
    pure (reasonRaw, detail)
  let reason ← ofOption (Reason.ofCode? reasonRaw.toNat)
    (.refused .malformedMessage reasonRaw.toUInt64)
  let opRaw ← truncated ByteReader.u8
  let op ← ofOption (OpKind.ofCode? opRaw.toNat) (.refused .malformedMessage opRaw.toUInt64)
  let (sequence, applied, duplicate, decided) ← truncated do
    let sequence ← ByteReader.u64
    let applied ← ByteReader.boolean
    let duplicate ← ByteReader.boolean
    let decided ← ByteReader.boolean
    pure (sequence, applied, duplicate, decided)
  let authority ← decodeAuthority
  let view ← decodeView
  let stateDigest ← truncated ByteReader.digest
  let ambiguousPending ← truncated ByteReader.u64
  pure { status := { reason, detail }, op, sequence, applied, duplicate, decided, authority,
         view, stateDigest, ambiguousPending }

/-- It reads exactly what the encoder writes of such a view. -/
theorem decodeOutcomeBody_recognizes :
    decodeOutcomeBody.Recognizes
      (fun o u => o.view.quarantined = o.view.stale ∧ u = encodeOutcomeBody o) := by
  refine ((Recognizes.mapError (ByteReader.recognizes_u16.bind fun _ =>
      ByteReader.recognizes_u64.bind fun _ => recognizes_pure _) _).bind fun _ =>
    (recognizes_ofOption _ _).bind fun _ => (ByteReader.recognizes_u8.mapError _).bind fun _ =>
    (recognizes_ofOption _ _).bind fun _ =>
    (Recognizes.mapError (ByteReader.recognizes_u64.bind fun _ =>
      ByteReader.recognizes_boolean.bind fun _ => ByteReader.recognizes_boolean.bind fun _ =>
      ByteReader.recognizes_boolean.bind fun _ => recognizes_pure _) _).bind fun _ =>
    decodeAuthority_recognizes.bind fun _ => decodeView_recognizes.bind fun _ =>
    (ByteReader.recognizes_digest.mapError _).bind fun _ =>
    (ByteReader.recognizes_u64.mapError _).bind fun _ => recognizes_pure _).congr
      (fun o u => ?_)
  have hreason : o.status.reason.code < 2 ^ 16 := lt_trans o.status.reason.code_lt (by decide)
  have hop : o.op.code < 256 := lt_trans o.op.code_lt (by decide)
  obtain ⟨status, op, sequence, applied, duplicate, decided, authority, view, stateDigest,
    ambiguousPending⟩ := o
  cases status
  simp [-Bool.exists_bool, encodeOutcomeBody, OpKind.ofCode?_eq_some, Reason.ofCode?_eq_some,
    toNat_eq_iff_ofNat hop, toNat_eq_iff_ofNat16 hreason, and_assoc]

/-- The bytes of a view. -/
@[simp] theorem length_encodeView (v : CreditView) : (encodeView v).length = 81 := by
  simp [encodeView]

/-- Those of an outcome. -/
@[simp] theorem length_encodeOutcomeBody (o : CreditOutcome) :
    (encodeOutcomeBody o).length = 167 := by
  simp [encodeOutcomeBody]

/-! ### The request message -/

/-- Never refuses: the only bounded field is the note, whose result is ignored. -/
def encodeRequestMessage (r : CreditRequest) : List UInt8 := encodeRequestBody r

/-- `decode_request_message`: one body and no byte behind it. -/
def decodeRequestMessage (data : List UInt8) (maxNoteBytes : Nat) : Except Status CreditRequest :=
  (decodeRequestBody maxNoteBytes).run data fun c =>
    .refused .malformedMessage (UInt64.ofNat c.position)

/-- A request whose note fits the encoder and the reader is read back unchanged. -/
theorem decodeRequestMessage_encode {r : CreditRequest} {maxNoteBytes : Nat}
    (h4096 : r.note.length ≤ 4096) (hmax : r.note.length ≤ maxNoteBytes) :
    decodeRequestMessage (encodeRequestMessage r) maxNoteBytes = .ok r :=
  ((decodeRequestBody_recognizes maxNoteBytes).run _ _ r).mpr
    ⟨hmax, by omega, encodeRequestBody_of_le h4096⟩

end CreditFabric
