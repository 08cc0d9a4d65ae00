import CreditFabric.Wire

namespace CreditFabric

open Lib Lib.Decoder

/-!
# Messages

The payloads that a client and the coordinator exchange: the handshake of `wire.cpp`, requests
and responses.  `messages_canonical` is the codec property of all four: what is written is read
back, and what is read is what was written.

* A label of more than 64 bytes is refused by the encoder.
* A handshake without identities or without a challenge is refused by the decoder.
-/

/-- The bound of a label. -/
def maxLabelBytes : Nat := 64

/-- `HelloMessage`. -/
structure HelloMessage where
  publisher : PublisherId := 0
  boot : BootId := 0
  label : List UInt8 := []
deriving DecidableEq, Repr

/-- `HelloAckMessage`. -/
structure HelloAckMessage where
  session : UInt32 := 0
  challenge : Digest128 := {}
  serverLabel : List UInt8 := []
  maxPayload : UInt32 := 0
  formatVersion : UInt32 := 0
deriving DecidableEq, Repr

/-! ### Hello -/

/-- `encode_hello`. -/
def encodeHello (m : HelloMessage) : Except Status (List UInt8) :=
  let head := ByteWriter.u64 m.publisher ++ ByteWriter.u64 m.boot
  if m.label.length > maxLabelBytes then
    .error (.refused .oversizedFrame (UInt64.ofNat m.label.length))
  else .ok (head ++ ByteWriter.text m.label maxLabelBytes)

/-- The fields of a Hello, in front of the checks on them. -/
def decodeHelloFields : Decoder Status HelloMessage := truncated do
  let publisher ← ByteReader.u64
  let boot ← ByteReader.u64
  let label ← ByteReader.text maxLabelBytes
  pure { publisher, boot, label }

/-- `decode_hello`. -/
def decodeHello (data : List UInt8) : Except Status HelloMessage :=
  match decodeHelloFields.run data fun c =>
      .refused .malformedMessage (UInt64.ofNat c.position) with
  | .error status => .error status
  | .ok m =>
    if !isSet m.publisher ∨ !isSet m.boot then .error (.refused .malformedMessage 7) else .ok m

/-- A Hello with a label that fits and both identities. -/
structure HelloMessage.Valid (m : HelloMessage) : Prop where
  label : m.label.length ≤ maxLabelBytes
  publisher : m.publisher ≠ 0
  boot : m.boot ≠ 0

/-- The fields of a Hello are read as they are written. -/
theorem decodeHelloFields_recognizes :
    decodeHelloFields.Recognizes (fun m u => m.label.length ≤ maxLabelBytes ∧
      encodeHello m = .ok u) := by
  refine (Recognizes.mapError (ByteReader.recognizes_u64.bind fun _ =>
    ByteReader.recognizes_u64.bind fun _ =>
    (ByteReader.recognizes_text maxLabelBytes).bind fun _ => recognizes_pure _) _).congr
      (fun m u => ?_)
  obtain ⟨publisher, boot, label⟩ := m
  by_cases hle : label.length ≤ maxLabelBytes
  · have hlt : label.length < 4294967296 := lt_of_le_of_lt hle (by decide)
    simp [encodeHello, ByteWriter.text, Nat.not_lt.mpr hle, hle, hlt, eq_comm]
  · simp [hle]

/-- A valid Hello is encoded. -/
theorem encodeHello_of_valid {m : HelloMessage} (h : m.Valid) : ∃ bs, encodeHello m = .ok bs := by
  unfold encodeHello
  rw [if_neg (Nat.not_lt.mpr h.label)]
  exact ⟨_, rfl⟩

/-- What is decoded is the encoding of a valid Hello. -/
theorem decodeHello_eq_ok (data : List UInt8) (m : HelloMessage) :
    decodeHello data = .ok m ↔ m.Valid ∧ encodeHello m = .ok data := by
  have hfields := decodeHelloFields_recognizes.run data fun c =>
    Status.refused .malformedMessage (UInt64.ofNat c.position)
  unfold decodeHello
  constructor
  · intro h
    cases hrun : decodeHelloFields.run data fun c =>
        Status.refused .malformedMessage (UInt64.ofNat c.position) with
    | error status =>
      rw [hrun] at h
      exact absurd h (by simp)
    | ok m' =>
      rw [hrun] at h
      simp only at h
      split_ifs at h with hunset
      rw [Except.ok.injEq] at h
      subst h
      obtain ⟨hlabel, hencode⟩ := (hfields m').mp hrun
      simp only [isSet, Bool.not_eq_true', bne_eq_false_iff_eq, not_or] at hunset
      exact ⟨⟨hlabel, hunset.1, hunset.2⟩, hencode⟩
  · intro ⟨hvalid, hencode⟩
    rw [(hfields m).mpr ⟨hvalid.label, hencode⟩]
    simp [isSet, hvalid.publisher, hvalid.boot]

/-! ### HelloAck -/

/-- `encode_hello_ack`. -/
def encodeHelloAck (m : HelloAckMessage) : Except Status (List UInt8) :=
  let head := ByteWriter.u32 m.session ++ ByteWriter.digest m.challenge ++
    ByteWriter.u32 m.maxPayload ++ ByteWriter.u32 m.formatVersion
  if m.serverLabel.length > maxLabelBytes then
    .error (.refused .oversizedFrame (UInt64.ofNat m.serverLabel.length))
  else .ok (head ++ ByteWriter.text m.serverLabel maxLabelBytes)

/-- The fields of a HelloAck, in front of the checks on them. -/
def decodeHelloAckFields : Decoder Status HelloAckMessage := truncated do
  let session ← ByteReader.u32
  let challenge ← ByteReader.digest
  let maxPayload ← ByteReader.u32
  let formatVersion ← ByteReader.u32
  let serverLabel ← ByteReader.text maxLabelBytes
  pure { session, challenge, serverLabel, maxPayload, formatVersion }

/-- `decode_hello_ack`. -/
def decodeHelloAck (data : List UInt8) : Except Status HelloAckMessage :=
  match decodeHelloAckFields.run data fun c =>
      .refused .malformedMessage (UInt64.ofNat c.position) with
  | .error status => .error status
  | .ok m => if m.challenge.isZero then .error (.refused .malformedMessage 8) else .ok m

/-- A HelloAck with a label that fits and a challenge. -/
structure HelloAckMessage.Valid (m : HelloAckMessage) : Prop where
  serverLabel : m.serverLabel.length ≤ maxLabelBytes
  challenge : m.challenge.isZero = false

/-- The fields of a HelloAck are read as they are written. -/
theorem decodeHelloAckFields_recognizes :
    decodeHelloAckFields.Recognizes (fun m u => m.serverLabel.length ≤ maxLabelBytes ∧
      encodeHelloAck m = .ok u) := by
  refine (Recognizes.mapError (ByteReader.recognizes_u32.bind fun _ =>
    ByteReader.recognizes_digest.bind fun _ => ByteReader.recognizes_u32.bind fun _ =>
    ByteReader.recognizes_u32.bind fun _ =>
    (ByteReader.recognizes_text maxLabelBytes).bind fun _ => recognizes_pure _) _).congr
      (fun m u => ?_)
  obtain ⟨session, challenge, serverLabel, maxPayload, formatVersion⟩ := m
  by_cases hle : serverLabel.length ≤ maxLabelBytes
  · have hlt : serverLabel.length < 4294967296 := lt_of_le_of_lt hle (by decide)
    simp [encodeHelloAck, ByteWriter.text, Nat.not_lt.mpr hle, hle, hlt, eq_comm]
  · simp [hle]

/-- A valid HelloAck is encoded. -/
theorem encodeHelloAck_of_valid {m : HelloAckMessage} (h : m.Valid) :
    ∃ bs, encodeHelloAck m = .ok bs := by
  unfold encodeHelloAck
  rw [if_neg (Nat.not_lt.mpr h.serverLabel)]
  exact ⟨_, rfl⟩

/-- What is decoded is the encoding of a valid HelloAck. -/
theorem decodeHelloAck_eq_ok (data : List UInt8) (m : HelloAckMessage) :
    decodeHelloAck data = .ok m ↔ m.Valid ∧ encodeHelloAck m = .ok data := by
  have hfields := decodeHelloAckFields_recognizes.run data fun c =>
    Status.refused .malformedMessage (UInt64.ofNat c.position)
  unfold decodeHelloAck
  constructor
  · intro h
    cases hrun : decodeHelloAckFields.run data fun c =>
        Status.refused .malformedMessage (UInt64.ofNat c.position) with
    | error status =>
      rw [hrun] at h
      exact absurd h (by simp)
    | ok m' =>
      rw [hrun] at h
      simp only at h
      split_ifs at h with hzero
      rw [Except.ok.injEq] at h
      subst h
      obtain ⟨hlabel, hencode⟩ := (hfields m').mp hrun
      exact ⟨⟨hlabel, Bool.not_eq_true _ ▸ hzero⟩, hencode⟩
  · intro ⟨hvalid, hencode⟩
    rw [(hfields m).mpr ⟨hvalid.serverLabel, hencode⟩]
    simp [hvalid.challenge]

/-! ### Requests and responses -/

/-- Within the bound of the encoder a request is accepted exactly as it is written. -/
theorem decodeRequestMessage_eq_ok {maxNoteBytes : Nat} (hmax : maxNoteBytes ≤ 4096)
    (data : List UInt8) (r : CreditRequest) :
    decodeRequestMessage data maxNoteBytes = .ok r ↔
      r.note.length ≤ maxNoteBytes ∧ data = encodeRequestMessage r := by
  unfold decodeRequestMessage encodeRequestMessage
  rw [(decodeRequestBody_recognizes maxNoteBytes).run data _ r]
  constructor
  · intro ⟨hnote, _, hdata⟩
    rw [encodeRequestBody_of_le (hnote.trans hmax)]
    exact ⟨hnote, hdata⟩
  · intro ⟨hnote, hdata⟩
    rw [encodeRequestBody_of_le (hnote.trans hmax)] at hdata
    exact ⟨hnote, by omega, hdata⟩

/-- `encode_response_message`. -/
def encodeResponseMessage (o : CreditOutcome) : List UInt8 := encodeOutcomeBody o

/-- `decode_response_message`. -/
def decodeResponseMessage (data : List UInt8) : Except Status CreditOutcome :=
  decodeOutcomeBody.run data fun c => .refused .malformedMessage (UInt64.ofNat c.position)

/-- What is decoded is the encoding of an outcome whose quarantined credit is its stale credit. -/
theorem decodeResponseMessage_eq_ok (data : List UInt8) (o : CreditOutcome) :
    decodeResponseMessage data = .ok o ↔
      o.view.quarantined = o.view.stale ∧ data = encodeResponseMessage o :=
  decodeOutcomeBody_recognizes.run data _ o

/-- **Messages form a canonical codec.** -/
theorem messages_canonical (maxNoteBytes : Nat) (hmax : maxNoteBytes ≤ 4096) :
    Canonical (fun r : CreditRequest => r.note.length ≤ maxNoteBytes)
        (fun r => .ok (encodeRequestMessage r)) (decodeRequestMessage · maxNoteBytes) ∧
      Canonical (fun o : CreditOutcome => o.view.quarantined = o.view.stale)
        (fun o => .ok (encodeResponseMessage o)) decodeResponseMessage ∧
      Canonical HelloMessage.Valid encodeHello decodeHello ∧
      Canonical HelloAckMessage.Valid encodeHelloAck decodeHelloAck := by
  refine ⟨.of_iff (fun r _ => ⟨_, rfl⟩) fun data r => ?_,
    .of_iff (fun o _ => ⟨_, rfl⟩) fun data o => ?_,
    .of_iff (fun m => encodeHello_of_valid) decodeHello_eq_ok,
    .of_iff (fun m => encodeHelloAck_of_valid) decodeHelloAck_eq_ok⟩
  · rw [decodeRequestMessage_eq_ok hmax, Except.ok.injEq, eq_comm (a := data)]
  · rw [decodeResponseMessage_eq_ok, Except.ok.injEq, eq_comm (a := data)]

/-- The note bound of the default limits. -/
theorem messages_canonical_shipped :
    Canonical (fun r : CreditRequest => r.note.length ≤ 128)
        (fun r => .ok (encodeRequestMessage r)) (decodeRequestMessage · 128) :=
  (messages_canonical 128 (by decide)).1

end CreditFabric
