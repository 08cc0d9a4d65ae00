import CreditFabric.Wire

namespace CreditFabric

open Lib Lib.Decoder

/-!
# Durable record shapes and their codec

A journal record carries either a decided attempt or a snapshot of the whole engine.  Both
contain the durable image of accounts; the image of a decided attempt has no collections.

`decodeDurableAttempt_eq_ok` and `decodeDurableState_eq_ok` say exactly which byte strings
the two decoders accept and what they return: the encodings of well-formed values and
nothing else.
-/

/-- Durable, quiescent state of one account at a journal sequence boundary. -/
structure DurableAccount where
  config : AccountConfig := {}
  epoch : EpochId := 0
  generation : Generation := 0
  capacity : UInt64 := 0
  totals : CreditTotals := {}
  hardExhausted : Bool := false
  exhaustionCause : Reason := .ok
  stateDigest : Digest128 := {}
  incarnations : List IncarnationRecord := []
  fences : List FenceRecord := []
  ambiguous : List AmbiguousNote := []
  committedAttempts : UInt64 := 0
  refusedAttempts : UInt64 := 0
  attemptWindow : List (UInt64 × UInt64) := []
deriving DecidableEq, Repr, Inhabited

/-- Durable engine state: produced by a snapshot, consumed by recovery. -/
structure DurableState where
  journalSequence : UInt64 := 0
  chain : Digest128 := {}
  snapshots : UInt64 := 0
  accounts : List DurableAccount := []
  stateDigest : Digest128 := {}
deriving DecidableEq, Repr, Inhabited

/-- A decided attempt, as written to the journal. -/
structure DurableAttempt where
  request : CreditRequest := {}
  outcome : CreditOutcome := {}
  hasAccount : Bool := false
  createdAccount : Bool := false
  account : DurableAccount := {}
  engineAppliedAttempts : UInt64 := 0
  engineRefusedAttempts : UInt64 := 0
deriving DecidableEq, Repr, Inhabited

/-- Hard ceiling on any decoded collection (`kMaxCollection`). -/
def maxCollection : Nat := 2 ^ 20

/-! ### Collection items -/

/-- `encode_totals`. -/
def encodeTotals (t : CreditTotals) : List UInt8 :=
  ByteWriter.u64 t.issued ++ ByteWriter.u64 t.consumed ++ ByteWriter.u64 t.returned ++
    ByteWriter.u64 t.stale ++ ByteWriter.u64 t.spent ++ ByteWriter.u64 t.protectedCredits

/-- `decode_totals`. -/
def decodeTotals : Decoder Status CreditTotals := truncated do
  let issued ← ByteReader.u64
  let consumed ← ByteReader.u64
  let returned ← ByteReader.u64
  let stale ← ByteReader.u64
  let spent ← ByteReader.u64
  let protectedCredits ← ByteReader.u64
  pure { issued, consumed, returned, stale, spent, protectedCredits }

/-- Counters are read as they are written. -/
theorem decodeTotals_recognizes :
    decodeTotals.Recognizes (fun t u => u = encodeTotals t) := by
  refine (Recognizes.mapError (ByteReader.recognizes_u64.bind fun _ =>
    ByteReader.recognizes_u64.bind fun _ => ByteReader.recognizes_u64.bind fun _ =>
    ByteReader.recognizes_u64.bind fun _ => ByteReader.recognizes_u64.bind fun _ =>
    ByteReader.recognizes_u64.bind fun _ => recognizes_pure _) _).congr (fun t u => ?_)
  cases t
  simp [encodeTotals]

/-- `encode_incarnation`. -/
def encodeIncarnation (r : IncarnationRecord) : List UInt8 :=
  ByteWriter.u64 r.id ++ ByteWriter.u64 r.publisher ++ ByteWriter.u64 r.boot ++
    ByteWriter.u8 (UInt8.ofNat r.state.code) ++ ByteWriter.u64 r.reconciledEpoch ++
    ByteWriter.u64 r.reconciledGeneration ++ ByteWriter.digest r.reconciliationProof ++
    ByteWriter.u64 r.producer ++ ByteWriter.u64 r.consumer ++ ByteWriter.u64 r.grant ++
    ByteWriter.u64 r.lastSequence ++ ByteWriter.u64 r.committedOps ++
    ByteWriter.u64 r.refusedOps ++ ByteWriter.u64 r.fencedAtSequence

/-- `decode_incarnation`. -/
def decodeIncarnation : Decoder Status IncarnationRecord := do
  let (r, stateRaw) ← truncated do
    let id ← ByteReader.u64
    let publisher ← ByteReader.u64
    let boot ← ByteReader.u64
    let stateRaw ← ByteReader.u8
    let reconciledEpoch ← ByteReader.u64
    let reconciledGeneration ← ByteReader.u64
    let reconciliationProof ← ByteReader.digest
    let producer ← ByteReader.u64
    let consumer ← ByteReader.u64
    let grant ← ByteReader.u64
    let lastSequence ← ByteReader.u64
    let committedOps ← ByteReader.u64
    let refusedOps ← ByteReader.u64
    let fencedAtSequence ← ByteReader.u64
    pure (({ id, publisher, boot, reconciledEpoch, reconciledGeneration, reconciliationProof,
             producer, consumer, grant, lastSequence, committedOps, refusedOps,
             fencedAtSequence } : IncarnationRecord), stateRaw)
  let state ← ofOption (AuthorityState.ofCode? stateRaw.toNat)
    (.refused .malformedMessage stateRaw.toUInt64)
  pure { r with state }

/-- Incarnation records are read as they are written. -/
theorem decodeIncarnation_recognizes :
    decodeIncarnation.Recognizes (fun r u => u = encodeIncarnation r) := by
  refine ((Recognizes.mapError (ByteReader.recognizes_u64.bind fun _ =>
    ByteReader.recognizes_u64.bind fun _ => ByteReader.recognizes_u64.bind fun _ =>
    ByteReader.recognizes_u8.bind fun _ => ByteReader.recognizes_u64.bind fun _ =>
    ByteReader.recognizes_u64.bind fun _ => ByteReader.recognizes_digest.bind fun _ =>
    ByteReader.recognizes_u64.bind fun _ => ByteReader.recognizes_u64.bind fun _ =>
    ByteReader.recognizes_u64.bind fun _ => ByteReader.recognizes_u64.bind fun _ =>
    ByteReader.recognizes_u64.bind fun _ => ByteReader.recognizes_u64.bind fun _ =>
    ByteReader.recognizes_u64.bind fun _ => recognizes_pure _) _).bind fun _ =>
    (recognizes_ofOption _ _).bind fun _ => recognizes_pure _).congr (fun r u => ?_)
  have hstate : r.state.code < 256 := lt_trans r.state.code_lt (by decide)
  cases r
  simp [encodeIncarnation, AuthorityState.ofCode?_eq_some, toNat_eq_iff_ofNat hstate]

/-- `encode_fence`. -/
def encodeFence (f : FenceRecord) : List UInt8 :=
  ByteWriter.u64 f.incarnation ++ ByteWriter.u64 f.epoch ++ ByteWriter.u64 f.generation ++
    ByteWriter.u16 (UInt16.ofNat f.cause.code) ++ ByteWriter.u64 f.sequence ++
    ByteWriter.u64 f.fencedCredit

/-- `decode_fence`. -/
def decodeFence : Decoder Status FenceRecord := do
  let (f, causeRaw) ← truncated do
    let incarnation ← ByteReader.u64
    let epoch ← ByteReader.u64
    let generation ← ByteReader.u64
    let causeRaw ← ByteReader.u16
    let sequence ← ByteReader.u64
    let fencedCredit ← ByteReader.u64
    pure (({ incarnation, epoch, generation, sequence, fencedCredit } : FenceRecord), causeRaw)
  let cause ← ofOption (Reason.ofCode? causeRaw.toNat)
    (.refused .malformedMessage causeRaw.toUInt64)
  pure { f with cause }

/-- Fences are read as they are written. -/
theorem decodeFence_recognizes : decodeFence.Recognizes (fun f u => u = encodeFence f) := by
  refine ((Recognizes.mapError (ByteReader.recognizes_u64.bind fun _ =>
    ByteReader.recognizes_u64.bind fun _ => ByteReader.recognizes_u64.bind fun _ =>
    ByteReader.recognizes_u16.bind fun _ => ByteReader.recognizes_u64.bind fun _ =>
    ByteReader.recognizes_u64.bind fun _ => recognizes_pure _) _).bind fun _ =>
    (recognizes_ofOption _ _).bind fun _ => recognizes_pure _).congr (fun f u => ?_)
  have hcause : f.cause.code < 2 ^ 16 := lt_trans f.cause.code_lt (by decide)
  cases f
  simp [encodeFence, Reason.ofCode?_eq_some, toNat_eq_iff_ofNat16 hcause]

/-- `encode_ambiguous`. -/
def encodeAmbiguous (n : AmbiguousNote) : List UInt8 :=
  ByteWriter.digest n.attempt ++ ByteWriter.u8 (UInt8.ofNat n.op.code) ++
    ByteWriter.u64 n.sequence ++ ByteWriter.u64 n.incarnation ++ ByteWriter.u64 n.journalSequence

/-- `decode_ambiguous`. -/
def decodeAmbiguous : Decoder Status AmbiguousNote := do
  let (n, opRaw) ← truncated do
    let attempt ← ByteReader.digest
    let opRaw ← ByteReader.u8
    let sequence ← ByteReader.u64
    let incarnation ← ByteReader.u64
    let journalSequence ← ByteReader.u64
    pure (({ attempt, sequence, incarnation, journalSequence } : AmbiguousNote), opRaw)
  let op ← ofOption (OpKind.ofCode? opRaw.toNat) (.refused .malformedMessage opRaw.toUInt64)
  pure { n with op }

/-- Notes are read as they are written. -/
theorem decodeAmbiguous_recognizes :
    decodeAmbiguous.Recognizes (fun n u => u = encodeAmbiguous n) := by
  refine ((Recognizes.mapError (ByteReader.recognizes_digest.bind fun _ =>
    ByteReader.recognizes_u8.bind fun _ => ByteReader.recognizes_u64.bind fun _ =>
    ByteReader.recognizes_u64.bind fun _ => ByteReader.recognizes_u64.bind fun _ =>
    recognizes_pure _) _).bind fun _ =>
    (recognizes_ofOption _ _).bind fun _ => recognizes_pure _).congr (fun n u => ?_)
  have hop : n.op.code < 256 := lt_trans n.op.code_lt (by decide)
  cases n
  simp [encodeAmbiguous, OpKind.ofCode?_eq_some, toNat_eq_iff_ofNat hop]

/-- One `(incarnation, sequence)` pair of the attempt window. -/
def encodeWindowEntry (e : UInt64 × UInt64) : List UInt8 :=
  ByteWriter.u64 e.1 ++ ByteWriter.u64 e.2

/-- A place of the window. -/
def decodeWindowEntry : Decoder Status (UInt64 × UInt64) := truncated do
  let incarnation ← ByteReader.u64
  let sequence ← ByteReader.u64
  pure (incarnation, sequence)

/-- Places are read as they are written. -/
theorem decodeWindowEntry_recognizes :
    decodeWindowEntry.Recognizes (fun e u => u = encodeWindowEntry e) := by
  refine (Recognizes.mapError (ByteReader.recognizes_u64.bind fun _ =>
    ByteReader.recognizes_u64.bind fun _ => recognizes_pure _) _).congr (fun e u => ?_)
  cases e
  simp [encodeWindowEntry]

/-- The length of the counters. -/
@[simp] theorem length_encodeTotals (t : CreditTotals) : (encodeTotals t).length = 48 := by
  simp [encodeTotals]

/-- The length of an incarnation record. -/
@[simp] theorem length_encodeIncarnation (r : IncarnationRecord) :
    (encodeIncarnation r).length = 113 := by
  simp [encodeIncarnation]

/-- The length of a fence. -/
@[simp] theorem length_encodeFence (f : FenceRecord) : (encodeFence f).length = 42 := by
  simp [encodeFence]

/-- The length of a note. -/
@[simp] theorem length_encodeAmbiguous (n : AmbiguousNote) :
    (encodeAmbiguous n).length = 41 := by
  simp [encodeAmbiguous]

/-- The length of a place. -/
@[simp] theorem length_encodeWindowEntry (e : UInt64 × UInt64) :
    (encodeWindowEntry e).length = 16 := by
  simp [encodeWindowEntry]

/-! ### Counted collections -/

section Counted

variable {α : Type}

/-- A list behind its count. -/
def encodeCounted (item : α → List UInt8) (l : List α) : List UInt8 :=
  ByteWriter.u64 (UInt64.ofNat l.length) ++ l.flatMap item

/-- `within_budget`: the claimed count is bounded and fits in the remaining bytes. -/
def withinBudget (c : ByteReader) (count : UInt64) (minimumBytesPerItem : Nat) : Bool :=
  decide (count.toNat ≤ maxCollection) &&
    decide (count.toNat * minimumBytesPerItem ≤ c.rest.length)

/-- A counted collection: the count, its budget check, then the items. -/
def decodeCounted (item : Decoder Status α) (minimumBytesPerItem : Nat) (malformed : UInt64) :
    Decoder Status (List α) := do
  let count ← ByteReader.u64.mapError fun _ => .refused .malformedMessage malformed
  fun c =>
    if withinBudget c count minimumBytesPerItem then item.replicate count.toNat c
    else .error (.refused .malformedMessage malformed)

variable {item : Decoder Status α} {enc : α → List UInt8} {size : Nat}

/-- The length of items of one size. -/
theorem length_flatMap_enc (hsize : ∀ a, (enc a).length = size) (l : List α) :
    (l.flatMap enc).length = l.length * size := by
  induction l with
  | nil => simp
  | cons a l ih =>
    rw [List.flatMap_cons, List.length_append, ih, hsize, List.length_cons, Nat.succ_mul,
      Nat.add_comm]

/-- The length of items of a least size. -/
theorem le_length_flatMap_enc {minimum : Nat} (hmin : ∀ a, minimum ≤ (enc a).length)
    (l : List α) : l.length * minimum ≤ (l.flatMap enc).length := by
  induction l with
  | nil => simp
  | cons a l ih =>
    have ha := hmin a
    rw [List.flatMap_cons, List.length_append, List.length_cons, Nat.succ_mul]
    omega

/-- The length of a counted list. -/
theorem length_encodeCounted (hsize : ∀ a, (enc a).length = size) (l : List α) :
    (encodeCounted enc l).length = 8 + l.length * size := by
  rw [encodeCounted, List.length_append, ByteWriter.length_u64, length_flatMap_enc hsize]

/-- The budget check rejects no honest collection, because an item is never shorter than the
    claimed minimum; so the collection is recognized up to the hard ceiling. -/
theorem decodeCounted_recognizes_valid {valid : α → Prop} {minimum : Nat} {malformed : UInt64}
    (hitem : item.Recognizes (fun a u => valid a ∧ u = enc a))
    (hmin : ∀ a, minimum ≤ (enc a).length) :
    (decodeCounted item minimum malformed).Recognizes
      (fun l u => l.length ≤ maxCollection ∧ (∀ a ∈ l, valid a) ∧ u = encodeCounted enc l) := by
  have hbody : ∀ count : UInt64, Recognizes
      (fun c => if withinBudget c count minimum then item.replicate count.toNat c
        else .error (.refused .malformedMessage malformed))
      (fun as u => count.toNat ≤ maxCollection ∧ as.length = count.toNat ∧
        (∀ a ∈ as, valid a) ∧ u = as.flatMap enc) := by
    intro count c as c'
    -- the budget is checked before the items are read, and holds of what they take
    by_cases hb : withinBudget c count minimum
    · have hcount : count.toNat ≤ maxCollection := by
        simp only [withinBudget, Bool.and_eq_true, decide_eq_true_eq] at hb
        exact hb.1
      simp only [hb, if_true, Recognizes.replicate hitem count.toNat c as c', hcount, true_and]
    · simp only [hb, Bool.false_eq_true, if_false, reduceCtorEq, false_iff]
      rintro ⟨u, ⟨hcount, hlen, -, rfl⟩, hrest, -⟩
      apply hb
      have hbytes : count.toNat * minimum ≤ (as.flatMap enc).length := by
        rw [← hlen]
        exact le_length_flatMap_enc hmin as
      simp only [withinBudget, Bool.and_eq_true, decide_eq_true_eq]
      refine ⟨hcount, ?_⟩
      rw [hrest, List.length_append]
      omega
  refine ((ByteReader.recognizes_u64.mapError _).bind hbody).congr (fun l u => ?_)
  constructor
  · rintro ⟨count, v, w, rfl, ⟨hcount, hlen, hval, rfl⟩, rfl⟩
    refine ⟨by omega, hval, ?_⟩
    rw [encodeCounted, hlen]
    simp
  · rintro ⟨hle, hval, rfl⟩
    have hlt : l.length < 2 ^ 64 := lt_of_le_of_lt hle (by decide)
    have hto : (UInt64.ofNat l.length).toNat = l.length := UInt64.toNat_ofNat_of_lt' hlt
    exact ⟨_, _, _, rfl, ⟨by rw [hto]; exact hle, hto.symm, hval, rfl⟩, rfl⟩

/-- Items of one fixed size, every value of which is valid. -/
theorem decodeCounted_recognizes {minimum : Nat} {malformed : UInt64}
    (hitem : item.Recognizes (fun a u => u = enc a)) (hsize : ∀ a, (enc a).length = size)
    (hmin : minimum ≤ size) :
    (decodeCounted item minimum malformed).Recognizes
      (fun l u => l.length ≤ maxCollection ∧ u = encodeCounted enc l) := by
  have hitem' : item.Recognizes (fun a u => True ∧ u = enc a) :=
    hitem.congr fun a u => by simp
  refine (decodeCounted_recognizes_valid hitem' fun a => ?_).congr (fun l u => by simp)
  rw [hsize a]
  exact hmin

end Counted

/-! ### Account images -/

/-- `encode_durable_account`. -/
def encodeDurableAccount (a : DurableAccount) : List UInt8 :=
  encodeAccountConfig a.config ++ ByteWriter.u64 a.epoch ++ ByteWriter.u64 a.generation ++
    ByteWriter.u64 a.capacity ++ encodeTotals a.totals ++ ByteWriter.boolean a.hardExhausted ++
    ByteWriter.u16 (UInt16.ofNat a.exhaustionCause.code) ++ ByteWriter.digest a.stateDigest ++
    encodeCounted encodeIncarnation a.incarnations ++ encodeCounted encodeFence a.fences ++
    encodeCounted encodeAmbiguous a.ambiguous ++ ByteWriter.u64 a.committedAttempts ++
    ByteWriter.u64 a.refusedAttempts ++ encodeCounted encodeWindowEntry a.attemptWindow

/-- The account image, read in place for an attempt (`malformed = 13`) and from a nested
    reader for a snapshot (`malformed = 18`); the four collections report consecutive
    details. -/
def decodeDurableAccount (malformed : UInt64) : Decoder Status DurableAccount := do
  let config ← decodeAccountConfig
  let (epoch, generation, capacity) ← truncated do
    let epoch ← ByteReader.u64
    let generation ← ByteReader.u64
    let capacity ← ByteReader.u64
    pure (epoch, generation, capacity)
  let totals ← decodeTotals
  let (hardExhausted, causeRaw) ← truncated do
    let hardExhausted ← ByteReader.boolean
    let causeRaw ← ByteReader.u16
    pure (hardExhausted, causeRaw)
  let exhaustionCause ← ofOption (Reason.ofCode? causeRaw.toNat)
    (.refused .malformedMessage causeRaw.toUInt64)
  let stateDigest ← truncated ByteReader.digest
  let incarnations ← decodeCounted decodeIncarnation 112 malformed
  let fences ← decodeCounted decodeFence 40 (malformed + 1)
  let ambiguous ← decodeCounted decodeAmbiguous 40 (malformed + 2)
  let (committedAttempts, refusedAttempts) ← truncated do
    let committedAttempts ← ByteReader.u64
    let refusedAttempts ← ByteReader.u64
    pure (committedAttempts, refusedAttempts)
  let attemptWindow ← decodeCounted decodeWindowEntry 16 (malformed + 3)
  pure { config, epoch, generation, capacity, totals, hardExhausted, exhaustionCause,
         stateDigest, incarnations, fences, ambiguous, committedAttempts, refusedAttempts,
         attemptWindow }

/-- Every collection is within the hard ceiling of the decoder. -/
structure DurableAccount.Bounded (a : DurableAccount) : Prop where
  incarnations : a.incarnations.length ≤ maxCollection
  fences : a.fences.length ≤ maxCollection
  ambiguous : a.ambiguous.length ≤ maxCollection
  attemptWindow : a.attemptWindow.length ≤ maxCollection

/-- Images are read as they are written, within their bounds. -/
theorem decodeDurableAccount_recognizes (malformed : UInt64) :
    (decodeDurableAccount malformed).Recognizes
      (fun a u => a.Bounded ∧ u = encodeDurableAccount a) := by
  refine (decodeAccountConfig_recognizes.bind fun _ =>
    (Recognizes.mapError (ByteReader.recognizes_u64.bind fun _ =>
      ByteReader.recognizes_u64.bind fun _ => ByteReader.recognizes_u64.bind fun _ =>
      recognizes_pure _) _).bind fun _ =>
    decodeTotals_recognizes.bind fun _ =>
    (Recognizes.mapError (ByteReader.recognizes_boolean.bind fun _ =>
      ByteReader.recognizes_u16.bind fun _ => recognizes_pure _) _).bind fun _ =>
    (recognizes_ofOption _ _).bind fun _ => (ByteReader.recognizes_digest.mapError _).bind fun _ =>
    (decodeCounted_recognizes decodeIncarnation_recognizes length_encodeIncarnation
      (by decide)).bind fun _ =>
    (decodeCounted_recognizes decodeFence_recognizes length_encodeFence (by decide)).bind fun _ =>
    (decodeCounted_recognizes decodeAmbiguous_recognizes length_encodeAmbiguous
      (by decide)).bind fun _ =>
    (Recognizes.mapError (ByteReader.recognizes_u64.bind fun _ =>
      ByteReader.recognizes_u64.bind fun _ => recognizes_pure _) _).bind fun _ =>
    (decodeCounted_recognizes decodeWindowEntry_recognizes length_encodeWindowEntry
      (by decide)).bind fun _ => recognizes_pure _).congr (fun a u => ?_)
  have hcause : a.exhaustionCause.code < 2 ^ 16 :=
    lt_trans a.exhaustionCause.code_lt (by decide)
  have hbounded : a.Bounded ↔ a.incarnations.length ≤ maxCollection ∧
      a.fences.length ≤ maxCollection ∧ a.ambiguous.length ≤ maxCollection ∧
      a.attemptWindow.length ≤ maxCollection :=
    ⟨fun h => ⟨h.1, h.2, h.3, h.4⟩, fun h => ⟨h.1, h.2.1, h.2.2.1, h.2.2.2⟩⟩
  rw [hbounded]
  cases a
  simp [-Bool.exists_bool, encodeDurableAccount, Reason.ofCode?_eq_some,
    toNat_eq_iff_ofNat16 hcause, and_assoc]

/-- The length of an image. -/
theorem length_encodeDurableAccount (a : DurableAccount) :
    (encodeDurableAccount a).length = 207 + 113 * a.incarnations.length +
      42 * a.fences.length + 41 * a.ambiguous.length + 16 * a.attemptWindow.length := by
  simp only [encodeDurableAccount, List.length_append, length_encodeAccountConfig,
    ByteWriter.length_u64, ByteWriter.length_boolean, ByteWriter.length_u16,
    ByteWriter.length_digest, length_encodeTotals,
    length_encodeCounted length_encodeIncarnation, length_encodeCounted length_encodeFence,
    length_encodeCounted length_encodeAmbiguous, length_encodeCounted length_encodeWindowEntry]
  omega

/-! ### Attempt records -/

/-- `encode_durable_attempt`. -/
def encodeDurableAttempt (a : DurableAttempt) : List UInt8 :=
  encodeRequestBody a.request ++ encodeOutcomeBody a.outcome ++
    ByteWriter.boolean a.hasAccount ++ ByteWriter.boolean a.createdAccount ++
    (if a.hasAccount then encodeDurableAccount a.account else []) ++
    ByteWriter.u64 a.engineAppliedAttempts ++ ByteWriter.u64 a.engineRefusedAttempts

/-- The account image, when the record has one; the default image otherwise. -/
def decodeAttemptAccount (hasAccount : Bool) : Decoder Status DurableAccount :=
  if hasAccount then decodeDurableAccount 13 else pure {}

/-- The fields of an attempt record, in front of the check that nothing is left over. -/
def decodeAttemptFields : Decoder Status DurableAttempt := do
  let request ← decodeRequestBody 4096
  let outcome ← decodeOutcomeBody
  let (hasAccount, createdAccount) ← truncated do
    let hasAccount ← ByteReader.boolean
    let createdAccount ← ByteReader.boolean
    pure (hasAccount, createdAccount)
  require (!(createdAccount && !hasAccount)) (.refused .malformedMessage 11)
  require (!(createdAccount && !outcome.applied)) (.refused .malformedMessage 12)
  let account ← decodeAttemptAccount hasAccount
  let (engineAppliedAttempts, engineRefusedAttempts) ← truncated do
    let engineAppliedAttempts ← ByteReader.u64
    let engineRefusedAttempts ← ByteReader.u64
    pure (engineAppliedAttempts, engineRefusedAttempts)
  pure { request, outcome, hasAccount, createdAccount, account, engineAppliedAttempts,
         engineRefusedAttempts }

/-- `decode_durable_attempt`. -/
def decodeDurableAttempt (data : List UInt8) : Except Status DurableAttempt :=
  decodeAttemptFields.run data fun c => .refused .malformedMessage (UInt64.ofNat c.position)

/-- What an attempt record must satisfy to be read back: the note fits the encoder, the view
    is a transmitted one, and a created account is present and applied. -/
structure DurableAttempt.WellFormed (a : DurableAttempt) : Prop where
  note : a.request.note.length ≤ 4096
  view : a.outcome.view.quarantined = a.outcome.view.stale
  created : a.createdAccount = true → a.hasAccount = true ∧ a.outcome.applied = true
  bounded : a.hasAccount = true → a.account.Bounded
  absent : a.hasAccount = false → a.account = {}

/-- The image of an attempt is there if its flag says so. -/
theorem decodeAttemptAccount_recognizes (hasAccount : Bool) :
    (decodeAttemptAccount hasAccount).Recognizes (fun a u =>
      (hasAccount = true → a.Bounded) ∧ (hasAccount = false → a = {}) ∧
      u = if hasAccount then encodeDurableAccount a else []) := by
  cases hasAccount with
  | false => exact (recognizes_pure _).congr (fun a u => by simp)
  | true => exact (decodeDurableAccount_recognizes 13).congr (fun a u => by simp)

/-- The request of an attempt is read with the largest note. -/
theorem decodeAttemptRequest_recognizes :
    (decodeRequestBody 4096).Recognizes
      (fun r u => r.note.length ≤ 4096 ∧ u = encodeRequestBody r) := by
  refine (decodeRequestBody_recognizes 4096).congr (fun r u => ?_)
  have hbody : r.note.length ≤ 4096 → encodeRequestBody r =
      encodeRequestHead r ++ (ByteWriter.u32 (UInt32.ofNat r.note.length) ++ r.note) :=
    encodeRequestBody_of_le
  have hlt : r.note.length ≤ 4096 → r.note.length < 2 ^ 32 := by omega
  by_cases hnote : r.note.length ≤ 4096
  · simp only [hnote, hlt hnote, hbody hnote, true_and]
  · simp only [hnote, false_and]

/-- Attempts are read as they are written. -/
theorem decodeAttemptFields_recognizes :
    decodeAttemptFields.Recognizes (fun a u => a.WellFormed ∧ u = encodeDurableAttempt a) := by
  refine (decodeAttemptRequest_recognizes.bind fun _ =>
    decodeOutcomeBody_recognizes.bind fun _ =>
    (Recognizes.mapError (ByteReader.recognizes_boolean.bind fun _ =>
      ByteReader.recognizes_boolean.bind fun _ => recognizes_pure _) _).bind fun _ =>
    (recognizes_require _ _).bind fun _ => (recognizes_require _ _).bind fun _ =>
    (decodeAttemptAccount_recognizes _).bind fun _ =>
    (Recognizes.mapError (ByteReader.recognizes_u64.bind fun _ =>
      ByteReader.recognizes_u64.bind fun _ => recognizes_pure _) _).bind fun _ =>
    recognizes_pure _).congr (fun a u => ?_)
  have hwf : a.WellFormed ↔ a.request.note.length ≤ 4096 ∧
      a.outcome.view.quarantined = a.outcome.view.stale ∧
      (!(a.createdAccount && !a.hasAccount)) = true ∧
      (!(a.createdAccount && !a.outcome.applied)) = true ∧
      (a.hasAccount = true → a.account.Bounded) ∧ (a.hasAccount = false → a.account = {}) := by
    constructor
    · intro h
      refine ⟨h.note, h.view, ?_, ?_, h.bounded, h.absent⟩
      · cases hc : a.createdAccount
        · rfl
        · simp [(h.created hc).1]
      · cases hc : a.createdAccount
        · rfl
        · simp [(h.created hc).2]
    · rintro ⟨hnote, hview, h11, h12, hbounded, habsent⟩
      refine ⟨hnote, hview, fun hc => ⟨?_, ?_⟩, hbounded, habsent⟩
      · simpa [hc] using h11
      · simpa [hc] using h12
  rw [hwf]
  cases a
  simp [-Bool.exists_bool, -Bool.not_and, -Bool.not_eq_eq_eq_not, encodeDurableAttempt, and_assoc]

/-- What is decoded is the encoding of a well formed attempt. -/
theorem decodeDurableAttempt_eq_ok (data : List UInt8) (a : DurableAttempt) :
    decodeDurableAttempt data = .ok a ↔ a.WellFormed ∧ data = encodeDurableAttempt a :=
  decodeAttemptFields_recognizes.run data _ a

/-! ### Snapshots -/

/-- One account of a snapshot, behind its 32-bit length. -/
def encodeFramedAccount (a : DurableAccount) : List UInt8 :=
  ByteWriter.u32 (UInt32.ofNat (encodeDurableAccount a).length) ++ encodeDurableAccount a

/-- `encode_durable_state`. -/
def encodeDurableState (s : DurableState) : List UInt8 :=
  ByteWriter.u64 s.journalSequence ++ ByteWriter.digest s.chain ++ ByteWriter.u64 s.snapshots ++
    ByteWriter.digest s.stateDigest ++ encodeCounted encodeFramedAccount s.accounts

/-- The bytes behind a 32-bit length. -/
def decodeFrame : Decoder ByteReader (List UInt8) := do
  let length ← ByteReader.u32
  readBytes length.toNat

/-- A nested reader over the framed bytes, which must be used up. -/
def decodeFramedAccount : Decoder Status DurableAccount := do
  let bytes ← truncated decodeFrame
  fun c =>
    match (decodeDurableAccount 18).run bytes fun _ => .refused .malformedMessage 22 with
    | .ok a => .ok (a, c)
    | .error e => .error e

/-- The fields of a state. -/
def decodeStateFields : Decoder Status DurableState := do
  let (journalSequence, chain, snapshots, stateDigest) ← truncated do
    let journalSequence ← ByteReader.u64
    let chain ← ByteReader.digest
    let snapshots ← ByteReader.u64
    let stateDigest ← ByteReader.digest
    pure (journalSequence, chain, snapshots, stateDigest)
  let accounts ← decodeCounted decodeFramedAccount 4 17
  pure { journalSequence, chain, snapshots, accounts, stateDigest }

/-- `decode_durable_state`. -/
def decodeDurableState (data : List UInt8) : Except Status DurableState :=
  decodeStateFields.run data fun c => .refused .malformedMessage (UInt64.ofNat c.position)

/-- An account image whose frame length is exact. -/
structure DurableAccount.Framed (a : DurableAccount) : Prop where
  bounded : a.Bounded
  length : (encodeDurableAccount a).length < 2 ^ 32

/-- An image is framed when it is bounded and its length fits the frame. -/
theorem DurableAccount.framed_iff (a : DurableAccount) :
    a.Framed ↔ a.Bounded ∧ (encodeDurableAccount a).length < 2 ^ 32 :=
  ⟨fun h => ⟨h.1, h.2⟩, fun h => ⟨h.1, h.2⟩⟩

/-- What a snapshot must satisfy to be read back. -/
structure DurableState.WellFormed (s : DurableState) : Prop where
  count : s.accounts.length ≤ maxCollection
  framed : ∀ a ∈ s.accounts, a.Framed

/-- A frame of bytes is read as it is written. -/
theorem decodeFrame_recognizes :
    decodeFrame.Recognizes (fun bs u => bs.length < 2 ^ 32 ∧
      u = ByteWriter.u32 (UInt32.ofNat bs.length) ++ bs) := by
  refine (ByteReader.recognizes_u32.bind fun length =>
    recognizes_readBytes length.toNat).congr (fun bs u => ?_)
  constructor
  · rintro ⟨length, v, w, rfl, ⟨hlen, rfl⟩, rfl⟩
    refine ⟨hlen ▸ length.toNat_lt, ?_⟩
    rw [hlen]
    simp
  · rintro ⟨hlt, rfl⟩
    exact ⟨_, _, _, rfl, ⟨(UInt32.toNat_ofNat_of_lt' hlt).symm, rfl⟩, rfl⟩

/-- A framed image is read as it is written. -/
theorem decodeFramedAccount_recognizes :
    decodeFramedAccount.Recognizes (fun a u => a.Framed ∧ u = encodeFramedAccount a) := by
  have hbody : ∀ bytes : List UInt8, Recognizes
      (fun c => match (decodeDurableAccount 18).run bytes
          fun _ => Status.refused .malformedMessage 22 with
        | .ok a => .ok (a, c)
        | .error e => .error e)
      (fun a u => (a.Bounded ∧ bytes = encodeDurableAccount a) ∧ u = []) := by
    intro bytes c a c'
    have hrun := (decodeDurableAccount_recognizes 18).run bytes
      fun _ => Status.refused .malformedMessage 22
    cases hd : (decodeDurableAccount 18).run bytes
        fun _ => Status.refused .malformedMessage 22 with
    | error e =>
      have hno : ¬ (a.Bounded ∧ bytes = encodeDurableAccount a) := by
        rw [← hrun a, hd]
        simp
      simp [hno]
    | ok b =>
      have hb := (hrun b).mp hd
      have ha : (a.Bounded ∧ bytes = encodeDurableAccount a) ↔ a = b := by
        rw [← hrun a, hd, Except.ok.injEq, eq_comm]
      simp only [ha]
      exact recognizes_pure b c a c'
  refine ((decodeFrame_recognizes.mapError _).bind hbody).congr (fun a u => ?_)
  rw [DurableAccount.framed_iff, encodeFramedAccount]
  constructor
  · intro ⟨bytes, v, w, ⟨hlen, hv⟩, ⟨⟨hb, hbytes⟩, hw⟩, hu⟩
    rw [hu, hv, hw, hbytes, List.append_nil]
    rw [hbytes] at hlen
    exact ⟨⟨hb, hlen⟩, rfl⟩
  · intro ⟨⟨hb, hlen⟩, hu⟩
    exact ⟨_, _, [], ⟨hlen, rfl⟩, ⟨⟨hb, rfl⟩, rfl⟩, by rw [hu, List.append_nil]⟩

/-- States are read as they are written. -/
theorem decodeStateFields_recognizes :
    decodeStateFields.Recognizes (fun s u => s.WellFormed ∧ u = encodeDurableState s) := by
  refine ((Recognizes.mapError (ByteReader.recognizes_u64.bind fun _ =>
      ByteReader.recognizes_digest.bind fun _ => ByteReader.recognizes_u64.bind fun _ =>
      ByteReader.recognizes_digest.bind fun _ => recognizes_pure _) _).bind fun _ =>
    (decodeCounted_recognizes_valid decodeFramedAccount_recognizes fun a => ?_).bind fun _ =>
    recognizes_pure _).congr (fun s u => ?_)
  · simp [encodeFramedAccount]
  · have hwf : s.WellFormed ↔ s.accounts.length ≤ maxCollection ∧
        ∀ a ∈ s.accounts, a.Framed := ⟨fun h => ⟨h.1, h.2⟩, fun h => ⟨h.1, h.2⟩⟩
    rw [hwf]
    cases s
    simp [encodeDurableState, and_assoc]

/-- What is decoded is the encoding of a well formed state. -/
theorem decodeDurableState_eq_ok (data : List UInt8) (s : DurableState) :
    decodeDurableState data = .ok s ↔ s.WellFormed ∧ data = encodeDurableState s :=
  decodeStateFields_recognizes.run data _ s

/-- No snapshot continues another one. -/
theorem decodeDurableState_append {data more : List UInt8} {s s' : DurableState}
    (h : decodeDurableState data = .ok s) (h' : decodeDurableState (data ++ more) = .ok s') :
    more = [] := by
  obtain ⟨hwf, hdata⟩ := (decodeDurableState_eq_ok data s).mp h
  obtain ⟨hwf', hmore⟩ := (decodeDurableState_eq_ok _ s').mp h'
  rw [hdata] at hmore
  exact (decodeStateFields_recognizes.unique hwf hwf' (hmore.trans (List.append_nil _).symm)).2

/-- **Records form a canonical codec.** -/
theorem records_canonical :
    Canonical DurableState.WellFormed (fun s => .ok (encodeDurableState s)) decodeDurableState ∧
      Canonical DurableAttempt.WellFormed (fun a => .ok (encodeDurableAttempt a))
        decodeDurableAttempt := by
  refine ⟨.of_iff (fun s _ => ⟨_, rfl⟩) fun data s => ?_,
    .of_iff (fun a _ => ⟨_, rfl⟩) fun data a => ?_⟩
  · rw [decodeDurableState_eq_ok, Except.ok.injEq, eq_comm (a := data)]
  · rw [decodeDurableAttempt_eq_ok, Except.ok.injEq, eq_comm (a := data)]

/-- The view's `quarantined` is not written, so an attempt with a view that was not computed is
    read back as another one. -/
theorem quarantined_not_read_back :
    let a : DurableAttempt := { outcome := { view := { quarantined := 1 } } }
    a.request.note.length ≤ 4096 ∧
      (a.createdAccount = true → a.hasAccount = true ∧ a.outcome.applied = true) ∧
      a.account.Bounded ∧ (encodeDurableAccount a.account).length < 2 ^ 32 ∧
      (a.hasAccount = false → a.account = {}) ∧
      decodeDurableAttempt (encodeDurableAttempt a) ≠ .ok a := by
  refine ⟨by decide, nofun, ⟨by decide, by decide, by decide, by decide⟩, by decide +kernel,
    fun _ => rfl, fun h => ?_⟩
  have hview := ((decodeDurableAttempt_eq_ok _ _).mp h).1.view
  exact absurd hview (by decide)

/-! ### Reading back what was written

The decoders accept any byte string, so what they return says nothing about where the bytes
came from.  The results of this section are about bytes the encoders wrote: whatever a decoder
accepts is then what was written, although the encoders cut counts to 64 bits, frame lengths
to 32 bits and leave out a long note. -/

section Counted

variable {α : Type} {enc : α → List UInt8} {size : Nat}

/-- Two collections of one item size with the same bytes in front have the same length. -/
theorem encodeCounted_append_inj (hsize : ∀ a, (enc a).length = size) {l l' : List α}
    (hl : l.length < 2 ^ 64) (hl' : l'.length < 2 ^ 64) {x y : List UInt8}
    (h : encodeCounted enc l ++ x = encodeCounted enc l' ++ y) :
    l.length = l'.length ∧ x = y := by
  simp only [encodeCounted, List.append_assoc] at h
  obtain ⟨hcount, hrest⟩ := List.append_inj h (by simp)
  have hlen : l.length = l'.length := by
    have hnat := congrArg UInt64.toNat (ByteWriter.u64_inj hcount)
    rwa [UInt64.toNat_ofNat_of_lt' hl, UInt64.toNat_ofNat_of_lt' hl'] at hnat
  refine ⟨hlen, (List.append_inj hrest ?_).2⟩
  rw [length_flatMap_enc hsize, length_flatMap_enc hsize, hlen]

end Counted

/-- An image is determined by its encoding, whatever lies behind. -/
private theorem encodeDurableAccount_append_inj {a a' : DurableAccount} {x y : List UInt8}
    (hlen : (encodeDurableAccount a).length < 2 ^ 64) (ha' : a'.Bounded)
    (h : encodeDurableAccount a ++ x = encodeDurableAccount a' ++ y) : a = a' ∧ x = y := by
  rw [length_encodeDurableAccount] at hlen
  have hceil : maxCollection < 2 ^ 64 := by decide
  have hi' := ha'.incarnations
  have hf' := ha'.fences
  have ha := ha'.ambiguous
  have hw' := ha'.attemptWindow
  -- the four counts agree one after the other, so the written image was in bounds
  have hbounded : a.Bounded := by
    simp only [encodeDurableAccount, List.append_assoc] at h
    iterate 8 replace h := (List.append_inj h (by simp)).2
    obtain ⟨hi, h⟩ := encodeCounted_append_inj length_encodeIncarnation (by omega) (by omega) h
    obtain ⟨hf, h⟩ := encodeCounted_append_inj length_encodeFence (by omega) (by omega) h
    obtain ⟨hm, h⟩ := encodeCounted_append_inj length_encodeAmbiguous (by omega) (by omega) h
    iterate 2 replace h := (List.append_inj h (by simp)).2
    obtain ⟨hw, h⟩ := encodeCounted_append_inj length_encodeWindowEntry (by omega) (by omega) h
    exact ⟨by omega, by omega, by omega, by omega⟩
  exact Recognizes.unique (decodeDurableAccount_recognizes 18) hbounded ha' h

/-- So are the framed images of a state. -/
private theorem encodeFramedAccounts_inj {l l' : List DurableAccount}
    (hcount : l.length = l'.length)
    (hlen : (l.flatMap encodeFramedAccount).length < 2 ^ 64) (hl' : ∀ a ∈ l', a.Bounded)
    (h : l.flatMap encodeFramedAccount = l'.flatMap encodeFramedAccount) : l = l' := by
  induction l generalizing l' with
  | nil => exact (List.length_eq_zero_iff.mp hcount.symm).symm
  | cons a l ih =>
    obtain ⟨a', l'', rfl⟩ : ∃ a' l'', l' = a' :: l'' :=
      List.exists_cons_of_length_eq_add_one hcount.symm
    simp only [List.flatMap_cons, encodeFramedAccount, List.append_assoc, List.length_append]
      at h hlen
    have hbody := (List.append_inj h (by simp)).2
    obtain ⟨rfl, hrest⟩ := encodeDurableAccount_append_inj (by omega)
      (hl' a' List.mem_cons_self) hbody
    rw [ih (by simpa using hcount) (by omega)
      (fun a ha => hl' a (List.mem_cons_of_mem _ ha)) hrest]

/-- **Snapshots are read back as written.** -/
theorem decodeDurableState_of_encode {s s' : DurableState}
    (hlen : (encodeDurableState s).length < 2 ^ 64)
    (h : decodeDurableState (encodeDurableState s) = .ok s') : s' = s := by
  obtain ⟨hwf, hbytes⟩ := (decodeDurableState_eq_ok _ _).mp h
  have hframes : ∀ l : List DurableAccount,
      l.length * 4 ≤ (l.flatMap encodeFramedAccount).length :=
    le_length_flatMap_enc fun a => by simp [encodeFramedAccount]
  have hmax : maxCollection < 2 ^ 64 := by decide
  have hcount' := hwf.count
  simp only [encodeDurableState, encodeCounted, List.length_append] at hlen
  have hcount := hframes s.accounts
  simp only [encodeDurableState, encodeCounted, List.append_assoc] at hbytes
  obtain ⟨hseq, hbytes⟩ := List.append_inj hbytes (by simp)
  obtain ⟨hchain, hbytes⟩ := List.append_inj hbytes (by simp)
  obtain ⟨hsnap, hbytes⟩ := List.append_inj hbytes (by simp)
  obtain ⟨hdig, hbytes⟩ := List.append_inj hbytes (by simp)
  obtain ⟨hn, hbytes⟩ := List.append_inj hbytes (by simp)
  have hlenEq : s.accounts.length = s'.accounts.length := by
    have hnat := congrArg UInt64.toNat (ByteWriter.u64_inj hn)
    rwa [UInt64.toNat_ofNat_of_lt' (by show _ < 2 ^ 64; omega),
      UInt64.toNat_ofNat_of_lt' (by show _ < 2 ^ 64; omega)] at hnat
  have hacc := encodeFramedAccounts_inj hlenEq (by omega) (fun a ha => (hwf.framed a ha).1) hbytes
  have hback : decodeDurableState (encodeDurableState s) = .ok s := by
    refine (decodeDurableState_eq_ok _ _).mpr ⟨?_, rfl⟩
    exact ⟨by omega, by rw [hacc]; exact hwf.framed⟩
  rw [hback, Except.ok.injEq] at h
  exact h.symm

/-- An attempt record as the engine writes it: with an account image that has no collections,
    a view that is transmitted whole, and a created account only when applied. -/
structure DurableAttempt.Written (d : DurableAttempt) : Prop where
  hasAccount : d.hasAccount = true
  view : d.outcome.view.quarantined = d.outcome.view.stale
  created : d.createdAccount = true → d.outcome.applied = true
  incarnations : d.account.incarnations = []
  fences : d.account.fences = []
  ambiguous : d.account.ambiguous = []
  attemptWindow : d.account.attemptWindow = []

/-- The engine writes an image without its lists. -/
theorem DurableAttempt.Written.length_account {d : DurableAttempt} (hd : d.Written) :
    (encodeDurableAccount d.account).length = 207 := by
  rw [length_encodeDurableAccount, hd.incarnations, hd.fences, hd.ambiguous, hd.attemptWindow]
  rfl

/-- The length of an attempt that the engine writes. -/
theorem length_encodeDurableAttempt {d : DurableAttempt} (hd : d.Written)
    (hnote : d.request.note.length ≤ 4096) :
    (encodeDurableAttempt d).length = 644 + d.request.note.length := by
  unfold encodeDurableAttempt
  simp only [hd.hasAccount, if_true, List.length_append, length_encodeRequestBody hnote,
    length_encodeOutcomeBody, ByteWriter.length_boolean, hd.length_account,
    ByteWriter.length_u64]
  omega

/-- A written attempt whose note fits is read back unchanged. -/
theorem decodeDurableAttempt_encode {d : DurableAttempt} (hd : d.Written)
    (hnote : d.request.note.length ≤ 4096) :
    decodeDurableAttempt (encodeDurableAttempt d) = .ok d := by
  refine (decodeDurableAttempt_eq_ok _ _).mpr ⟨⟨hnote, hd.view, ?_, ?_, ?_⟩, rfl⟩
  · exact fun hc => ⟨hd.hasAccount, hd.created hc⟩
  · intro _
    exact ⟨by simp [hd.incarnations], by simp [hd.fences], by simp [hd.ambiguous],
      by simp [hd.attemptWindow]⟩
  · intro habsent
    rw [hd.hasAccount] at habsent
    exact absurd habsent (by decide)

/-- A long note leaves the bytes of the account out of place; what is then read has no account
    image. -/
theorem decodeDurableAttempt_image {d d' : DurableAttempt} (hd : d.Written)
    (h : decodeDurableAttempt (encodeDurableAttempt d) = .ok d')
    (himage : d'.hasAccount = true) : d' = d := by
  by_cases hnote : d.request.note.length ≤ 4096
  · rw [decodeDurableAttempt_encode hd hnote, Except.ok.injEq] at h
    exact h.symm
  · obtain ⟨hwf, hbytes⟩ := (decodeDurableAttempt_eq_ok _ _).mp h
    have hlen := congrArg List.length hbytes
    rw [encodeDurableAttempt, encodeDurableAttempt, encodeRequestBody_of_gt (by omega),
      encodeRequestBody_of_le hwf.note] at hlen
    simp only [hd.hasAccount, himage, if_true, List.length_append, length_encodeRequestHead,
      length_encodeOutcomeBody, ByteWriter.length_boolean, ByteWriter.length_u32,
      ByteWriter.length_u64, hd.length_account, length_encodeDurableAccount] at hlen
    omega

/-- In particular it creates none. -/
theorem decodeDurableAttempt_created {d d' : DurableAttempt} (hd : d.Written)
    (h : decodeDurableAttempt (encodeDurableAttempt d) = .ok d')
    (hc : d'.createdAccount = true) : d' = d :=
  decodeDurableAttempt_image hd h
    (((decodeDurableAttempt_eq_ok _ _).mp h).1.created hc).1

/-- What is read of a written attempt is the attempt, or has the default image and creates no
    account. -/
theorem decodeDurableAttempt_cases {d d' : DurableAttempt} (hd : d.Written)
    (h : decodeDurableAttempt (encodeDurableAttempt d) = .ok d') :
    d' = d ∨ d'.createdAccount = false ∧ d'.account = {} := by
  cases himage : d'.hasAccount with
  | true => exact .inl (decodeDurableAttempt_image hd h himage)
  | false =>
    have hwf := ((decodeDurableAttempt_eq_ok _ _).mp h).1
    refine .inr ⟨?_, hwf.absent himage⟩
    cases hc : d'.createdAccount with
    | false => rfl
    | true =>
      rw [(hwf.created hc).1] at himage
      exact absurd himage (by decide)

end CreditFabric
