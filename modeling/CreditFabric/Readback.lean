import CreditFabric.Retry
import CreditFabric.Simulation

namespace CreditFabric

open Std (ExtTreeMap)

/-!
# Reading back what was journaled

The Intent and the Attempt of a committed call are read back by the two decoders of the
recovery as the request, the outcome and the account image, exactly when the note fits the 4096
bytes of the encoder.  The admission only knows the note bound of the engine's limits.
-/

/-- The image of an account in an Attempt record: no collections, and the digest given. -/
def AccountState.image (a : AccountState) (stateDigest : Digest128) : DurableAccount where
  config := a.config
  epoch := a.epoch
  generation := a.generation
  capacity := a.capacity
  totals := a.totals
  hardExhausted := a.hardExhausted
  exhaustionCause := a.exhaustionCause
  stateDigest := stateDigest
  committedAttempts := a.committedAttempts
  refusedAttempts := a.refusedAttempts

/-- The image of an account does not have its window. -/
theorem AccountState.image_publishWindow (a : AccountState) (r : CreditRequest)
    (o : CreditOutcome) (d : Digest128) : (a.publishWindow r o).image d = a.image d := by
  unfold image
  rw [AccountState.publishWindow_eq]

/-- Nor does it have the refusal log. -/
theorem AccountState.image_recordRefusal (a : AccountState) (maxRefusalLog : Nat)
    (r : CreditRequest) (o : CreditOutcome) (d : Digest128) :
    (a.recordRefusal maxRefusalLog r o).image d = a.image d := by
  unfold image
  rw [AccountState.recordRefusal_eq]

namespace CreditEngine

variable {J : Type} [Journal J]

/-- The journal call of a committed decision: the engine and the account it was made with, and
    the account that is live behind it. -/
structure JournaledAs (e : CreditEngine (Observed J)) (r : CreditRequest) (o : CreditOutcome)
    (e' e₀ : CreditEngine (Observed J)) (u : AccountState) (c : Bool) : Prop where
  valid : validateRequest e.limits r = none
  start : e₀.journal = e.journal
  persisted : (e₀.persistLocked r o u c).1.ok = true
  journal : e'.journal = (e₀.persistLocked r o u c).2.journal
  written : (e₀.durableAttempt r o u c).Written
  image : ∃ x, e'.accounts[r.authority.account]? = some x ∧
    u.buildDurable false = x.image o.stateDigest

/-- What was committed was journaled. -/
theorem Committed.journaledAs {e : CreditEngine (Observed J)} {r : CreditRequest}
    (h : Committed e r) :
    ∃ e₀ u c, JournaledAs e r (e.apply r).1 (e.apply r).2 e₀ u c := by
  obtain ⟨hdecided, events, t, s, hlog, hmem, -, -⟩ := h
  have hchanged : (e.apply r).2.journal.log ≠ e.journal.log := by
    intro hsame
    rw [hsame] at hlog
    have hnil : events = [] := by simpa using hlog
    rw [hnil] at hmem
    exact absurd hmem List.not_mem_nil
  have heffect := apply_effect e r
  generalize (e.apply r).1 = o at heffect hdecided ⊢
  generalize (e.apply r).2 = e' at heffect hchanged ⊢
  -- a call that journaled nothing committed nothing
  cases heffect with
  | answered => exact absurd rfl hchanged
  | absorbed => exact absurd rfl hchanged
  | rejected => exact absurd rfl hchanged
  -- of the three that journal, the account published is the one the record reads back as
  | opened hopens hok =>
    have hkey : (openedAccount e.limits r).account = r.authority.account := hopens.fresh.2
    refine ⟨e.opening r, openedAccount e.limits r, true, hopens.valid, rfl, hok, rfl,
      durableAttempt_written _ r _ (quarantined_computeView _ _) fun _ => rfl,
      (openedAccount e.limits r).publishWindow r (e.openOutcome r), ?_, ?_⟩
    · rw [← hkey]
      exact ExtTreeMap.getElem?_insert_self
    · exact (AccountState.image_publishWindow _ _ _ _).symm
  | refused a hadmitted s a' hd hok =>
    refine ⟨e.refusing r a', countRefused a' r.authority.incarnation, false, hadmitted.valid, rfl,
      hok, rfl, durableAttempt_written _ r _ (quarantined_computeView _ _) nofun, _,
      ExtTreeMap.getElem?_insert_self, ?_⟩
    rw [AccountState.image_recordRefusal, AccountState.image_publishWindow]
    rfl
  | applied a hadmitted a' hd hok =>
    refine ⟨e.applying r a', countCommitted a' r.authority.incarnation, false, hadmitted.valid,
      rfl, hok, rfl, durableAttempt_written _ r _ (quarantined_computeView _ _) fun _ => rfl, _,
      ExtTreeMap.getElem?_insert_self, ?_⟩
    exact (AccountState.image_publishWindow _ _ _ _).symm
  | failed _ _ _ hundecided =>
    rw [hundecided] at hdecided
    exact absurd hdecided (by decide)

/-- The two records that a committed call appended first, and what the decoders of the recovery
    make of them. -/
structure ReadsBack (e : CreditEngine (Observed J)) (r : CreditRequest) : Prop where
  journaled : ∃ intent attempt s₁ s₂ more, (e.apply r).2.journal.log =
      e.journal.log ++ .appended intent s₁ :: .appended attempt s₂ :: more ∧
    intent.kind = .intent ∧ s₁.ok = true ∧ attempt.kind = .attempt ∧ s₂.ok = true ∧
    (∀ t s, .appended t s ∈ more → t.kind = .snapshot) ∧
    decodeRequestMessage intent.payload e.limits.maxNoteBytes = .ok r ∧
    ∃ d x, decodeDurableAttempt attempt.payload = .ok d ∧ d.request = r ∧
      d.outcome = (e.apply r).1 ∧ (e.apply r).2.accounts[r.authority.account]? = some x ∧
      d.account = x.image (e.apply r).1.stateDigest

/-- A record that reads back has a note that the encoder takes. -/
theorem ReadsBack.note {e : CreditEngine (Observed J)} {r : CreditRequest} (h : ReadsBack e r) :
    r.note.length ≤ 4096 := by
  obtain ⟨_, _, _, _, _, _, _, _, _, _, _, _, d, _, hdecode, hrequest, _⟩ := h
  rw [← hrequest]
  exact ((decodeDurableAttempt_eq_ok _ _).mp hdecode).1.note

/-- **Readback.**  What a committed call has journaled is read back exactly when its note fits
    the encoder. -/
theorem committed_readsBack_iff (e : CreditEngine (Observed J)) (r : CreditRequest)
    (h : Committed e r) : ReadsBack e r ↔ r.note.length ≤ 4096 := by
  constructor
  · exact ReadsBack.note
  · intro hnote
    obtain ⟨e₀, u, c, hjournaled⟩ := h.journaledAs
    obtain ⟨events, hlog, htrace⟩ := persistLocked_trace e₀ r (e.apply r).1 u c
    obtain ⟨s₁, s₂, more, rfl, h₁, h₂, hmore⟩ := htrace.of_ok hjournaled.persisted
    obtain ⟨x, hx, himage⟩ := hjournaled.image
    refine ⟨e₀.intentRecord r, e₀.attemptRecord r (e.apply r).1 u c, s₁, s₂, more, ?_, rfl, h₁,
      rfl, h₂, hmore, ?_, e₀.durableAttempt r (e.apply r).1 u c, x, ?_, rfl, rfl, hx, himage⟩
    · rw [hjournaled.journal, hlog, hjournaled.start]
    · exact decodeRequestMessage_encode hnote (note_le_of_validateRequest hjournaled.valid)
    · exact decodeDurableAttempt_encode hjournaled.written hnote

/-! ### A long note -/

namespace LongNote

/-- An engine that admits notes of up to 8192 bytes. -/
def fresh : CreditEngine (Observed InMemoryJournal) :=
  Fixture.boot { maxNoteBytes := 8192 } ⟨{}, []⟩ ⟨4, 4⟩

/-- An Open with a note of a given length. -/
def opening (bytes : Nat) : CreditRequest :=
  { Fixture.request ⟨4, 4⟩ Fixture.me .open_ 1 with note := List.replicate bytes 0x2A }

/-- The Open is applied and journaled, and cannot be read back. -/
theorem longNote_unreadable :
    Committed fresh (opening 4097) ∧ ¬ ReadsBack fresh (opening 4097) := by
  refine ⟨committed_of_applied (by decide +kernel), fun h => ?_⟩
  have hnote := h.note
  rw [show (opening 4097).note.length = 4097 from List.length_replicate] at hnote
  omega

/-- A short note reads back. -/
theorem shortNote_readable : ReadsBack fresh (opening 16) :=
  (committed_readsBack_iff fresh (opening 16) (committed_of_applied (by decide +kernel))).mpr
    (by decide)

end LongNote

end CreditEngine

end CreditFabric
