import CreditFabric.Faults
import CreditFabric.Budget
import Mathlib.Data.List.Induction

namespace CreditFabric

/-!
# Acknowledged attempts on a failing disk

An engine over a file journal, any operation of which may fail.  A failed append latches the
engine, and a failed explicit snapshot does not.  If the rotation of a snapshot has cut the log
off and fails in its last flush, the engine goes on with a write offset behind the end of the
log, and the records it writes there are not read back.

* `Snapshotted.files`: what a snapshot leaves in the files, wherever it fails.
* `calls_guarded`: as long as no call is made with such an offset, the records of the
  acknowledged attempts are at the start of the log, or their effects are in the snapshot.
-/

namespace CreditEngine

open FileJournal

variable {J : Type} [Journal J]

/-- What an engine is asked for. -/
inductive Call where
  | apply (r : CreditRequest)
  | snapshot
deriving DecidableEq, Repr

/-- The engine one call leaves. -/
def call (e : CreditEngine J) : Call → CreditEngine J
  | .apply r => (e.apply r).2
  | .snapshot => e.snapshot.2

/-- The engine after a list of calls. -/
def calls (e : CreditEngine J) (cs : List Call) : CreditEngine J := cs.foldl call e

/-- The last call is made on the engine the others left. -/
theorem calls_concat (e : CreditEngine J) (cs : List Call) (c : Call) :
    e.calls (cs ++ [c]) = (e.calls cs).call c := by
  unfold calls
  rw [List.foldl_append]
  rfl

/-- The engine in which `persist_locked` takes the snapshot of a call: the decision is in the
    books, and both its records are in the log. -/
inductive Persists (e : CreditEngine J) (r : CreditRequest) : CreditEngine J → Prop
  | opened (h : Opens e r) :
      Persists e r ((e.opening r).afterDecision r (e.openOutcome r) (openedAccount e.limits r) true)
  | refused (a : AccountState) (s : Status) (a' : AccountState) (h : Admitted e r a)
      (hd : e.decision a r = .refuse s a') :
      Persists e r ((e.refusing r a').afterDecision r (refusalOutcome a r s a')
        (countRefused a' r.authority.incarnation) false)
  | applied (a : AccountState) (a' : AccountState) (h : Admitted e r a)
      (hd : e.decision a r = .proceed a') :
      Persists e r ((e.applying r a').afterDecision r (applicationOutcome a r a')
        (countCommitted a' r.authority.incarnation) false)

/-- The Attempt record of a request that was decided with the outcome. -/
def Records (t : JournalRecord) (r : CreditRequest) (o : CreditOutcome) : Prop :=
  t.kind = .attempt ∧ ∃ d : DurableAttempt, t.payload = encodeDurableAttempt d ∧
    d.request = r ∧ d.outcome = o

/-- The image was taken behind the commit of call `i`: by the call itself or a later one, with
    its decision in the books, or in a state behind it. -/
def Contained (e : CreditEngine J) (cs : List Call) (i : Nat) (image : SnapshotImage) : Prop :=
  (∃ k, i < k ∧ k ≤ cs.length ∧ image = (e.calls (cs.take k)).snapshotImage) ∨
    ∃ k r e', i ≤ k ∧ cs[k]? = some (.apply r) ∧ Persists (e.calls (cs.take k)) r e' ∧
      image = e'.snapshotImage

/-- The attempt of call `i` is in one of the records or contained in the snapshot. -/
def Survives (e : CreditEngine J) (cs : List Call) (i : Nat) (r : CreditRequest)
    (o : CreditOutcome) (snap : Option SnapshotImage) (recs : List JournalRecord) : Prop :=
  (∃ t ∈ recs, Records t r o) ∨ ∃ image, snap = some image ∧ Contained e cs i image

/-- Every call meets the condition in the state it is made in. -/
def EachOf (P : CreditEngine J → Call → Prop) (e : CreditEngine J) (cs : List Call) : Prop :=
  ∀ i c, cs[i]? = some c → P (e.calls (cs.take i)) c

/-- The write offset is in the log, and the Snapshot record of an explicit snapshot that fits
    the record limit also fits the length field. -/
def Ready (e : CreditEngine FileJournal) : Call → Prop
  | .apply _ => e.journal.writeOffset ≤ e.journal.log.length
  | .snapshot => e.journal.writeOffset ≤ e.journal.log.length ∧
      (imageBytes e.accounts + envelopeBytes ≤ e.journal.options.maxRecordBytes →
        imageBytes e.accounts + envelopeBytes < 2 ^ 32)

instance (e : CreditEngine FileJournal) : (c : Call) → Decidable (Ready e c)
  | .apply _ => inferInstanceAs (Decidable (_ ≤ _))
  | .snapshot => inferInstanceAs (Decidable (_ ∧ (_ → _)))

/-! ### Snapshots -/

/-- What a snapshot leaves in the files: the old image, behind a Snapshot record or not, or the
    new image with a log that was rotated or not. -/
inductive Imaged (e : CreditEngine FileJournal) (kept : List JournalRecord) :
    Status → FileJournal → Prop
  | unwritten {s : Status} {j : FileJournal} (hs : s.ok = false)
      (hsnapshot : j.snapshotFile = e.journal.snapshotFile) (kept' : List JournalRecord)
      (hkept : kept' = kept ∨ kept' = kept ++ [e.snapshotRecord] ∧
        imageBytes e.accounts + envelopeBytes ≤ e.journal.options.maxRecordBytes)
      (hstarts : Starts j (logBytes kept')) (hoffset : j.writeOffset = (logBytes kept').length) :
      Imaged e kept s j
  | written {s : Status} {j : FileJournal}
      (hsnapshot : HoldsSnapshot j.snapshotFile (some e.snapshotImage))
      (kept' : List JournalRecord)
      (hkept : kept' = [] ∨ s.ok = false ∧ kept' = kept ++ [e.snapshotRecord] ∧
        imageBytes e.accounts + envelopeBytes ≤ e.journal.options.maxRecordBytes)
      (hstarts : Starts j (logBytes kept'))
      (hoffset : j.log.length < j.writeOffset ∨ j.writeOffset = (logBytes kept').length) :
      Imaged e kept s j

/-- The files behind a snapshot, wherever it ends. -/
theorem Snapshotted.files {e e' : CreditEngine FileJournal} {s : Status} (h : Snapshotted e s e')
    {kept : List JournalRecord} (hstarts : Starts e.journal (logBytes kept))
    (hoffset : e.journal.writeOffset = (logBytes kept).length) :
    Imaged e kept s e'.journal ∧ e'.journal.options = e.journal.options := by
  have happend := append_starts hstarts hoffset e.snapshotRecord
  have hrecord : e.snapshotAppend.1.ok = true →
      Starts e.snapshotAppend.2 (logBytes (kept ++ [e.snapshotRecord])) ∧
        e.snapshotAppend.2.writeOffset = (logBytes (kept ++ [e.snapshotRecord])).length ∧
        imageBytes e.accounts + envelopeBytes ≤ e.journal.options.maxRecordBytes := by
    intro hok
    have hafter := happend.ok hok
    rw [← logBytes_concat, show e.snapshotRecord.payload.length = imageBytes e.accounts from
      length_encodeDurableState e] at hafter
    exact hafter
  have hwrite : WroteAt e.snapshotAppend.2 e.snapshotImage e.snapshotWrite.1 e.snapshotWrite.2 :=
    writeSnapshot_cases e.snapshotAppend.2 e.snapshotImage
  have hwritten : e.snapshotAppend.1.ok = true →
      Starts e.snapshotWrite.2 (logBytes (kept ++ [e.snapshotRecord])) := by
    intro hok
    obtain ⟨⟨rest, hfile⟩, -⟩ := hrecord hok
    exact ⟨rest, hwrite.file.trans hfile⟩
  have hrotated : e.snapshotAppend.1.ok = true → e.snapshotWrite.1.ok = true →
      Imaged e kept e.snapshotRotate.1 e.snapshotRotate.2 ∧
        e.snapshotRotate.2.options = e.journal.options := by
    intro ha hw
    obtain ⟨-, hmoved, hfits⟩ := hrecord ha
    obtain ⟨hsnapshot, hlimit⟩ := hwrite.ok hw
    have hholds : HoldsSnapshot e.snapshotWrite.2.snapshotFile (some e.snapshotImage) :=
      ⟨hsnapshot, fun s hs => by cases hs; exact hlimit⟩
    have hoptions := hwrite.options.trans happend.options
    have hrotate : RotatedAt e.snapshotWrite.2 e.snapshotRotate.1 e.snapshotRotate.2 := by
      have hlog := hwritten ha
      rw [logBytes] at hlog
      exact rotate_cases hlog.left e.nextJournalSequence
    generalize e.snapshotRotate = result at hrotate ⊢
    obtain ⟨s, j⟩ := result
    cases hrotate with
    | spared hs hkept hfile =>
      refine ⟨.written ?_ (kept ++ [e.snapshotRecord]) (.inr ⟨hs, rfl, hfits⟩) ?_ (.inr ?_),
        hkept.options.trans hoptions⟩
      · rw [hkept.snapshotFile]
        exact hholds
      · obtain ⟨rest, hrest⟩ := hwritten ha
        exact ⟨rest, hfile.trans hrest⟩
      · rw [hkept.writeOffset, hwrite.writeOffset, hmoved]
    | cut hs hkept hfile =>
      -- the log is its header, and the offset is behind the Snapshot record
      refine ⟨.written ?_ [] (.inl rfl) ⟨[], ?_⟩ (.inl ?_), hkept.options.trans hoptions⟩
      · rw [hkept.snapshotFile]
        exact hholds
      · rw [hfile, List.append_nil]
      · have hlog : j.log = logBytes [] := by
          unfold FileJournal.log
          rw [hfile]
          rfl
        rw [hlog, hkept.writeOffset, hwrite.writeOffset, hmoved, length_logBytes, length_logBytes,
          List.flatMap_append, List.length_append, List.flatMap_singleton, length_recordBytes]
        simp only [List.flatMap_nil, List.length_nil]
        omega
    | done hs hoptions' hsnapshot' hoffset' hfile =>
      refine ⟨.written ?_ [] (.inl rfl) ⟨[], ?_⟩ (.inr ?_), hoptions'.trans hoptions⟩
      · rw [hsnapshot']
        exact hholds
      · rw [hfile, List.append_nil]
      · rw [hoffset', length_logBytes]
        rfl
  cases h with
  | appendFailed h =>
    obtain ⟨hkept, hunmoved⟩ := happend.failed h
    exact ⟨.unwritten h happend.snapshotFile kept (.inl rfl) hkept hunmoved, happend.options⟩
  | writeFailed ha h =>
    obtain ⟨-, hmoved, hfits⟩ := hrecord ha
    refine ⟨.unwritten h ?_ (kept ++ [e.snapshotRecord]) (.inr ⟨rfl, hfits⟩) (hwritten ha) ?_, ?_⟩
    · exact (hwrite.failed h).trans happend.snapshotFile
    · exact hwrite.writeOffset.trans hmoved
    · exact hwrite.options.trans happend.options
  | rotateFailed ha hw h => exact hrotated ha hw
  | durable ha hw h =>
    obtain ⟨himaged, hoptions⟩ := hrotated ha hw
    refine ⟨?_, hoptions⟩
    cases himaged with
    | unwritten hs => exact absurd (hs.symm.trans h) (by decide)
    | written hsnapshot kept' hkept hstarts' hoffset' =>
      refine .written hsnapshot kept' (.inl (hkept.resolve_right fun hspared => ?_)) hstarts' hoffset'
      exact absurd (hspared.1.symm.trans h) (by decide)

/-! ### Decisions -/

/-- What journaling a decision leaves in the files: the old image with more records, or the image
    with the decision in the books. -/
inductive Filed (e : CreditEngine FileJournal) (r : CreditRequest) (o : CreditOutcome)
    (a : AccountState) (c : Bool) (kept : List JournalRecord) : Status → FileJournal → Prop
  | logged {s : Status} {j : FileJournal} (hsnapshot : j.snapshotFile = e.journal.snapshotFile)
      (kept' : List JournalRecord) (hkept : kept <+: kept') (hstarts : Starts j (logBytes kept'))
      (hreadable : Readable j.options kept')
      (hok : s.ok = true → e.attemptRecord r o a c ∈ kept' ∧
        j.writeOffset = (logBytes kept').length) : Filed e r o a c kept s j
  | imaged {s : Status} {j : FileJournal}
      (hsnapshot : HoldsSnapshot j.snapshotFile (some (e.afterDecision r o a c).snapshotImage))
      (kept' : List JournalRecord) (hstarts : Starts j (logBytes kept'))
      (hreadable : Readable j.options kept')
      (hok : s.ok = true →
        j.log.length < j.writeOffset ∨ j.writeOffset = (logBytes kept').length) :
      Filed e r o a c kept s j

/-- The files behind the journaling of a decision, wherever it ends. -/
theorem Persisted.files {e e' : CreditEngine FileJournal} {r : CreditRequest} {o : CreditOutcome}
    {a : AccountState} {c : Bool} {s : Status} (h : Persisted e r o a c s e')
    (hwritten : (e.durableAttempt r o a c).Written) {kept : List JournalRecord}
    (hstarts : Starts e.journal (logBytes kept))
    (hoffset : e.journal.writeOffset = (logBytes kept).length)
    (hreadable : Readable e.journal.options kept) : Filed e r o a c kept s e'.journal := by
  have hnote : noteBytes r ≤ 4100 := by
    unfold noteBytes
    split_ifs <;> omega
  -- the Intent
  have hintent := append_starts hstarts hoffset (e.intentRecord r)
  have hintentBytes : (e.intentRecord r).payload.length = intentBytes r :=
    length_encodeRequestMessage r
  have hbehind : (Journal.append e.journal (e.intentRecord r)).1.ok = true →
      Starts (e.intentJournal r) (logBytes (kept ++ [e.intentRecord r])) ∧
        (e.intentJournal r).writeOffset = (logBytes (kept ++ [e.intentRecord r])).length ∧
        Readable (e.intentJournal r).options (kept ++ [e.intentRecord r]) := by
    intro hi
    obtain ⟨hlog, hmoved, hfits⟩ := hintent.ok hi
    rw [← logBytes_concat] at hlog hmoved
    refine ⟨hlog, hmoved, ?_⟩
    rw [show (e.intentJournal r).options = e.journal.options from hintent.options]
    refine readable_concat hreadable ⟨hfits, ?_⟩ (show JournalRecordKind.intent ≠ .unknown by decide)
    rw [hintentBytes]
    unfold intentBytes envelopeBytes
    omega
  -- the Attempt
  have hattemptBytes : (e.attemptRecord r o a c).payload.length = attemptBytes r :=
    length_attemptPayload hwritten
  have hboth : (Journal.append e.journal (e.intentRecord r)).1.ok = true →
      (e.attemptAppend r o a c).1.ok = true →
      Starts (e.attemptAppend r o a c).2
          (logBytes (kept ++ [e.intentRecord r] ++ [e.attemptRecord r o a c])) ∧
        (e.attemptAppend r o a c).2.writeOffset =
          (logBytes (kept ++ [e.intentRecord r] ++ [e.attemptRecord r o a c])).length ∧
        Readable (e.attemptAppend r o a c).2.options
          (kept ++ [e.intentRecord r] ++ [e.attemptRecord r o a c]) ∧
        (e.attemptAppend r o a c).2.snapshotFile = e.journal.snapshotFile := by
    intro hi ha
    obtain ⟨hlog, hmoved, hread⟩ := hbehind hi
    have hattempt := append_starts hlog hmoved (e.attemptRecord r o a c)
    obtain ⟨hlog', hmoved', hfits⟩ := hattempt.ok ha
    rw [← logBytes_concat] at hlog' hmoved'
    refine ⟨hlog', hmoved', ?_, hattempt.snapshotFile.trans hintent.snapshotFile⟩
    rw [show (e.attemptAppend r o a c).2.options = (e.intentJournal r).options from
      hattempt.options]
    refine readable_concat hread ⟨hfits, ?_⟩ (show JournalRecordKind.attempt ≠ .unknown by decide)
    rw [hattemptBytes]
    unfold attemptBytes envelopeBytes
    omega
  have hpart : kept <+: kept ++ [e.intentRecord r] ++ [e.attemptRecord r o a c] :=
    (List.prefix_append _ _).trans (List.prefix_append _ _)
  cases h with
  | appendFailed h hs =>
    have hno : ¬ s.ok = true := by rw [hs]; decide
    cases h with
    | intentFailed h =>
      obtain ⟨hlog, -⟩ := hintent.failed h
      refine .logged hintent.snapshotFile kept List.prefix_rfl hlog ?_ fun hok => absurd hok hno
      rw [show (e.intentJournal r).options = e.journal.options from hintent.options]
      exact hreadable
    | attemptFailed hi h =>
      obtain ⟨hlog, hmoved, hread⟩ := hbehind hi
      have hattempt := append_starts hlog hmoved (e.attemptRecord r o a c)
      refine .logged (hattempt.snapshotFile.trans hintent.snapshotFile) _
        (List.prefix_append _ [e.intentRecord r]) (hattempt.failed h).1 ?_
        fun hok => absurd hok hno
      rw [show (e.attemptAppend r o a c).2.options = (e.intentJournal r).options from
        hattempt.options]
      exact hread
    | durable hi h => exact absurd rfl hno
  | kept hi h hrot =>
    obtain ⟨hlog, hmoved, hread, hsnapshot⟩ := hboth hi h
    exact .logged hsnapshot _ hpart hlog hread
      fun _ => ⟨List.mem_append_right _ List.mem_cons_self, hmoved⟩
  | rotated hi h hrot hsnap =>
    obtain ⟨hlog, hmoved, hread, hsnapshot⟩ := hboth hi h
    obtain ⟨himaged, hoptions⟩ := hsnap.files (e := e.afterDecision r o a c) hlog hmoved
    have hread' : Readable e'.journal.options
        (kept ++ [e.intentRecord r] ++ [e.attemptRecord r o a c]) := by
      rw [hoptions]
      exact hread
    cases himaged with
    | unwritten hs hsame kept' hkept hstarts' _ =>
      have hno : ¬ s.ok = true := by rw [hs]; decide
      refine .logged (hsame.trans hsnapshot) _ hpart ?_ hread' fun hok => absurd hok hno
      rcases hkept with rfl | ⟨rfl, -⟩
      · exact hstarts'
      · rw [logBytes_concat] at hstarts'
        exact hstarts'.left
    | written himage kept' hkept hstarts' hoffset' =>
      rcases hkept with rfl | ⟨hs, rfl, -⟩
      · exact .imaged himage [] hstarts' (fun t ht => absurd ht List.not_mem_nil) fun _ => hoffset'
      · have hno : ¬ s.ok = true := by rw [hs]; decide
        rw [logBytes_concat] at hstarts'
        exact .imaged himage _ hstarts'.left hread' fun hok => absurd hok hno

/-! ### Runs -/

/-- What the files hold after the calls: the log starts with records that are read back, the
    offset is behind them unless it is behind the log, and every acknowledged attempt survives. -/
structure Guarded (e : CreditEngine FileJournal) (cs : List Call) (snap : Option SnapshotImage)
    (kept : List JournalRecord) : Prop where
  starts : Starts (e.calls cs).journal (logBytes kept)
  readable : Readable (e.calls cs).journal.options kept
  snapshot : HoldsSnapshot (e.calls cs).journal.snapshotFile snap
  offset : (e.calls cs).journalFailed = false →
    (e.calls cs).journal.log.length < (e.calls cs).journal.writeOffset ∨
      (e.calls cs).journal.writeOffset = (logBytes kept).length
  acknowledged : ∀ i r, cs[i]? = some (.apply r) →
    ((e.calls (cs.take i)).apply r).1.applied = true →
    Survives e cs i r ((e.calls (cs.take i)).apply r).1 snap kept

section Concat

variable {e : CreditEngine J} {cs : List Call} {c : Call}

/-- An image stays behind the commits it was taken behind. -/
theorem Contained.concat {i : Nat} {image : SnapshotImage} (h : Contained e cs i image) :
    Contained e (cs ++ [c]) i image := by
  rcases h with ⟨k, hlow, hhigh, himage⟩ | ⟨k, r, e', hlow, hcall, hpersists, himage⟩
  · refine .inl ⟨k, hlow, ?_, ?_⟩
    · rw [List.length_append]
      omega
    · rw [List.take_append_of_le_length hhigh]
      exact himage
  · have hk : k < cs.length := (List.getElem?_eq_some_iff.mp hcall).1
    refine .inr ⟨k, r, e', hlow, ?_, ?_, himage⟩
    · rw [List.getElem?_append_left hk]
      exact hcall
    · rw [List.take_append_of_le_length hk.le]
      exact hpersists

/-- The attempts that were acknowledged before survive with the same image and more records. -/
theorem Survives.concat {i : Nat} {r : CreditRequest} {o : CreditOutcome}
    {snap : Option SnapshotImage} {kept kept' : List JournalRecord}
    (h : Survives e cs i r o snap kept) (hkept : kept ⊆ kept') :
    Survives e (cs ++ [c]) i r o snap kept' := by
  rcases h with ⟨t, ht, hrecords⟩ | ⟨image, hsnap, hcontained⟩
  · exact .inl ⟨t, hkept ht, hrecords⟩
  · exact .inr ⟨image, hsnap, hcontained.concat⟩

/-- What is to be shown of the attempts behind one more call. -/
theorem acknowledged_concat (e : CreditEngine J) (cs : List Call) (c : Call)
    (P : Nat → CreditRequest → CreditOutcome → Prop)
    (hold : ∀ i r, cs[i]? = some (.apply r) → ((e.calls (cs.take i)).apply r).1.applied = true →
      P i r ((e.calls (cs.take i)).apply r).1)
    (hnew : ∀ r, c = .apply r → ((e.calls cs).apply r).1.applied = true →
      P cs.length r ((e.calls cs).apply r).1)
    (i : Nat) (r : CreditRequest) (hcall : (cs ++ [c])[i]? = some (.apply r))
    (happlied : ((e.calls ((cs ++ [c]).take i)).apply r).1.applied = true) :
    P i r ((e.calls ((cs ++ [c]).take i)).apply r).1 := by
  by_cases hi : i < cs.length
  · rw [List.getElem?_append_left hi] at hcall
    rw [List.take_append_of_le_length hi.le] at happlied ⊢
    exact hold i r hcall happlied
  · have hlt := (List.getElem?_eq_some_iff.mp hcall).1
    rw [List.length_append, List.length_singleton] at hlt
    have hlast : i = cs.length := by omega
    rw [hlast, List.getElem?_concat_length, Option.some.injEq] at hcall
    rw [hlast, List.take_left] at happlied ⊢
    exact hnew r hcall happlied

end Concat

section Step

variable {e : CreditEngine FileJournal} {cs : List Call} {snap : Option SnapshotImage}
  {kept : List JournalRecord}

/-- A call that neither uses the journal nor is acknowledged. -/
theorem Guarded.unused (h : Guarded e cs snap kept) {c : Call}
    (hjournal : ((e.calls cs).call c).journal = (e.calls cs).journal)
    (hfailed : ((e.calls cs).call c).journalFailed = (e.calls cs).journalFailed)
    (hnone : ∀ r, c = .apply r → ((e.calls cs).apply r).1.applied = false) :
    Guarded e (cs ++ [c]) snap kept := by
  refine ⟨?_, ?_, ?_, ?_, ?_⟩
  · rw [calls_concat, hjournal]
    exact h.starts
  · rw [calls_concat, hjournal]
    exact h.readable
  · rw [calls_concat, hjournal]
    exact h.snapshot
  · rw [calls_concat, hjournal, hfailed]
    exact h.offset
  · refine acknowledged_concat e cs c (fun i r o => Survives e (cs ++ [c]) i r o snap kept) ?_ ?_
    · intro i r hcall happlied
      exact (h.acknowledged i r hcall happlied).concat (List.Subset.refl kept)
    · intro r hc happlied
      rw [hnone r hc] at happlied
      exact absurd happlied (by decide)

/-- An explicit snapshot. -/
theorem Guarded.snapshot_call (h : Guarded e cs snap kept)
    (hready : Ready (e.calls cs) .snapshot) :
    ∃ snap' kept', Guarded e (cs ++ [.snapshot]) snap' kept' := by
  have hnone : ∀ r, Call.snapshot = .apply r → ((e.calls cs).apply r).1.applied = false :=
    fun r hc => by cases hc
  -- an engine that refuses the call leaves the storage alone
  by_cases hrefused : (e.calls cs).recovered = false ∨ (e.calls cs).journalFailed = true
  · have hsame : (e.calls cs).call .snapshot = e.calls cs := by
      show (e.calls cs).snapshot.2 = _
      unfold CreditEngine.snapshot
      rcases hrefused with hrec | hfail
      · simp only [hrec, Bool.not_false, if_true]
      · cases (e.calls cs).recovered <;> simp [hfail]
    exact ⟨snap, kept, h.unused (by rw [hsame]) (by rw [hsame]) hnone⟩
  rw [not_or, Bool.not_eq_false, Bool.not_eq_true] at hrefused
  obtain ⟨hrec, hhealthy⟩ := hrefused
  have hcall : (e.calls cs).call .snapshot = (e.calls cs).snapshotLocked.2 := by
    show (e.calls cs).snapshot.2 = _
    unfold CreditEngine.snapshot
    simp only [hrec, hhealthy, Bool.not_true, Bool.false_eq_true, if_false]
  have hsnapshotted := snapshotLocked_snapshotted (e.calls cs)
  -- the journal writes where its last record ends
  obtain ⟨hlow, hwidth⟩ := hready
  have hoffset : (e.calls cs).journal.writeOffset = (logBytes kept).length :=
    (h.offset hhealthy).resolve_left (Nat.not_lt.mpr hlow)
  obtain ⟨himaged, hoptions⟩ := hsnapshotted.files h.starts hoffset
  rw [← hcall] at himaged hoptions
  have hrecord : imageBytes (e.calls cs).accounts + envelopeBytes ≤
      (e.calls cs).journal.options.maxRecordBytes →
      Readable ((e.calls cs).call .snapshot).journal.options
        (kept ++ [(e.calls cs).snapshotRecord]) := by
    intro hfits
    have hsize : (e.calls cs).snapshotRecord.payload.length = imageBytes (e.calls cs).accounts :=
      length_encodeDurableState (e.calls cs)
    rw [hoptions]
    refine readable_concat h.readable ⟨?_, ?_⟩ (show JournalRecordKind.snapshot ≠ .unknown by decide)
    · rw [hsize]
      exact hfits
    · rw [hsize]
      exact hwidth hfits
  -- the image was installed or it was not
  cases himaged with
  | unwritten hs hsame kept' hkept hstarts hoffset' =>
    refine ⟨snap, kept', ?_, ?_, ?_, ?_, ?_⟩
    · rw [calls_concat]
      exact hstarts
    · rw [calls_concat]
      rcases hkept with rfl | ⟨rfl, hfits⟩
      · rw [hoptions]
        exact h.readable
      · exact hrecord hfits
    · rw [calls_concat, hsame]
      exact h.snapshot
    · rw [calls_concat]
      exact fun _ => .inr hoffset'
    · refine acknowledged_concat e cs .snapshot
        (fun i r o => Survives e (cs ++ [.snapshot]) i r o snap kept') ?_ (fun r hc => by cases hc)
      intro i r hi happlied
      refine (h.acknowledged i r hi happlied).concat ?_
      rcases hkept with rfl | ⟨rfl, -⟩
      · exact List.Subset.refl kept'
      · exact List.subset_append_left _ _
  -- every acknowledged attempt is in the image
  | written himage kept' hkept hstarts hoffset' =>
    refine ⟨some (e.calls cs).snapshotImage, kept', ?_, ?_, ?_, ?_, ?_⟩
    · rw [calls_concat]
      exact hstarts
    · rw [calls_concat]
      rcases hkept with rfl | ⟨-, rfl, hfits⟩
      · exact fun t ht => absurd ht List.not_mem_nil
      · exact hrecord hfits
    · rw [calls_concat]
      exact himage
    · rw [calls_concat]
      exact fun _ => hoffset'
    · refine acknowledged_concat e cs .snapshot (fun i r o =>
        Survives e (cs ++ [.snapshot]) i r o (some (e.calls cs).snapshotImage) kept') ?_
        (fun r hc => by cases hc)
      intro i r hi _
      have hlt := (List.getElem?_eq_some_iff.mp hi).1
      refine .inr ⟨_, rfl, .inl ⟨cs.length, hlt, ?_, ?_⟩⟩
      · rw [List.length_append]
        omega
      · rw [List.take_left]

/-- A call that settles a decision. -/
theorem Guarded.settled (h : Guarded e cs snap kept) {r : CreditRequest}
    (hready : Ready (e.calls cs) (.apply r)) (hhealthy : (e.calls cs).journalFailed = false)
    {e₁ : CreditEngine FileJournal} {o : CreditOutcome} {a : AccountState} {c : Bool}
    {rollback publish : CreditEngine FileJournal → CreditEngine FileJournal}
    (hcall : (e.calls cs).apply r = e₁.settle r o a c rollback publish)
    (hjournal : e₁.journal = (e.calls cs).journal)
    (hrollback : ∀ e', (rollback e').journal = e'.journal)
    (hpublish : ∀ e', (publish e').journal = e'.journal)
    (hpersists : Persists (e.calls cs) r (e₁.afterDecision r o a c))
    (hwritten : (e₁.durableAttempt r o a c).Written) :
    ∃ snap' kept', Guarded e (cs ++ [.apply r]) snap' kept' := by
  have hoffset : e₁.journal.writeOffset = (logBytes kept).length := by
    rw [hjournal]
    exact (h.offset hhealthy).resolve_left (Nat.not_lt.mpr hready)
  have hfiled : Filed e₁ r o a c kept (e₁.persistLocked r o a c).1
      (e₁.persistLocked r o a c).2.journal := by
    refine (persistLocked_persisted e₁ r o a c).files hwritten ?_ hoffset ?_
    · rw [hjournal]
      exact h.starts
    · rw [hjournal]
      exact h.readable
  -- the journal, the latch and the acknowledgement behind the call
  obtain ⟨hafter, hlatch, hack⟩ :
      (e.calls (cs ++ [.apply r])).journal = (e₁.persistLocked r o a c).2.journal ∧
        ((e.calls (cs ++ [.apply r])).journalFailed = false →
          (e₁.persistLocked r o a c).1.ok = true) ∧
        (((e.calls cs).apply r).1.applied = true →
          (e₁.persistLocked r o a c).1.ok = true ∧ ((e.calls cs).apply r).1 = o) := by
    have hstate : e.calls (cs ++ [.apply r]) = ((e.calls cs).apply r).2 := calls_concat e cs _
    rw [hstate, hcall]
    cases hok : (e₁.persistLocked r o a c).1.ok with
    | false =>
      rw [settle_of_failed hok]
      refine ⟨hrollback _, fun hfalse => ?_, fun hfalse => ?_⟩
      · exact absurd (show true = false from hfalse) (by decide)
      · exact absurd (show false = true from hfalse) (by decide)
    | true =>
      rw [settle_of_ok hok]
      exact ⟨hpublish _, fun _ => rfl, fun _ => ⟨rfl, rfl⟩⟩
  cases hfiled with
  | logged hsame kept' hkept hstarts hreadable hok =>
    refine ⟨snap, kept', ?_, ?_, ?_, ?_, ?_⟩
    · rw [hafter]
      exact hstarts
    · rw [hafter]
      exact hreadable
    · rw [hafter, hsame, hjournal]
      exact h.snapshot
    · rw [hafter]
      exact fun hunlatched => .inr (hok (hlatch hunlatched)).2
    · refine acknowledged_concat e cs (.apply r)
        (fun i r' o' => Survives e (cs ++ [.apply r]) i r' o' snap kept') ?_ ?_
      · intro i r' hi happlied
        exact (h.acknowledged i r' hi happlied).concat hkept.subset
      · intro r' hc happlied
        cases hc
        obtain ⟨hpersisted, hsameOutcome⟩ := hack happlied
        refine .inl ⟨e₁.attemptRecord r o a c, (hok hpersisted).1, rfl,
          e₁.durableAttempt r o a c, rfl, rfl, ?_⟩
        rw [hsameOutcome]
        rfl
  | imaged himage kept' hstarts hreadable hok =>
    have hcontained : ∀ i, i ≤ cs.length →
        Contained e (cs ++ [.apply r]) i (e₁.afterDecision r o a c).snapshotImage := by
      intro i hi
      refine .inr ⟨cs.length, r, _, hi, List.getElem?_concat_length, ?_, rfl⟩
      rw [List.take_left]
      exact hpersists
    refine ⟨some (e₁.afterDecision r o a c).snapshotImage, kept', ?_, ?_, ?_, ?_, ?_⟩
    · rw [hafter]
      exact hstarts
    · rw [hafter]
      exact hreadable
    · rw [hafter]
      exact himage
    · rw [hafter]
      exact fun hunlatched => hok (hlatch hunlatched)
    · refine acknowledged_concat e cs (.apply r) (fun i r' o' => Survives e (cs ++ [.apply r]) i r' o'
        (some (e₁.afterDecision r o a c).snapshotImage) kept') ?_ ?_
      · intro i r' hi _
        exact .inr ⟨_, rfl, hcontained i (List.getElem?_eq_some_iff.mp hi).1.le⟩
      · intro r' hc _
        exact .inr ⟨_, rfl, hcontained cs.length le_rfl⟩

/-- **Step lemma.**  A call with the write offset in the log keeps every acknowledged attempt. -/
theorem Guarded.call (h : Guarded e cs snap kept) {c : Call} (hready : Ready (e.calls cs) c) :
    ∃ snap' kept', Guarded e (cs ++ [c]) snap' kept' := by
  -- only a decided request reaches the journal
  cases c with
  | snapshot => exact h.snapshot_call hready
  | apply r =>
    have hcase := apply_cases (e.calls cs) r
    generalize hresult : (e.calls cs).apply r = result at hcase
    have hstate : (e.calls cs).call (.apply r) = result.2 := congrArg Prod.snd hresult
    have houtcome : ∀ r', Call.apply r = .apply r' →
        ((e.calls cs).apply r').1.applied = result.1.applied := by
      intro r' hc
      cases hc
      rw [hresult]
    cases hcase with
    | answered o happlied hdup =>
      refine ⟨snap, kept, h.unused (by rw [hstate]) (by rw [hstate]) fun r' hc => ?_⟩
      rw [houtcome r' hc]
      exact happlied
    | absorbed a existing found placed =>
      refine ⟨snap, kept, h.unused (by rw [hstate]) (by rw [hstate]) fun r' hc => ?_⟩
      rw [houtcome r' hc]
      rfl
    | opened hopens =>
      simp only [settleOpen] at hresult
      refine h.settled hready hopens.healthy hresult rfl (fun _ => rfl) (fun _ => rfl)
        (.opened hopens) ?_
      exact durableAttempt_written _ r _ (quarantined_computeView _ _) fun _ => rfl
    | decided a hadmitted =>
      unfold settleDecision follow at hresult hstate houtcome
      cases hd : (e.calls cs).decision a r with
      | reject s a' =>
        rw [hd] at hstate houtcome
        refine ⟨snap, kept, h.unused (by rw [hstate]; rfl) (by rw [hstate]; rfl) fun r' hc => ?_⟩
        rw [houtcome r' hc]
        rfl
      | refuse s a' =>
        simp only [hd, finishDecided] at hresult
        refine h.settled hready hadmitted.healthy hresult rfl (fun _ => rfl) (fun _ => rfl)
          (.refused a s a' hadmitted hd) ?_
        exact durableAttempt_written _ r _ (quarantined_computeView _ _)
          fun hc => absurd hc (by decide)
      | proceed a' =>
        simp only [hd, commitApplied] at hresult
        refine h.settled hready hadmitted.healthy hresult rfl (fun _ => rfl) (fun _ => rfl)
          (.applied a a' hadmitted hd) ?_
        exact durableAttempt_written _ r _ (quarantined_computeView _ _)
          fun hc => absurd hc (by decide)

end Step

/-- **Run lemma.**  Along calls that are all made with the write offset in the log, every
    acknowledged attempt survives. -/
theorem calls_guarded {e : CreditEngine FileJournal} {snap : Option SnapshotImage}
    {kept : List JournalRecord} (h : Guarded e [] snap kept) (cs : List Call)
    (hready : EachOf Ready e cs) : ∃ snap' kept', Guarded e cs snap' kept' := by
  induction cs using List.reverseRecOn with
  | nil => exact ⟨snap, kept, h⟩
  | append_singleton cs c ih =>
    have hbefore : EachOf Ready e cs := by
      intro i c' hi
      have hlt := (List.getElem?_eq_some_iff.mp hi).1
      have hlonger := hready i c' (by rw [List.getElem?_append_left hlt]; exact hi)
      rw [List.take_append_of_le_length hlt.le] at hlonger
      exact hlonger
    obtain ⟨snap', kept', hguarded⟩ := ih hbefore
    have hlast := hready cs.length c List.getElem?_concat_length
    rw [List.take_left] at hlast
    exact hguarded.call hlast

/-! ### From a new log -/

/-- An engine on a new log, whose operations fail as scheduled from now on. -/
def disrupted (limits : EngineLimits) (options : FileJournalOptions) (operator : Incarnation)
    (nonce : Digest128) (faults : List (Option Nat)) : CreditEngine FileJournal :=
  let e := boot limits (unused options) operator nonce
  { e with journal := { e.journal with faults } }

/-- A fresh engine over a disk with faults is guarded. -/
theorem disrupted_guarded (limits : EngineLimits) (options : FileJournalOptions)
    (operator : Incarnation) (nonce : Digest128) (faults : List (Option Nat)) :
    Guarded (disrupted limits options operator nonce faults) [] none [] := by
  have hsnap : HoldsSnapshot (unused options).snapshotFile none := ⟨rfl, by simp⟩
  obtain ⟨e, hrecover, -, -, -, -, hjournal⟩ :=
    recover_of_empty (e := make limits (unused options) operator nonce)
      (yields_absent (j := unused options) rfl rfl hsnap)
  have hboot : boot limits (unused options) operator nonce = e := congrArg Prod.snd hrecover
  have hstart : (disrupted limits options operator nonce faults).journal =
      { { unused options with file := some (logBytes []) }.replayed with faults } := by
    show { (boot limits (unused options) operator nonce).journal with faults } = _
    rw [hboot, hjournal]
  refine ⟨?_, fun t ht => absurd ht List.not_mem_nil, ?_, fun _ => .inr ?_, fun i r hi => ?_⟩
  · show Starts (disrupted limits options operator nonce faults).journal _
    rw [hstart]
    exact ⟨[], by rw [List.append_nil]; rfl⟩
  · show HoldsSnapshot (disrupted limits options operator nonce faults).journal.snapshotFile none
    rw [hstart]
    exact hsnap
  · show (disrupted limits options operator nonce faults).journal.writeOffset = _
    rw [hstart]
    rfl
  · exact absurd hi (by simp)

/-- The files after the failures have ended. -/
def repaired (j : FileJournal) : FileJournal := { j.restart with faults := [] }

/-- What a journal over the files finds: the snapshot, and the records of the log. -/
def Finds (j : FileJournal) (snap : Option SnapshotImage) (recs : List JournalRecord) : Prop :=
  ∃ j₁ j₂ j₃ j₄, j.open_ = (.success, j₁) ∧ j₁.readSnapshot = (.success, snap, j₂) ∧
    j₂.beginReplay = (.success, j₃) ∧ Reads j₃ recs j₄

/-- **Acknowledged attempts survive.**  The engine starts on a new log, and any of the file
    operations of its calls may fail.  As long as each call finds the write offset in the log,
    and each explicit snapshot has an image that the length field can hold, a restart without
    further failures finds every acknowledged attempt in a record or in the snapshot. -/
theorem acknowledged_survive (limits : EngineLimits) (options : FileJournalOptions)
    (operator : Incarnation) (nonce : Digest128) (faults : List (Option Nat)) (cs : List Call)
    (hready : EachOf Ready (disrupted limits options operator nonce faults) cs) :
    let e := disrupted limits options operator nonce faults
    ∃ snap recs, Finds (repaired (e.calls cs).journal) snap recs ∧
      ∀ i r, cs[i]? = some (.apply r) → ((e.calls (cs.take i)).apply r).1.applied = true →
        Survives e cs i r ((e.calls (cs.take i)).apply r).1 snap recs := by
  intro e
  obtain ⟨snap, kept, h⟩ :=
    calls_guarded (disrupted_guarded limits options operator nonce faults) cs hready
  obtain ⟨more, j₄, hreads⟩ := reads_starts (j := repaired (e.calls cs).journal) rfl h.starts
    h.readable
  obtain ⟨rest, hfile⟩ := h.starts
  rw [logBytes, List.append_assoc] at hfile
  refine ⟨snap, kept ++ more, ⟨(repaired (e.calls cs).journal).ready,
    (repaired (e.calls cs).journal).ready, _, j₄, ?_, ?_, rfl, hreads⟩, fun i r hi happlied => ?_⟩
  · exact (open_of_header (j := repaired (e.calls cs).journal) rfl hfile).trans (openAt_of_none rfl)
  · exact readSnapshot_of_holds (j := (repaired (e.calls cs).journal).ready) rfl h.snapshot
  · rcases h.acknowledged i r hi happlied with ⟨t, ht, hrecords⟩ | hcontained
    · exact .inl ⟨t, List.mem_append_left more ht, hrecords⟩
    · exact .inr hcontained

namespace StaleOffset

/-- A request of the fixture's incarnation. -/
def request : OpKind → UInt64 → CreditRequest := Fixture.request ⟨5, 5⟩ Fixture.me

/-- The operator opens an account, takes a snapshot and issues a credit. -/
def asked : List Call := [.apply (request .open_ 1), .snapshot, .apply (request .issue 2)]

/-- The eight operations of the Open succeed and fifteen of the snapshot; the last flush of its
    rotation fails. -/
def flushFails : List (Option Nat) := List.replicate 23 none ++ [some 0]

/-- An engine over a disk with these faults. -/
def start (faults : List (Option Nat)) : CreditEngine FileJournal :=
  disrupted {} {} Fixture.me ⟨5, 5⟩ faults

/-- A persisted call takes two sequence numbers. -/
private theorem persists_sequence {e e' : CreditEngine J} {r : CreditRequest}
    (h : Persists e r e') :
    e'.nextJournalSequence = e.nextJournalSequence + 1 + 1 := by
  cases h <;> rfl

set_option maxRecDepth 20000 in
/-- What a restart behind the failed snapshot finds: the image of the third sequence, and no record
    behind it. -/
theorem evaluated_lost :
    (((start flushFails).calls (asked.take 2)).apply (request .issue 2)).1.applied = true ∧
    ((repaired ((start flushFails).calls asked).journal).open_.2.readSnapshot.2.1.map
      (·.sequence) = some 3 ∧
      (repaired ((start flushFails).calls
        asked).journal).open_.2.readSnapshot.2.2.beginReplay.2.nextRecord.2.1 = none) ∧
    ((start flushFails).calls (asked.take 3)).snapshotImage.sequence ≠ 3 ∧
      ((start flushFails).calls (asked.take 2)).nextJournalSequence + 1 + 1 ≠ 3 := by
  decide +kernel

/-- The snapshot fails, and the Issue behind it is acknowledged; a restart finds the snapshot of
    before the Issue and no record. -/
theorem acknowledged_lost :
    (((start flushFails).calls (asked.take 2)).apply (request .issue 2)).1.applied = true ∧
      ¬ ∃ snap recs, Finds (repaired ((start flushFails).calls asked).journal) snap recs ∧
        Survives (start flushFails) asked 2 (request .issue 2)
          (((start flushFails).calls (asked.take 2)).apply (request .issue 2)).1 snap recs := by
  obtain ⟨happlied, ⟨hsequence, hnone⟩, hthird, hsecond⟩ := evaluated_lost
  refine ⟨happlied, ?_⟩
  rintro ⟨snap, recs, ⟨j₁, j₂, j₃, j₄, hopen, hread, hbegin, hreads⟩, hsurvives⟩
  rw [hopen] at hsequence hnone
  simp only at hsequence hnone
  rw [hread] at hsequence hnone
  simp only at hsequence hnone
  rw [hbegin] at hnone
  rcases hsurvives with ⟨t, ht, -⟩ | ⟨image, himage, hcontained⟩
  · -- the scan stops at the gap
    cases hreads with
    | done _ => exact absurd ht List.not_mem_nil
    | next hnext _ =>
      change j₃.nextRecord = _ at hnext
      rw [hnext] at hnone
      exact absurd hnone (by simp)
  · -- the image has the sequence of the failed snapshot
    rw [himage, Option.map_some, Option.some.injEq] at hsequence
    rcases hcontained with ⟨k, hlow, hhigh, htaken⟩ | ⟨k, r, e', hlow, hcall, hpersists, htaken⟩
    · have hk : k = 3 := by
        have hlen : asked.length = 3 := rfl
        omega
      rw [htaken, hk] at hsequence
      exact hthird hsequence
    · have hk : k = 2 := by
        have hlt := (List.getElem?_eq_some_iff.mp hcall).1
        have hlen : asked.length = 3 := rfl
        omega
      have hnext : e'.nextJournalSequence = 3 := by
        rw [htaken] at hsequence
        exact hsequence
      rw [persists_sequence hpersists, hk] at hnext
      exact hsecond hnext

/-- The truncation of the same rotation fails instead: the log stays, and so does the offset. -/
def cutFails : List (Option Nat) := List.replicate 22 none ++ [some 0]

/-- Each call finds its offset, the snapshot fails and the Issue is acknowledged. -/
theorem evaluated_kept :
    (Ready ((start cutFails).calls (asked.take 0)) (.apply (request .open_ 1)) ∧
      Ready ((start cutFails).calls (asked.take 1)) .snapshot ∧
      Ready ((start cutFails).calls (asked.take 2)) (.apply (request .issue 2))) ∧
    ((start cutFails).calls (asked.take 1)).snapshot.1.ok = false ∧
    (((start cutFails).calls (asked.take 2)).apply (request .issue 2)).1.applied = true := by
  decide +kernel

/-- The snapshot fails and the acknowledged Issue is still found. -/
theorem acknowledged_kept :
    ((start cutFails).calls (asked.take 1)).snapshot.1.ok = false ∧
      ∃ snap recs, Finds (repaired ((start cutFails).calls asked).journal) snap recs ∧
        Survives (start cutFails) asked 2 (request .issue 2)
          (((start cutFails).calls (asked.take 2)).apply (request .issue 2)).1 snap recs := by
  obtain ⟨⟨hready₀, hready₁, hready₂⟩, hfailed, happlied⟩ := evaluated_kept
  have hready : EachOf Ready (start cutFails) asked := by
    intro i c hi
    match i with
    | 0 => cases hi; exact hready₀
    | 1 => cases hi; exact hready₁
    | 2 => cases hi; exact hready₂
    | i + 3 => exact absurd hi (by simp [asked])
  refine ⟨hfailed, ?_⟩
  obtain ⟨snap, recs, hfinds, hall⟩ :=
    acknowledged_survive {} {} Fixture.me ⟨5, 5⟩ cutFails asked hready
  unfold start at happlied
  exact ⟨snap, recs, hfinds, hall 2 (request .issue 2) rfl happlied⟩

end StaleOffset

end CreditEngine

end CreditFabric
