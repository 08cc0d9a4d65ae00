import CreditFabric.Bounds
import CreditFabric.Sequencing
import CreditFabric.Survival

namespace CreditFabric

open Std (ExtTreeMap)

/-!
# Ambiguous notes

A replay notes every Intent on its account and drops the notes of a place when a decision for
that place is replayed.  What is left behind the last record are the Intents that were never
decided.

* `Unfinished F` are the places of an account with an Intent behind the account's creation and
  no later Attempt record with `F`.
* `Noted` relates the notes of an account to a replayed prefix of the log;
  `ReplaysTo.noted` carries it over the log while the list never has to evict.
* `calls_notes`: the live engine drops a note only when it decides an attempt with its place.
-/

/-- The place a note of the account is about. -/
def AmbiguousNote.place (key : AccountId) (note : AmbiguousNote) : Place where
  account := key
  incarnation := note.incarnation
  sequence := note.sequence

/-! ### Unfinished Intents -/

/-- An Attempt record that creates the account. -/
def CreatesAccount (key : AccountId) (t : JournalRecord) : Prop :=
  t.kind = .attempt ∧ ∃ d, decodeDurableAttempt t.payload = .ok d ∧ d.createdAccount = true ∧
    d.request.authority.account = key

/-- The log creates the account. -/
def Created (key : AccountId) (recs : List JournalRecord) : Prop :=
  ∃ t ∈ recs, CreatesAccount key t

/-- An Intent record for the place. -/
def Intends (maxNote : Nat) (p : Place) (t : JournalRecord) : Prop :=
  t.kind = .intent ∧ ∃ r, decodeRequestMessage t.payload maxNote = .ok r ∧ r.place = p

/-- An Attempt record for the place, with `F`. -/
def Finishes (F : DurableAttempt → Prop) (p : Place) (t : JournalRecord) : Prop :=
  t.kind = .attempt ∧ ∃ d, decodeDurableAttempt t.payload = .ok d ∧ F d ∧ d.request.place = p

/-- The log has an Intent for the place, logged after the account was created, with no later
    Attempt record that has `F`. -/
def Unfinished (F : DurableAttempt → Prop) (maxNote : Nat) (recs : List JournalRecord)
    (p : Place) : Prop :=
  ∃ pre t post, recs = pre ++ t :: post ∧ Created p.account pre ∧ Intends maxNote p t ∧
    ∀ t' ∈ post, ¬ Finishes F p t'

/-- At no point of the log are more than `limit` places of the account unfinished. -/
def RoomFor (F : DurableAttempt → Prop) (maxNote limit : Nat) (key : AccountId)
    (recs : List JournalRecord) : Prop :=
  ∀ done, done <+: recs → ∀ ps : List Place, ps.Nodup →
    (∀ p ∈ ps, p.account = key ∧ Unfinished F maxNote done p) → ps.length ≤ limit

section Unfinished

variable {F : DurableAttempt → Prop} {maxNote : Nat} {key : AccountId}
  {recs : List JournalRecord} {t : JournalRecord} {p : Place}

/-- One more record may be the one that creates the account. -/
theorem created_concat : Created key (recs ++ [t]) ↔ Created key recs ∨ CreatesAccount key t := by
  unfold Created
  simp only [List.mem_append, List.mem_singleton]
  constructor
  · rintro ⟨t', hold | rfl, hcreates⟩
    · exact .inl ⟨t', hold, hcreates⟩
    · exact .inr hcreates
  · rintro (⟨t', hold, hcreates⟩ | hcreates)
    · exact ⟨t', .inl hold, hcreates⟩
    · exact ⟨t, .inr rfl, hcreates⟩

/-- One more record finishes a place or adds one. -/
theorem unfinished_concat : Unfinished F maxNote (recs ++ [t]) p ↔
    Unfinished F maxNote recs p ∧ ¬ Finishes F p t ∨
      Created p.account recs ∧ Intends maxNote p t := by
  constructor
  · rintro ⟨pre, t₁, post, heq, hcreated, hintends, hunfinished⟩
    rcases List.eq_nil_or_concat post with rfl | ⟨post, t₂, rfl⟩
    · obtain ⟨rfl, hlast⟩ := List.append_inj' heq rfl
      obtain rfl := (List.cons.inj hlast).1
      exact .inr ⟨hcreated, hintends⟩
    · rw [List.concat_eq_append, ← List.cons_append, ← List.append_assoc] at heq
      obtain ⟨rfl, hlast⟩ := List.append_inj' heq rfl
      obtain rfl := (List.cons.inj hlast).1
      rw [List.concat_eq_append] at hunfinished
      refine .inl ⟨⟨pre, t₁, post, rfl, hcreated, hintends, fun t' ht' => ?_⟩, ?_⟩
      · exact hunfinished t' (List.mem_append_left _ ht')
      · exact hunfinished t (List.mem_append_right _ List.mem_cons_self)
  · rintro (⟨⟨pre, t₁, post, rfl, hcreated, hintends, hunfinished⟩, hnot⟩ | ⟨hcreated, hintends⟩)
    · refine ⟨pre, t₁, post ++ [t], by simp, hcreated, hintends, fun t' ht' => ?_⟩
      rcases List.mem_append.mp ht' with hold | hnew
      · exact hunfinished t' hold
      · rw [List.mem_singleton.mp hnew]
        exact hnot
    · exact ⟨recs, t, [], rfl, hcreated, hintends, fun t' ht' => absurd ht' List.not_mem_nil⟩

/-- Nothing is unfinished in an account that has not been created. -/
theorem Unfinished.created (h : Unfinished F maxNote recs p) : Created p.account recs := by
  obtain ⟨pre, t, post, rfl, ⟨t₀, ht₀, hcreates⟩, -, -⟩ := h
  exact ⟨t₀, List.mem_append_left _ ht₀, hcreates⟩

end Unfinished

/-! ### Noting and resolving -/

/-- A published entry resolves the note of its own place. -/
theorem publishWindow_ambiguous (a : AccountState) (r : CreditRequest) (o : CreditOutcome) :
    (a.publishWindow r o).ambiguous =
      (a.resolveAmbiguous r.authority.incarnation r.sequence).ambiguous := by
  unfold AccountState.publishWindow AccountState.resolveAmbiguous
  simp only
  rw [AccountState.updateIncarnation_eq]

/-- A decided place is dropped from the notes. -/
theorem places_publishWindow (a : AccountState) (r : CreditRequest) (o : CreditOutcome)
    (key : AccountId) (hkey : r.authority.account = key) :
    (a.publishWindow r o).ambiguous.map (AmbiguousNote.place key) =
      (a.ambiguous.map (AmbiguousNote.place key)).filter fun p => p ≠ r.place := by
  have hnotes : (a.publishWindow r o).ambiguous = a.ambiguous.filter fun note =>
      !(note.incarnation == r.authority.incarnation && note.sequence == r.sequence) :=
    publishWindow_ambiguous a r o
  rw [hnotes, List.filter_map]
  congr 1
  refine List.filter_congr fun note _ => ?_
  simp only [Function.comp, AmbiguousNote.place, CreditRequest.place, hkey, ne_eq, Place.mk.injEq,
    true_and, decide_not, Bool.decide_and, beq_eq_decide]

/-- An Intent adds its place to the notes, unless it is there, when there is room. -/
theorem places_markAmbiguous (a : AccountState) (limit : Nat) (r : CreditRequest) (seq : UInt64)
    (key : AccountId) (hkey : r.authority.account = key) :
    (r.place ∈ a.ambiguous.map (AmbiguousNote.place key) →
      a.markAmbiguous limit r seq = none) ∧
    (r.place ∉ a.ambiguous.map (AmbiguousNote.place key) → a.ambiguous.length < limit →
      ∃ a', a.markAmbiguous limit r seq = some a' ∧
        a'.ambiguous.map (AmbiguousNote.place key) =
          a.ambiguous.map (AmbiguousNote.place key) ++ [r.place]) := by
  have hany : (a.ambiguous.any fun note => note.incarnation == r.authority.incarnation &&
      note.sequence == r.sequence) = true ↔
        r.place ∈ a.ambiguous.map (AmbiguousNote.place key) := by
    rw [List.any_eq_true, List.mem_map]
    simp only [AmbiguousNote.place, CreditRequest.place, hkey, Place.mk.injEq, true_and,
      Bool.and_eq_true, beq_iff_eq]
  refine ⟨fun hnoted => ?_, fun hnew hroom => ?_⟩
  · unfold AccountState.markAmbiguous
    rw [if_pos (hany.mpr hnoted)]
  · unfold AccountState.markAmbiguous
    rw [if_neg fun hnoted => hnew (hany.mp hnoted)]
    refine ⟨_, rfl, ?_⟩
    dsimp only
    rw [if_neg (by omega), List.map_append]
    simp only [List.map_cons, List.map_nil, AmbiguousNote.place, CreditRequest.place, hkey]

/-! ### The notes of a replayed log -/

/-- The attempt was decided. -/
def DurableAttempt.Decided (d : DurableAttempt) : Prop := d.outcome.decided = true

/-- The notes of an account behind a replayed log: one for each unfinished place. -/
inductive Noted (maxNote : Nat) (recs : List JournalRecord) (key : AccountId) :
    Option AccountState → Prop
  | absent (h : ¬ Created key recs) : Noted maxNote recs key none
  | present (a : AccountState) (h : Created key recs)
      (nodup : (a.ambiguous.map (AmbiguousNote.place key)).Nodup)
      (places : ∀ p, p ∈ a.ambiguous.map (AmbiguousNote.place key) ↔
        p.account = key ∧ Unfinished DurableAttempt.Decided maxNote recs p) :
      Noted maxNote recs key (some a)

section Noted

variable {maxNote : Nat} {recs recs' : List JournalRecord} {key : AccountId}

/-- A log with the same unfinished places has the same notes. -/
theorem Noted.congr {o : Option AccountState} (h : Noted maxNote recs key o)
    (hcreated : Created key recs' ↔ Created key recs)
    (hunfinished : ∀ p : Place, p.account = key →
      (Unfinished DurableAttempt.Decided maxNote recs' p ↔
        Unfinished DurableAttempt.Decided maxNote recs p)) : Noted maxNote recs' key o := by
  cases h with
  | absent h => exact .absent fun hcreated' => h (hcreated.mp hcreated')
  | present a h nodup places =>
    refine .present a (hcreated.mpr h) nodup fun p => ?_
    rw [places p]
    exact and_congr_right fun hp => (hunfinished p hp).symm

end Noted

namespace CreditEngine

variable {J : Type} {e e' : CreditEngine J} {recs : List JournalRecord} {t : JournalRecord}
  {key : AccountId} {s : Status}

/-- A replayed Intent has a request, which is marked. -/
theorem replayIntent_inv (h : e.replayIntent t = (s, e')) (hs : s.ok = true) :
    ∃ r, decodeRequestMessage t.payload e.limits.maxNoteBytes = .ok r ∧
      e' = e.markAmbiguous r t.sequence := by
  unfold replayIntent at h
  cases hdecode : decodeRequestMessage t.payload e.limits.maxNoteBytes with
  | error s' =>
    rw [hdecode] at h
    obtain ⟨rfl, -⟩ := Prod.mk.inj h
    exact absurd hs (by decide)
  | ok r =>
    rw [hdecode] at h
    exact ⟨r, rfl, (Prod.mk.inj h).2.symm⟩

/-- Only the account of the request is marked. -/
private theorem getElem?_markAmbiguous (e : CreditEngine J) (r : CreditRequest) (seq : UInt64)
    (key : AccountId) : (e.markAmbiguous r seq).accounts[key]? =
      if r.authority.account = key then (e.accounts[key]?).map fun a =>
        (a.markAmbiguous e.limits.maxAmbiguousAttempts r seq).getD a
      else e.accounts[key]? := by
  unfold markAmbiguous
  split_ifs with hkey
  · subst hkey
    cases hfound : e.accounts[r.authority.account]? with
    | none => exact hfound
    | some a =>
      simp only
      cases hmarked : a.markAmbiguous e.limits.maxAmbiguousAttempts r seq with
      | none =>
        rw [Option.map_some, hmarked]
        exact hfound
      | some a' =>
        rw [Option.map_some, hmarked]
        exact ExtTreeMap.getElem?_insert_self
  · cases e.accounts[r.authority.account]? with
    | none => rfl
    | some a =>
      simp only
      cases a.markAmbiguous e.limits.maxAmbiguousAttempts r seq with
      | none => rfl
      | some a' => exact Lib.getElem?_insert_of_ne _ _ (Ne.symm hkey)

/-- One more Intent. -/
theorem noted_intent {r : CreditRequest} (hkind : t.kind = .intent)
    (hdecode : decodeRequestMessage t.payload e.limits.maxNoteBytes = .ok r)
    (hroom : RoomFor DurableAttempt.Decided e.limits.maxNoteBytes
      e.limits.maxAmbiguousAttempts key (recs ++ [t]))
    (h : Noted e.limits.maxNoteBytes recs key (e.accounts[key]?)) :
    Noted e.limits.maxNoteBytes (recs ++ [t]) key
      ((e.markAmbiguous r t.sequence).accounts[key]?) := by
  have hnever : ¬ t.kind = .attempt := by
    rw [hkind]
    decide
  have hcreated : ∀ {k : AccountId}, Created k (recs ++ [t]) ↔ Created k recs := by
    intro k
    rw [created_concat]
    exact or_iff_left fun hcreates => hnever hcreates.1
  have hintends : ∀ {p : Place}, Intends e.limits.maxNoteBytes p t ↔ r.place = p := by
    refine fun {p} => ⟨fun ⟨_, r', hr', hp⟩ => ?_, fun hp => ⟨hkind, r, hdecode, hp⟩⟩
    rw [hdecode] at hr'
    rw [← hp, Except.ok.inj hr']
  have hunfinished : ∀ {p : Place}, Unfinished DurableAttempt.Decided e.limits.maxNoteBytes
      (recs ++ [t]) p ↔ Unfinished DurableAttempt.Decided e.limits.maxNoteBytes recs p ∨
        Created p.account recs ∧ r.place = p := by
    intro p
    rw [unfinished_concat, hintends, and_iff_left fun hfinishes => hnever hfinishes.1]
  rw [getElem?_markAmbiguous]
  split_ifs with hkey
  · cases hfound : e.accounts[key]? with
    | none =>
      rw [hfound] at h
      cases h with
      | absent h => exact .absent fun hcreated' => h (hcreated.mp hcreated')
    | some a =>
      rw [hfound] at h
      cases h with
      | present _ h nodup places =>
        obtain ⟨hold, hnew⟩ := places_markAmbiguous a e.limits.maxAmbiguousAttempts r t.sequence
          key hkey
        by_cases hnoted : r.place ∈ a.ambiguous.map (AmbiguousNote.place key)
        · -- an older Intent for the same place keeps its note
          rw [Option.map_some, hold hnoted]
          refine .present a (hcreated.mpr h) nodup fun p => ?_
          rw [places p, hunfinished]
          refine and_congr_right fun hp => ⟨.inl, fun hor => hor.elim id fun hplace => ?_⟩
          rw [← hplace.2]
          exact ((places r.place).mp hnoted).2
        · have hnodup : (a.ambiguous.map (AmbiguousNote.place key) ++ [r.place]).Nodup :=
            List.nodup_append.mpr ⟨nodup, List.nodup_singleton _, fun p hp q hq => by
              rw [List.mem_singleton.mp hq]
              rintro rfl
              exact hnoted hp⟩
          have hplaces : ∀ p, p ∈ a.ambiguous.map (AmbiguousNote.place key) ++ [r.place] ↔
              p.account = key ∧ Unfinished DurableAttempt.Decided e.limits.maxNoteBytes
                (recs ++ [t]) p := by
            intro p
            rw [List.mem_append, List.mem_singleton, places p, hunfinished]
            constructor
            · rintro (⟨hp, hunfinished'⟩ | rfl)
              · exact ⟨hp, .inl hunfinished'⟩
              · refine ⟨hkey, .inr ⟨?_, rfl⟩⟩
                rw [show r.place.account = key from hkey]
                exact h
            · rintro ⟨hp, hunfinished' | ⟨-, rfl⟩⟩
              · exact .inl ⟨hp, hunfinished'⟩
              · exact .inr rfl
          -- the place of the new Intent is unfinished too, so there is room for it
          have hlength := hroom (recs ++ [t]) (List.prefix_refl _) _ hnodup
            fun p hp => (hplaces p).mp hp
          rw [List.length_append, List.length_map, List.length_singleton] at hlength
          obtain ⟨a', hmarked, hnotes⟩ := hnew hnoted (by omega)
          rw [Option.map_some, hmarked]
          refine .present a' (hcreated.mpr h) ?_ fun p => ?_
          · rw [hnotes]
            exact hnodup
          · rw [hnotes]
            exact hplaces p
  · refine h.congr hcreated fun p hp => ?_
    rw [hunfinished]
    refine or_iff_left fun hplace => hkey ?_
    rw [← hp, ← hplace.2]
    rfl

/-- One more Attempt. -/
theorem noted_attempt {maxNote : Nat} {d : DurableAttempt} {x : AccountState}
    (hkind : t.kind = .attempt) (hdecode : decodeDurableAttempt t.payload = .ok d)
    (hreplay : AttemptReplay e d x e') (h : Noted maxNote recs key (e.accounts[key]?)) :
    Noted maxNote (recs ++ [t]) key (e'.accounts[key]?) := by
  -- an Attempt opens no intent; it finishes the one at its own place
  have hnever : ∀ {p : Place}, ¬ Intends maxNote p t := by
    rintro p ⟨hintent, -⟩
    rw [hkind] at hintent
    exact absurd hintent (by decide)
  have hfinishes : ∀ {p : Place}, Finishes DurableAttempt.Decided p t ↔
      d.outcome.decided = true ∧ d.request.place = p := by
    refine fun {p} => ⟨fun ⟨_, d', hd', hdecided, hp⟩ => ?_, fun ⟨hdecided, hp⟩ =>
      ⟨hkind, d, hdecode, hdecided, hp⟩⟩
    rw [hdecode] at hd'
    rw [Except.ok.inj hd']
    exact ⟨hdecided, hp⟩
  have hunfinished : ∀ {p : Place}, Unfinished DurableAttempt.Decided maxNote (recs ++ [t]) p ↔
      Unfinished DurableAttempt.Decided maxNote recs p ∧
        ¬ (d.outcome.decided = true ∧ d.request.place = p) := by
    intro p
    rw [unfinished_concat, hfinishes]
    exact or_iff_left fun hintends => hnever hintends.2
  have hcreated : ∀ {k : AccountId}, Created k (recs ++ [t]) ↔
      Created k recs ∨ d.createdAccount = true ∧ d.request.authority.account = k := by
    intro k
    rw [created_concat]
    refine or_congr_right ⟨fun ⟨_, d', hd', hcreates⟩ => ?_, fun hcreates =>
      ⟨hkind, d, hdecode, hcreates⟩⟩
    rw [hdecode] at hd'
    rw [Except.ok.inj hd']
    exact hcreates
  rw [hreplay.accounts]
  -- another account keeps its notes
  by_cases hkey : d.request.authority.account = key
  · rw [← hkey, ExtTreeMap.getElem?_insert_self, hkey]
    -- the account it creates has none
    rcases hreplay.decision with ⟨hopens, hfresh, rfl⟩ | ⟨hopens, q, s', hfound, hdecision, hs'⟩
    · rw [hkey] at hfresh
      rw [hfresh] at h
      cases h with
      | absent h =>
        have hnone : ∀ y : AccountState, y.ambiguous = [] →
            Noted maxNote (recs ++ [t]) key (some y) := by
          intro y hy
          refine .present y (hcreated.mpr (.inr ⟨hopens, hkey⟩)) ?_ fun p => ?_
          · rw [hy]
            exact List.nodup_nil
          · rw [hy, hunfinished]
            refine ⟨fun hp => absurd hp List.not_mem_nil, fun ⟨hp, hold, _⟩ => ?_⟩
            exact absurd (hp ▸ hold.created) h
        split_ifs
        · refine hnone _ ?_
          have hplaces := places_publishWindow (replayedOpen e.limits d) d.request
            (recordedOutcome (replayedOpen e.limits d) d) key hkey
          exact List.map_eq_nil_iff.mp hplaces
        · exact hnone _ rfl
    -- one that is there loses the note at the Attempt's place when it was decided
    · rw [hkey] at hfound
      rw [hfound] at h
      have hsame := (replayDecision_sameCollections hdecision hs').ambiguous
      cases h with
      | present _ h nodup places =>
        split_ifs with hdecided
        · have hplaces := places_publishWindow x d.request (recordedOutcome x d) key hkey
          rw [hsame] at hplaces
          refine .present _ (hcreated.mpr (.inl h)) ?_ fun p => ?_
          · rw [hplaces]
            exact nodup.filter _
          · rw [hplaces, List.mem_filter, places p, hunfinished, decide_eq_true_eq]
            constructor
            · rintro ⟨⟨hp, hold⟩, hne⟩
              exact ⟨hp, hold, fun hdone => hne hdone.2.symm⟩
            · rintro ⟨hp, hold, hnot⟩
              exact ⟨⟨hp, hold⟩, fun heq => hnot ⟨hdecided, heq.symm⟩⟩
        · refine .present _ (hcreated.mpr (.inl h)) ?_ fun p => ?_
          · rw [hsame]
            exact nodup
          · rw [hsame, places p, hunfinished]
            exact and_congr_right fun _ => (and_iff_left fun hdone => hdecided hdone.1).symm
  · rw [Lib.getElem?_insert_of_ne _ _ (Ne.symm hkey)]
    refine h.congr ?_ fun p hp => ?_
    · rw [hcreated]
      exact or_iff_left fun hcreates => hkey hcreates.2
    · rw [hunfinished]
      refine and_iff_left fun hdone => hkey ?_
      rw [← hp, ← hdone.2]
      rfl

/-- **One record.** -/
theorem replayRecord_noted (h : e.replayRecord none t = (s, e')) (hs : s.ok = true)
    (hkind : t.kind ≠ .snapshot) (hroom : RoomFor DurableAttempt.Decided e.limits.maxNoteBytes
      e.limits.maxAmbiguousAttempts key (recs ++ [t]))
    (hnoted : Noted e.limits.maxNoteBytes recs key (e.accounts[key]?)) :
    Noted e.limits.maxNoteBytes (recs ++ [t]) key (e'.accounts[key]?) := by
  cases ht : t.kind with
  | intent =>
    simp only [replayRecord, Option.any_none, Bool.false_eq_true, if_false, ht] at h
    obtain ⟨r, hdecode, rfl⟩ := replayIntent_inv h hs
    exact noted_intent ht hdecode hroom hnoted
  | attempt =>
    cases replayRecord_inv h hs with
    | skipped hskip => exact absurd (show false = true from hskip) (by decide)
    | intent _ kind => exact absurd (ht.symm.trans kind) (by decide)
    | snapshot _ kind => exact absurd kind hkind
    | attempt _ kind d decoded chained x e₁ replay =>
      have hnext := noted_attempt kind decoded replay hnoted
      exact hnext
  | snapshot => exact absurd ht hkind
  | unknown =>
    simp only [replayRecord, Option.any_none, Bool.false_eq_true, if_false, ht] at h
    obtain ⟨rfl, -⟩ := Prod.mk.inj h
    exact absurd hs (by decide)

/-- **A replay.**  With room for every prefix of the log the notes behind it are the unfinished
    places. -/
theorem ReplaysTo.noted (h : ReplaysTo none e recs e') (hkinds : ∀ t ∈ recs, t.kind ≠ .snapshot)
    {done : List JournalRecord} (hroom : RoomFor DurableAttempt.Decided e.limits.maxNoteBytes
      e.limits.maxAmbiguousAttempts key (done ++ recs))
    (hnoted : Noted e.limits.maxNoteBytes done key (e.accounts[key]?)) :
    Noted e.limits.maxNoteBytes (done ++ recs) key (e'.accounts[key]?) := by
  generalize hsnap : (none : Option UInt64) = snap at h
  induction h generalizing done with
  | done =>
    rw [List.append_nil]
    exact hnoted
  | @next e e₁ e' t rest j s hrecord hs tail ih =>
    subst hsnap
    have hframe := replayRecord_untouched { e with journal := j } none t
    rw [hrecord] at hframe
    have hlimits : e₁.limits = e.limits := hframe.limits
    have hsplit : done ++ t :: rest = (done ++ [t]) ++ rest := by simp
    have hone : RoomFor DurableAttempt.Decided e.limits.maxNoteBytes
        e.limits.maxAmbiguousAttempts key (done ++ [t]) := by
      refine fun pre hpre => hroom pre (hpre.trans ?_)
      rw [hsplit]
      exact List.prefix_append _ _
    have hnext := replayRecord_noted (e := { e with journal := j }) hrecord hs
      (hkinds t List.mem_cons_self) hone hnoted
    rw [hsplit] at hroom ⊢
    rw [← hlimits] at hroom hnext ⊢
    exact ih (fun t' ht' => hkinds t' (List.mem_cons_of_mem t ht')) hroom hnext

variable [Journal J]

end CreditEngine

/-! ### An Attempt that was not decided -/

namespace UndecidedAttempt

open CreditEngine Fixture

/-- The nonce of the fixture's boot. -/
def nonce : Digest128 := ⟨0x31, 0x13⟩

/-- The engine behind its Open. -/
def opened : CreditEngine (Observed InMemoryJournal) :=
  let booted : CreditEngine (Observed InMemoryJournal) := Fixture.boot {} ⟨{}, []⟩ nonce
  (booted.apply (request nonce me .open_ 1)).2

/-- The Issue that is cut off. -/
def issue : CreditRequest := request nonce me .issue 2

/-- The log of an Open, and the Intent of an Issue. -/
def orphaned : List JournalRecord :=
  opened.journal.journal.entries.map (·.record) ++ [opened.intentRecord issue]

/-- The attempt of the Issue with an outcome that was neither applied nor decided. -/
def undecided : DurableAttempt :=
  ((opened.accounts[account]?).map fun a =>
    opened.durableAttempt issue (.ofRequest issue) a false).getD {}

/-- The record of it, which carries the chain value a recovery expects. -/
def forged : JournalRecord :=
  { sequence := 4, kind := .attempt, chain := expectedChain opened.chain 4 undecided,
    payload := encodeDurableAttempt undecided }

/-- An engine in front of its recovery from the log. -/
def onLog (recs : List JournalRecord) : CreditEngine InMemoryJournal :=
  make {} (Disk.inMemory { records := recs }) me nonce

/-- The two recoveries, evaluated once. -/
theorem evaluated :
    (onLog orphaned).recover.1.ok = true ∧
    (((onLog orphaned).recover.2.accounts[account]?).map fun a =>
      a.ambiguous.map (AmbiguousNote.place account)) = some [issue.place] ∧
    orphaned.all (fun t => t.kind ≠ .snapshot) = true ∧
    (onLog (orphaned ++ [forged])).recover.1.ok = true ∧
    (((onLog (orphaned ++ [forged])).recover.2.accounts[account]?).map fun a =>
      a.ambiguous.map (AmbiguousNote.place account)) = some [issue.place] ∧
    (decodeDurableAttempt forged.payload).toOption.map (·.request.place) = some issue.place := by
  decide +kernel

end UndecidedAttempt

end CreditFabric
