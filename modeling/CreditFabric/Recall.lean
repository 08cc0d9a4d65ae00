import CreditFabric.Identities
import CreditFabric.Rearrangement
import Mathlib.Data.List.DropRight
import Mathlib.Data.List.Forall2

namespace CreditFabric

open Std (ExtTreeMap)
open Lib (latest)

/-!
# The decisions of a log and the windows that recall them

The Attempt records of everything that was ever durable are the decisions that were taken, in
order (`Chronicle`).  A Snapshot record `covers` those in front of it: a recovery restores their
places, and no more.

* `AllRecall`: every account's window recalls the decisions on the account.
* `Disk.Recalling`: of a storage, whatever recovers from it recalls the decisions behind the
  last Snapshot record.  There is one lemma for each journal call.
-/

/-! ### Decisions on record -/

/-- The decision without its note, which the encoder leaves out when it is too long. -/
def DurableAttempt.noteless (d : DurableAttempt) : DurableAttempt :=
  { d with request := { d.request with note := [] } }

/-- A record without its note is still one that the engine writes. -/
theorem DurableAttempt.Written.noteless {d : DurableAttempt} (h : d.Written) :
    d.noteless.Written :=
  ⟨h.hasAccount, h.view, h.created, h.incarnations, h.fences, h.ambiguous, h.attemptWindow⟩

/-- It has no note. -/
theorem DurableAttempt.noteless_note (d : DurableAttempt) :
    d.noteless.request.note.length ≤ 4096 :=
  Nat.zero_le _

/-- A note that is too long is left out of the record. -/
theorem length_encodeDurableAttempt_of_gt {d : DurableAttempt} (hd : d.Written)
    (hnote : 4096 < d.request.note.length) : (encodeDurableAttempt d).length = 640 := by
  unfold encodeDurableAttempt
  simp only [hd.hasAccount, if_true, List.length_append, encodeRequestBody_of_gt hnote,
    length_encodeRequestHead, length_encodeOutcomeBody, ByteWriter.length_boolean,
    hd.length_account, ByteWriter.length_u64]

/-- The bytes behind the request of an attempt record. -/
def encodeAttemptTail (d : DurableAttempt) : List UInt8 :=
  encodeOutcomeBody d.outcome ++ ByteWriter.boolean d.hasAccount ++
    ByteWriter.boolean d.createdAccount ++
    (if d.hasAccount then encodeDurableAccount d.account else []) ++
    ByteWriter.u64 d.engineAppliedAttempts ++ ByteWriter.u64 d.engineRefusedAttempts

/-- A record is the request and a tail. -/
theorem encodeDurableAttempt_eq (d : DurableAttempt) :
    encodeDurableAttempt d = encodeRequestBody d.request ++ encodeAttemptTail d := by
  unfold encodeDurableAttempt encodeAttemptTail
  simp only [List.append_assoc]

/-- **What a record says.**  Written decisions with one encoding differ in their notes at
    most. -/
theorem noteless_of_encode_eq {d d' : DurableAttempt} (hd : d.Written) (hd' : d'.Written)
    (h : encodeDurableAttempt d = encodeDurableAttempt d') : d.noteless = d'.noteless := by
  have hlength := congrArg List.length h
  by_cases hnote : d.request.note.length ≤ 4096 <;>
    by_cases hnote' : d'.request.note.length ≤ 4096
  · have hback := decodeDurableAttempt_encode hd hnote
    rw [h, decodeDurableAttempt_encode hd' hnote', Except.ok.injEq] at hback
    rw [hback]
  · rw [length_encodeDurableAttempt hd hnote,
      length_encodeDurableAttempt_of_gt hd' (by omega)] at hlength
    omega
  · rw [length_encodeDurableAttempt_of_gt hd (by omega),
      length_encodeDurableAttempt hd' hnote'] at hlength
    omega
  · -- both notes are left out, so the heads and the tails agree
    rw [encodeDurableAttempt_eq, encodeDurableAttempt_eq, encodeRequestBody_of_gt (by omega),
      encodeRequestBody_of_gt (by omega)] at h
    obtain ⟨hhead, htail⟩ := List.append_inj h (by simp)
    have hsame : encodeDurableAttempt d.noteless = encodeDurableAttempt d'.noteless := by
      rw [encodeDurableAttempt_eq, encodeDurableAttempt_eq,
        encodeRequestBody_of_le d.noteless_note, encodeRequestBody_of_le d'.noteless_note]
      show encodeRequestHead d.request ++ _ ++ encodeAttemptTail d =
        encodeRequestHead d'.request ++ _ ++ encodeAttemptTail d'
      rw [hhead, htail]
      rfl
    have hback := decodeDurableAttempt_encode hd.noteless d.noteless_note
    rw [hsame, decodeDurableAttempt_encode hd'.noteless d'.noteless_note, Except.ok.injEq] at hback
    exact hback.symm

/-- The record is what the engine writes for the decision. -/
def Records (t : JournalRecord) (d : DurableAttempt) : Prop :=
  ∃ d₀ : DurableAttempt, d₀.Written ∧ t.payload = encodeDurableAttempt d₀ ∧ d₀.noteless = d

/-- A record stands for one attempt only. -/
theorem records_unique : Relator.RightUnique Records := by
  rintro t d d' ⟨d₀, hd₀, hpayload, rfl⟩ ⟨d₁, hd₁, hpayload', rfl⟩
  exact noteless_of_encode_eq hd₀ hd₁ (hpayload.symm.trans hpayload')

/-- The decisions of a log, in order. -/
def Chronicle (recs : List JournalRecord) (ds : List DurableAttempt) : Prop :=
  List.Forall₂ Records (attemptsOf recs) ds

section Chronicle

variable {recs : List JournalRecord} {ds : List DurableAttempt} {t : JournalRecord}

/-- No records, no decisions. -/
theorem chronicle_nil : Chronicle [] [] := .nil

/-- A log has one list of decisions. -/
theorem Chronicle.unique {ds' : List DurableAttempt} (h : Chronicle recs ds)
    (h' : Chronicle recs ds') : ds = ds' :=
  records_unique.forall₂ h h'

/-- A record of another kind decides nothing. -/
theorem Chronicle.skip (h : Chronicle recs ds) (hkind : t.kind ≠ .attempt) :
    Chronicle (recs ++ [t]) ds := by
  unfold Chronicle
  rw [attemptsOf_concat_of_ne hkind]
  exact h

/-- An Attempt is one more decision. -/
theorem Chronicle.concat (h : Chronicle recs ds) (hkind : t.kind = .attempt) {d : DurableAttempt}
    (hd : Records t d) : Chronicle (recs ++ [t]) (ds ++ [d]) := by
  unfold Chronicle
  rw [attemptsOf_concat hkind]
  exact List.rel_append h (.cons hd .nil)

end Chronicle

/-- The decisions on one account. -/
def decisionsOn (key : UInt64) (ds : List DurableAttempt) : List DurableAttempt :=
  ds.filter fun d => d.request.authority.account = key

/-- The place and the attempt of a decision. -/
def DurableAttempt.identity (d : DurableAttempt) : WindowKey × AttemptId :=
  ({ incarnation := d.request.authority.incarnation, sequence := d.request.sequence },
    d.request.attempt)

section DecisionsOn

variable {key : UInt64} {ds ds' : List DurableAttempt} {d : DurableAttempt}

/-- The decisions on an account in two lists. -/
theorem decisionsOn_append : decisionsOn key (ds ++ ds') =
    decisionsOn key ds ++ decisionsOn key ds' :=
  List.filter_append ..

/-- One more decision on the account. -/
theorem decisionsOn_concat (h : d.request.authority.account = key) :
    decisionsOn key (ds ++ [d]) = decisionsOn key ds ++ [d] := by
  rw [decisionsOn_append]
  unfold decisionsOn
  rw [List.filter_cons_of_pos (by simpa using h), List.filter_nil]

/-- A decision on another account. -/
theorem decisionsOn_concat_of_ne (h : d.request.authority.account ≠ key) :
    decisionsOn key (ds ++ [d]) = decisionsOn key ds := by
  rw [decisionsOn_append]
  unfold decisionsOn
  rw [List.filter_cons_of_neg (by simpa using h), List.filter_nil, List.append_nil]

end DecisionsOn

/-- No recent decision on the account has the attempt of the request. -/
def Novel (limit : Nat) (r : CreditRequest) (ds : List DurableAttempt) : Prop :=
  ∀ d ∈ latest limit (decisionsOn r.authority.account ds), d.request.attempt ≠ r.attempt

/-- The end of a history has fewer recent decisions. -/
theorem Novel.suffix {limit : Nat} {r : CreditRequest} {ds ds' : List DurableAttempt}
    (h : Novel limit r ds) (hsuffix : ds' <:+ ds) : Novel limit r ds' := by
  obtain ⟨front, rfl⟩ := hsuffix
  intro d hd
  refine h d ?_
  rw [decisionsOn_append]
  exact Lib.mem_latest_append hd

/-! ### Windows that recall decisions -/

/-- Every account's window recalls the decisions on the account, and there are none on an
    account that does not exist. -/
structure AllRecall (limit : Nat) (vague : Prop) (m : ExtTreeMap UInt64 AccountState)
    (ds : List DurableAttempt) : Prop where
  unknown : ∀ key : UInt64, m[key]? = none → decisionsOn key ds = []
  known : ∀ (key : UInt64) (a : AccountState), m[key]? = some a →
    AttemptWindow.Recalls limit vague a.window ((decisionsOn key ds).map DurableAttempt.identity)

section AllRecall

variable {limit : Nat} {vague : Prop} {m : ExtTreeMap UInt64 AccountState}
  {ds : List DurableAttempt} {key : UInt64}

/-- An account may change in everything but its window. -/
theorem AllRecall.replace (h : AllRecall limit vague m ds) {a x : AccountState}
    (ha : m[key]? = some a) (hx : x.window = a.window) :
    AllRecall limit vague (m.insert key x) ds := by
  refine ⟨fun key' hnone => ?_, fun key' y hy => ?_⟩
  · by_cases hkey : key' = key
    · rw [hkey, ExtTreeMap.getElem?_insert_self] at hnone
      exact absurd hnone (by simp)
    · rw [Lib.getElem?_insert_of_ne _ _ hkey] at hnone
      exact h.unknown key' hnone
  · by_cases hkey : key' = key
    · rw [hkey, ExtTreeMap.getElem?_insert_self, Option.some.injEq] at hy
      rw [hkey, ← hy, hx]
      exact h.known key a ha
    · rw [Lib.getElem?_insert_of_ne _ _ hkey] at hy
      exact h.known key' y hy

/-- **One decision.**  Its entry is inserted into the window that the account had, or into a
    new one. -/
theorem AllRecall.publish (h : AllRecall limit vague m ds) (hlimit : 1 ≤ limit)
    {w : AttemptWindow} (hrecalls : AttemptWindow.Recalls limit vague w
      ((decisionsOn key ds).map DurableAttempt.identity))
    (hindexed : w.Indexed) {r : CreditRequest} {o : CreditOutcome} (hkey : r.authority.account = key)
    (hfresh : (windowEntry r o).key ∉ w.order) (hnovel : Novel limit r ds) {d : DurableAttempt}
    (hd : d.request.authority = r.authority ∧ d.request.sequence = r.sequence ∧
      d.request.attempt = r.attempt) {x : AccountState}
    (hx : x.window = w.insert (windowEntry r o)) :
    AllRecall limit vague (m.insert key x) (ds ++ [d]) := by
  obtain ⟨hauthority, hsequence, hattempt⟩ := hd
  have haccount : d.request.authority.account = key := by rw [hauthority, hkey]
  have hidentity : d.identity = ((windowEntry r o).key, (windowEntry r o).attempt) := by
    unfold DurableAttempt.identity windowEntry
    rw [hauthority, hsequence, hattempt]
  refine ⟨fun key' hnone => ?_, fun key' y hy => ?_⟩
  · by_cases hsame : key' = key
    · rw [hsame, ExtTreeMap.getElem?_insert_self] at hnone
      exact absurd hnone (by simp)
    · rw [Lib.getElem?_insert_of_ne _ _ hsame] at hnone
      rw [decisionsOn_concat_of_ne (by rw [haccount]; exact fun heq => hsame heq.symm)]
      exact h.unknown key' hnone
  · by_cases hsame : key' = key
    · rw [hsame, ExtTreeMap.getElem?_insert_self, Option.some.injEq] at hy
      rw [hsame, ← hy, hx, decisionsOn_concat haccount, List.map_append, List.map_singleton,
        hidentity]
      refine hrecalls.insert hlimit hindexed hfresh fun y hy => ?_
      rw [Lib.latest_map] at hy
      obtain ⟨d', hd', rfl⟩ := List.mem_map.mp hy
      rw [← hkey] at hd'
      exact hnovel d' hd'
    · rw [Lib.getElem?_insert_of_ne _ _ hsame] at hy
      rw [decisionsOn_concat_of_ne (by rw [haccount]; exact fun heq => hsame heq.symm)]
      exact h.known key' y hy

/-- The accounts of a recovery without liveness. -/
theorem AllRecall.forgotten (h : AllRecall limit vague m ds) :
    AllRecall limit vague (m.map fun _ (a : AccountState) => a.forgetLiveness) ds := by
  refine ⟨fun key hnone => ?_, fun key x hx => ?_⟩
  · rw [ExtTreeMap.getElem?_map, Option.map_eq_none_iff] at hnone
    exact h.unknown key hnone
  · rw [ExtTreeMap.getElem?_map, Option.map_eq_some_iff] at hx
    obtain ⟨a, ha, rfl⟩ := hx
    exact h.known key a ha

end AllRecall

namespace CreditEngine

variable {J K : Type}

/-! ### What a storage recalls -/

/-- One replayed attempt, on accounts that reflect accounts on which its place is a new one. -/
theorem AttemptReplay.recalls {e e' : CreditEngine J} {d : DurableAttempt} {x : AccountState}
    (h : AttemptReplay e d x e') (hdecided : d.outcome.decided = true) {limit : Nat}
    {vague : Prop} {ds : List DurableAttempt} (hrecalls : AllRecall limit vague e.accounts ds)
    (hfits : e.limits.maxAttemptWindow = limit) (hlimit : 1 ≤ limit)
    {m : ExtTreeMap UInt64 AccountState} (hreflects : Reflects e.accounts m)
    (hahead : ∀ a p, m[d.request.authority.account]? = some a → Outline p a →
      (p.countersAt d.request.authority.incarnation).last.toNat < d.request.sequence.toNat)
    (hnovel : Novel limit d.request ds) :
    AllRecall limit vague e'.accounts (ds ++ [d.noteless]) := by
  rw [h.accounts, if_pos hdecided]
  rcases h.decision with ⟨-, hnone, rfl⟩ | ⟨-, p, s, hp, hdecision, hs⟩
  · have hnew : AttemptWindow.Recalls limit vague (.make limit)
        ((decisionsOn d.request.authority.account ds).map DurableAttempt.identity) := by
      rw [hrecalls.unknown _ hnone]
      exact AttemptWindow.recalls_make hlimit vague
    have hwindow := window_publishWindow (replayedOpen e.limits d) d.request
      (recordedOutcome (replayedOpen e.limits d) d)
    rw [show (replayedOpen e.limits d).window = .make limit by rw [← hfits]; rfl] at hwindow
    exact hrecalls.publish (d := d.noteless) hlimit hnew (AttemptWindow.make_indexed limit) rfl
      List.not_mem_nil hnovel ⟨rfl, rfl, rfl⟩ hwindow
  · obtain ⟨a, ha, hmirrored⟩ := hreflects.found hp
    have hwindow := window_publishWindow x d.request (recordedOutcome x d)
    rw [(replayDecision_sameCollections hdecision hs).window] at hwindow
    exact hrecalls.publish (d := d.noteless) hlimit (hrecalls.known _ p hp)
      hmirrored.windowed.indexed rfl
      (hmirrored.windowed.fresh (hahead a p ha hmirrored.shadow.toOutline)) hnovel
      ⟨rfl, rfl, rfl⟩ hwindow

/-- What a snapshot restores recalls no decision. -/
theorem allRecall_restored {e : CreditEngine J} (hstanding : AllStanding e.accounts)
    (hwindowed : AllWindowed e.accounts) {limits : EngineLimits}
    (hlimit : 1 ≤ limits.maxAttemptWindow) {vague : Prop} (hvague : vague) :
    AllRecall limits.maxAttemptWindow vague
      (restoredFrom limits ∅ e.durableState.accounts) [] := by
  refine ⟨fun _ _ => rfl, fun key x hx => ?_⟩
  rw [getElem?_restoredFrom hstanding limits key, Option.map_eq_some_iff] at hx
  obtain ⟨a, ha, rfl⟩ := hx
  refine AttemptWindow.recalls_restored hlimit hvague ?_
  show (a.window.identities.map placeKey).Nodup
  rw [show a.window.identities.map placeKey = a.window.order from ?_]
  · exact (hwindowed key a ha).indexed.nodup
  · unfold AttemptWindow.identities
    rw [List.map_map]
    exact List.map_id' a.window.order

/-- The records up to the last snapshot. -/
def covered (recs : List JournalRecord) : List JournalRecord :=
  recs.rdropWhile fun t => t.kind ≠ .snapshot

/-- A record of another kind covers nothing. -/
theorem covered_concat_of_ne {recs : List JournalRecord} {t : JournalRecord}
    (h : t.kind ≠ .snapshot) : covered (recs ++ [t]) = covered recs :=
  List.rdropWhile_concat_pos _ _ _ (by simpa using h)

/-- A Snapshot record covers all in front of it. -/
theorem covered_concat {recs : List JournalRecord} {t : JournalRecord}
    (h : t.kind = .snapshot) : covered (recs ++ [t]) = recs ++ [t] :=
  List.rdropWhile_concat_neg _ _ _ (by simpa using h)

/-- The decisions on the storage: those that a snapshot covers, and the recent ones behind it.
    Whatever recovers under the limit recalls the recent ones. -/
structure Retains (J : Type) (limit : Nat) (disk : Disk) (past recent : List DurableAttempt) :
    Prop where
  front : Chronicle (covered disk.written) past
  whole : Chronicle disk.written (past ++ recent)
  recalls : ∀ q : CreditEngine J, Recovers disk q → q.limits.maxAttemptWindow = limit →
    AllRecall limit (covered disk.written ≠ []) q.accounts recent

section Retains

variable {limit : Nat} {disk disk' : Disk} {past recent : List DurableAttempt}
  {t : JournalRecord}

/-- Nothing is recalled in front of the first record. -/
theorem Retains.empty : Retains J limit {} [] [] := by
  refine ⟨chronicle_nil, chronicle_nil, ?_⟩
  rintro q ⟨-, e₀, e₁, hloaded, hreplays⟩ -
  cases hloaded with
  | none =>
    cases hreplays with
    | done => exact ⟨fun _ _ => rfl, fun _ _ ha => absurd ha (by simp [reset])⟩

/-- **Intent.** -/
theorem Retains.intent (h : Retains J limit disk past recent) (happended : disk.Appended t disk')
    (hkind : t.kind = .intent) : Retains J limit disk' past recent := by
  have hnone : t.kind ≠ .snapshot := by
    rw [hkind]
    decide
  refine ⟨?_, ?_, fun q hq hfits => ?_⟩
  · rw [happended.written, covered_concat_of_ne hnone]
    exact h.front
  · rw [happended.written]
    exact h.whole.skip (by rw [hkind]; decide)
  · rw [happended.written, covered_concat_of_ne hnone]
    obtain ⟨e₁, e₂, j, he₁, hreplay, rfl, hlimits⟩ :=
      hq.concat happended.snapshot happended.records
    have hrecalls := h.recalls e₁ he₁ (by rw [← hlimits]; exact hfits)
    cases hreplay with
    | skipped => exact hrecalls
    | intent _ _ pending =>
      show AllRecall limit _ (e₁.markAmbiguous pending t.sequence).accounts recent
      rcases markAmbiguous_accounts e₁ pending t.sequence with
        hsame | ⟨p, q, hp, -, hwindow, hinsert⟩
      · rw [hsame]
        exact hrecalls
      · rw [hinsert]
        exact hrecalls.replace hp hwindow
    | snapshot _ kind => rw [hkind] at kind; exact absurd kind (by decide)
    | attempt _ kind => rw [hkind] at kind; exact absurd kind (by decide)

/-- **Attempt.**  One more recent decision. -/
theorem Retains.attempt (h : Retains J limit disk past recent)
    (happended : disk.Appended t disk') (hkind : t.kind = .attempt) (hlimit : 1 ≤ limit)
    {m : ExtTreeMap UInt64 AccountState} {n : Nat} (hdurable : Durable J disk m n)
    (hseq : n ≤ t.sequence.toNat) {d : DurableAttempt} (hwritten : d.Written)
    (hpayload : t.payload = encodeDurableAttempt d) (hdecided : d.outcome.decided = true)
    (hahead : ∀ a p, m[d.request.authority.account]? = some a → Outline p a →
      (p.countersAt d.request.authority.incarnation).last.toNat < d.request.sequence.toNat)
    (hnovel : Novel limit d.request recent) :
    Retains J limit disk' past (recent ++ [d.noteless]) := by
  have hnone : t.kind ≠ .snapshot := by
    rw [hkind]
    decide
  refine ⟨?_, ?_, fun q hq hfits => ?_⟩
  · rw [happended.written, covered_concat_of_ne hnone]
    exact h.front
  · rw [happended.written, ← List.append_assoc]
    exact h.whole.concat hkind ⟨d, hwritten, hpayload, rfl⟩
  · rw [happended.written, covered_concat_of_ne hnone]
    obtain ⟨e₁, e₂, j, he₁, hreplay, rfl, hlimits⟩ :=
      hq.concat happended.snapshot happended.records
    have hfits₁ : e₁.limits.maxAttemptWindow = limit := by rw [← hlimits]; exact hfits
    have hreflects := hdurable.reflects e₁ he₁
    cases hreplay with
    | skipped hskip =>
      rw [hdurable.behind.uncovered hseq] at hskip
      exact absurd hskip (by decide)
    | intent _ kind => rw [hkind] at kind; exact absurd kind (by decide)
    | snapshot _ kind => rw [hkind] at kind; exact absurd kind (by decide)
    | attempt _ _ d' decoded _ x e₃ replay =>
      rw [hpayload] at decoded
      rcases decodeDurableAttempt_cases hwritten decoded with rfl | ⟨hcreated, himage⟩
      · exact replay.recalls hdecided (h.recalls e₁ he₁ hfits₁) hfits₁ hlimit hreflects hahead
          hnovel
      · exact absurd himage (replay.has_image hreflects hcreated)

/-- What the snapshot of an engine restores recalls no decision, under the limit. -/
def Blank (limit : Nat) (s : DurableState) : Prop :=
  ∀ (vague : Prop) (limits : EngineLimits), vague → limits.maxAttemptWindow = limit →
    AllRecall limit vague (restoredFrom limits ∅ s.accounts) []

/-- **Snapshot record.**  It covers all decisions. -/
theorem Retains.snapshotted (h : Retains J limit disk past recent)
    (happended : disk.Appended t disk') (hkind : t.kind = .snapshot) {n : Nat}
    (hbehind : Behind disk n) (hseq : n ≤ t.sequence.toNat) {s : DurableState}
    (hpayload : t.payload = encodeDurableState s) (hs : Blank limit s) :
    Retains J limit disk' (past ++ recent) [] := by
  have hcovered : covered disk'.written = disk'.written := by
    rw [happended.written, covered_concat hkind]
  have hwhole : Chronicle disk'.written (past ++ recent) := by
    rw [happended.written]
    exact h.whole.skip (by rw [hkind]; decide)
  refine ⟨by rwa [hcovered], by rwa [List.append_nil], fun q hq hfits => ?_⟩
  have haddressable : t.payload.length < 2 ^ 64 := by
    refine hq.1.1 t ?_
    rw [happended.records]
    exact List.mem_append_right _ List.mem_cons_self
  have hvague : covered disk'.written ≠ [] := by
    rw [hcovered, happended.written]
    simp
  obtain ⟨e₁, e₂, j, he₁, hreplay, rfl, hlimits⟩ :=
    hq.concat happended.snapshot happended.records
  cases hreplay with
  | skipped hskip =>
    rw [hbehind.uncovered hseq] at hskip
    exact absurd hskip (by decide)
  | intent _ kind => rw [hkind] at kind; exact absurd kind (by decide)
  | attempt _ kind => rw [hkind] at kind; exact absurd kind (by decide)
  | snapshot _ _ restored decoded =>
    rw [hpayload] at decoded haddressable
    rw [decodeDurableState_of_encode haddressable decoded]
    exact hs _ e₁.limits hvague hfits

/-- **Snapshot file.**  The log behind it has no decision. -/
theorem Retains.of_image (h : Retains J limit disk past []) (hfront : covered disk.written ≠ [])
    (hwritten : disk'.written = disk.written) {image : SnapshotImage}
    (hsnapshot : disk'.snapshot = some image)
    (hcovered : ∀ t ∈ disk'.records, t.sequence ≤ image.sequence) {s : DurableState}
    (hpayload : image.payload = encodeDurableState s) (hs : Blank limit s) :
    Retains J limit disk' past [] := by
  refine ⟨by rw [hwritten]; exact h.front, by rw [hwritten]; exact h.whole, fun q hq hfits => ?_⟩
  obtain ⟨restored, haddressable, decoded, haccounts, -⟩ := hq.of_snapshot hsnapshot hcovered
  rw [hpayload] at decoded haddressable
  rw [haccounts, decodeDurableState_of_encode haddressable decoded, hwritten]
  exact hs _ q.limits hfront hfits

end Retains

end CreditEngine

end CreditFabric
