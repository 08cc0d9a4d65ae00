import CreditFabric.Trace
import CreditFabric.Closure
import Mathlib.Data.List.Induction

namespace CreditFabric

open Std (ExtTreeMap)
open Lib Lib.Decoder

/-!
# Exactly-once decisions

Within one boot every place `(account, incarnation, sequence)` is decided at most once, in
order and without a gap.  The places are read off the Attempt records that were appended, at
their fixed position in the payload (`attemptPlace`), and compared with the watermarks and the
counters of the accounts (`run_exactlyOnce`).

* `SameCounters` says that a decision moves no counter; the bookkeeping behind it moves
  exactly one.
* `Bookkept` ties the counters of an account to those of its incarnations.
* `Sequenced` ties the watermarks to the journal.
-/

/-! ### Counters of an account -/

/-- The counters of one incarnation; all zero for one that is not known. -/
structure Counters where
  last : UInt64 := 0
  committed : UInt64 := 0
  refused : UInt64 := 0
deriving DecidableEq

/-- The three counters of a record. -/
def IncarnationRecord.counters (b : IncarnationRecord) : Counters where
  last := b.lastSequence
  committed := b.committedOps
  refused := b.refusedOps

/-- The counters an account keeps for an incarnation, zero where it has no record. -/
def AccountState.countersAt (a : AccountState) (i : IncarnationId) : Counters :=
  ((a.incarnations[i]?).map IncarnationRecord.counters).getD {}

/-- Read from the record, where there is one. -/
theorem AccountState.countersAt_of_some {a : AccountState} {i : IncarnationId}
    {b : IncarnationRecord} (h : a.incarnations[i]? = some b) : a.countersAt i = b.counters := by
  simp [countersAt, h]

/-- Zero, where there is none. -/
theorem AccountState.countersAt_of_none {a : AccountState} {i : IncarnationId}
    (h : a.incarnations[i]? = none) : a.countersAt i = {} := by
  simp [countersAt, h]

/-- The counters of `a'` are those of `a`: of the account, of every incarnation, and summed
    over the incarnations. -/
structure SameCounters (a a' : AccountState) : Prop where
  committed : a'.committedAttempts = a.committedAttempts
  refused : a'.refusedAttempts = a.refusedAttempts
  records : ∀ i, a'.countersAt i = a.countersAt i
  sums : ∀ f : Counters → Nat, f {} = 0 →
    sumValues (fun b : IncarnationRecord => f b.counters) a'.incarnations =
      sumValues (fun b : IncarnationRecord => f b.counters) a.incarnations

/-- Accounts with the same records count alike. -/
theorem SameCounters.of_incarnations {a a' : AccountState}
    (hi : a'.incarnations = a.incarnations) (hc : a'.committedAttempts = a.committedAttempts)
    (hr : a'.refusedAttempts = a.refusedAttempts) : SameCounters a a' where
  committed := hc
  refused := hr
  records i := by
    unfold AccountState.countersAt
    rw [hi]
  sums f _ := by rw [hi]

/-- Writing a record with the counters it had, or with none, moves no counter. -/
theorem SameCounters.setIncarnation {a : AccountState} {id : IncarnationId}
    {b : IncarnationRecord} (h : b.counters = a.countersAt id) :
    SameCounters a (a.setIncarnation id b) where
  committed := rfl
  refused := rfl
  records i := by
    by_cases hi : i = id
    · subst hi
      rw [AccountState.countersAt_of_some ExtTreeMap.getElem?_insert_self, h]
    · unfold AccountState.countersAt AccountState.setIncarnation
      simp only [getElem?_insert_of_ne _ _ hi]
  sums f hf := by
    refine sumValues_insert_eq _ _ ?_
    rw [h]
    unfold AccountState.countersAt
    cases a.incarnations[id]? with
    | none => exact hf
    | some c => rfl

/-- Liveness is no counter. -/
theorem counters_forgetLiveness (b : IncarnationRecord) :
    b.forgetLiveness.counters = b.counters := by
  unfold IncarnationRecord.forgetLiveness
  split_ifs <;> rfl

/-- A restart changes no counter of an account. -/
theorem SameCounters.forgetLiveness (a : AccountState) : SameCounters a a.forgetLiveness where
  committed := rfl
  refused := rfl
  records i := by
    unfold AccountState.countersAt AccountState.forgetLiveness
    simp only [ExtTreeMap.getElem?_map]
    cases a.incarnations[i]? with
    | none => rfl
    | some b =>
      simp only [Option.map_some, Option.getD_some]
      exact counters_forgetLiveness b
  sums f _ := by
    refine sumValues_map _ _ fun k b => ?_
    rw [counters_forgetLiveness]

/-- **Decisions move no counter.** -/
theorem decision_sameCounters {J : Type} (e : CreditEngine J) (a : AccountState)
    (r : CreditRequest) : SameCounters a (e.decision a r).account := by
  have hrefl : SameCounters a a := .of_incarnations rfl rfl rfl
  -- a record that is there keeps its counters, a new one has none
  have hgetD : ∀ (id : IncarnationId) (b : IncarnationRecord), b.counters = {} →
      ((a.incarnations[id]?).getD b).counters = a.countersAt id := by
    intro id b hb
    unfold AccountState.countersAt
    cases a.incarnations[id]? with
    | none => exact hb
    | some c => rfl
  have hbind : ∀ b, a.incarnations[r.authority.incarnation]? = some b →
      SameCounters a (a.setIncarnation r.authority.incarnation (bindIssue b r).1) := by
    intro b hb
    refine .setIncarnation ?_
    rw [AccountState.countersAt_of_some hb, bindIssue_eq]
    rfl
  rcases e.decision_cases a r with ⟨hcase, -⟩ | ⟨hcase, -⟩ | ⟨hcase, -⟩
  · generalize e.decision a r = d at hcase ⊢
    cases hcase with
    | leaked h s => exact .setIncarnation (AccountState.countersAt_of_none h.unknown).symm
    | advanced op plan h =>
      have hforget := SameCounters.forgetLiveness a
      exact ⟨hforget.committed, hforget.refused, hforget.records, hforget.sums⟩
    | fenced op target unfenced room budget =>
      have hset : SameCounters a (a.setIncarnation r.target
          { (a.incarnations[r.target]?).getD { id := r.target } with
            state := .fenced, fencedAtSequence := r.sequence }) :=
        .setIncarnation (hgetD r.target { id := r.target } rfl)
      exact ⟨hset.committed, hset.refused, hset.records, hset.sums⟩
    | retiredIncarnation op target b found state =>
      exact .setIncarnation (AccountState.countersAt_of_some found).symm
    | _ => exact ⟨hrefl.committed, hrefl.refused, hrefl.records, hrefl.sums⟩
  · generalize e.decision a r = d at hcase ⊢
    cases hcase with
    | rejected s => exact hrefl
    | reconciled proof => exact .setIncarnation (hgetD _ (freshRecord r) rfl)
  · generalize e.decision a r = d at hcase ⊢
    cases hcase with
    | rejected s => exact hrefl
    | refused s op => exact hrefl
    | refusedBound op hopen b found s h => exact hbind b found
    | issued op hopen b found bound h =>
      have hset := hbind b found
      exact ⟨hset.committed, hset.refused, hset.records, hset.sums⟩
    | applied op notIssue h => exact ⟨hrefl.committed, hrefl.refused, hrefl.records, hrefl.sums⟩

/-! ### The caller of a decision -/

/-- A decision that is carried through leaves the caller's record in the account. -/
theorem decision_caller_known {J : Type} {e : CreditEngine J} {r : CreditRequest}
    {a : AccountState} (h : CreditEngine.Admitted e r a)
    (hd : ∀ s a', e.decision a r ≠ .reject s a') :
    ∃ b, (e.decision a r).account.incarnations[r.authority.incarnation]? = some b := by
  have hbound := CreditEngine.bound_of_bindAuthority h.bound
  -- the caller's record is there, and whatever else is written leaves it there
  have hknown : r.op ≠ .reconcile → ∃ b, a.incarnations[r.authority.incarnation]? = some b :=
    fun hop => (CreditEngine.live_of_bindIncarnation hbound.incarnation hop).imp fun _ hb => hb.1
  have hset : ∀ id b, r.op ≠ .reconcile →
      ∃ c, (a.setIncarnation id b).incarnations[r.authority.incarnation]? = some c := by
    intro id b hop
    obtain ⟨c, hc⟩ := hknown hop
    by_cases hi : r.authority.incarnation = id
    · exact ⟨b, by rw [hi]; exact ExtTreeMap.getElem?_insert_self⟩
    · exact ⟨c, (getElem?_insert_of_ne _ _ hi).trans hc⟩
  rcases e.decision_cases a r with ⟨hcase, hop⟩ | ⟨hcase, -⟩ | ⟨hcase, -, hop⟩
  · have hne : r.op ≠ .reconcile := by
      intro heq
      rw [heq] at hop
      exact absurd hop (by decide)
    generalize e.decision a r = d at hcase hd ⊢
    cases hcase with
    | rejected s => exact absurd rfl (hd _ _)
    | leaked _ s => exact absurd rfl (hd _ _)
    | advanced op plan h =>
      obtain ⟨b, hb⟩ := hknown hne
      refine ⟨b.forgetLiveness, ?_⟩
      show (a.incarnations.map fun _ record => record.forgetLiveness)[_]? = _
      rw [ExtTreeMap.getElem?_map, hb]
      rfl
    | fenced op target unfenced room budget => exact hset _ _ hne
    | retiredIncarnation op target b found state => exact hset _ _ hne
    | _ => exact hknown hne
  · generalize e.decision a r = d at hcase hd ⊢
    cases hcase with
    | rejected s => exact absurd rfl (hd _ _)
    | reconciled proof => exact ⟨_, ExtTreeMap.getElem?_insert_self⟩
  · generalize e.decision a r = d at hcase hd ⊢
    cases hcase with
    | rejected s => exact absurd rfl (hd _ _)
    | refused s _ => exact hknown hop
    | refusedBound _ _ b found s _ => exact hset _ _ hop
    | issued _ _ b found bound _ => exact hset _ _ hop
    | applied _ _ _ => exact hknown hop

/-- A word above `w` and not above its successor is the successor. -/
theorem toNat_eq_succ {w v : UInt64} (hlow : ¬ v ≤ w) (hhigh : ¬ v > w + 1) :
    v.toNat = w.toNat + 1 := by
  have hv := v.toNat_lt
  have hone : (1 : UInt64).toNat = 1 := rfl
  rw [UInt64.le_iff_toNat_le] at hlow
  rw [gt_iff_lt, UInt64.lt_iff_toNat_lt, UInt64.toNat_add] at hhigh
  omega

/-- An admitted request takes the place behind the caller's watermark. -/
theorem sequence_of_admitted {a : AccountState} {r : CreditRequest}
    (h : placeInSequence a r = .admitted) :
    r.sequence.toNat = (a.countersAt r.authority.incarnation).last.toNat + 1 := by
  unfold placeInSequence at h
  cases hfind : a.window.find
      { incarnation := r.authority.incarnation, sequence := r.sequence } with
  | some existing =>
    simp only [hfind] at h
    split_ifs at h
  | none =>
    simp only [hfind, addOverflow, AccountState.findIncarnation] at h
    cases hb : a.incarnations[r.authority.incarnation]? with
    | none =>
      rw [AccountState.countersAt_of_none hb]
      simp only [hb] at h
      split_ifs at h with _ hlow _ hhigh
      exact toNat_eq_succ hlow hhigh
    | some b =>
      rw [AccountState.countersAt_of_some hb]
      simp only [hb] at h
      split_ifs at h with _ hlow _ hhigh
      exact toNat_eq_succ hlow hhigh

/-- A place at or below the watermark that the window does not know is never admitted. -/
theorem not_admitted_of_le {a : AccountState} {r : CreditRequest}
    (h : r.sequence.toNat ≤ (a.countersAt r.authority.incarnation).last.toNat) :
    placeInSequence a r ≠ .admitted := by
  intro hadmitted
  have hseq := sequence_of_admitted hadmitted
  omega

/-! ### Bookkeeping of an account -/

/-- The counters of an account that has decided at most `n` attempts. -/
structure Bookkept (n : Nat) (a : AccountState) : Prop where
  records : ∀ i, (a.countersAt i).last.toNat =
    (a.countersAt i).committed.toNat + (a.countersAt i).refused.toNat
  committed : a.committedAttempts.toNat =
    sumValues (fun b => b.committedOps.toNat) a.incarnations
  refused : a.refusedAttempts.toNat = sumValues (fun b => b.refusedOps.toNat) a.incarnations
  bounded : a.committedAttempts.toNat + a.refusedAttempts.toNat ≤ n

/-- A larger bound is met too. -/
theorem Bookkept.mono {n m : Nat} {a : AccountState} (h : Bookkept n a) (hle : n ≤ m) :
    Bookkept m a :=
  ⟨h.records, h.committed, h.refused, h.bounded.trans hle⟩

/-- The bound speaks of the counters only. -/
theorem Bookkept.same {n : Nat} {a a' : AccountState} (h : Bookkept n a)
    (hsame : SameCounters a a') : Bookkept n a' where
  records i := by
    rw [hsame.records i]
    exact h.records i
  committed := by
    have hsum := hsame.sums (fun c => c.committed.toNat) rfl
    rw [hsame.committed, h.committed]
    exact hsum.symm
  refused := by
    have hsum := hsame.sums (fun c => c.refused.toNat) rfl
    rw [hsame.refused, h.refused]
    exact hsum.symm
  bounded := by
    rw [hsame.committed, hsame.refused]
    exact h.bounded

/-- One decision more: `c` or `f` is one, the other zero. -/
theorem Bookkept.count {n c f : Nat} {a a' : AccountState} {caller : IncarnationId}
    {b b' : IncarnationRecord} (h : Bookkept n a) (found : a.incarnations[caller]? = some b)
    (hcf : c + f = 1) (hinc : a'.incarnations = a.incarnations.insert caller b')
    (hlast : b'.lastSequence.toNat = b.lastSequence.toNat + 1)
    (hops : b'.committedOps.toNat = b.committedOps.toNat + c)
    (hrops : b'.refusedOps.toNat = b.refusedOps.toNat + f)
    (hatt : a'.committedAttempts.toNat = a.committedAttempts.toNat + c)
    (hratt : a'.refusedAttempts.toNat = a.refusedAttempts.toNat + f) : Bookkept (n + 1) a' where
  records i := by
    -- the caller's record moves by one, and so do the sums over all of them
    by_cases hi : i = caller
    · have hget : a'.incarnations[i]? = some b' := by
        rw [hinc, hi]
        exact ExtTreeMap.getElem?_insert_self
      have hold := h.records caller
      rw [AccountState.countersAt_of_some found] at hold
      rw [AccountState.countersAt_of_some hget]
      simp only [IncarnationRecord.counters] at hold ⊢
      omega
    · have hsame : a'.countersAt i = a.countersAt i := by
        unfold AccountState.countersAt
        rw [hinc, getElem?_insert_of_ne _ _ hi]
      rw [hsame]
      exact h.records i
  committed := by
    have hsum := sumValues_insert (fun b => b.committedOps.toNat) a.incarnations b' found
    have hold := h.committed
    rw [hinc]
    omega
  refused := by
    have hsum := sumValues_insert (fun b => b.refusedOps.toNat) a.incarnations b' found
    have hold := h.refused
    rw [hinc]
    omega
  bounded := by
    have hold := h.bounded
    omega

/-- Below the last number the counter's step does not wrap. -/
theorem toNat_add_one {x : UInt64} (h : x.toNat + 1 < 2 ^ 64) : (x + 1).toNat = x.toNat + 1 := by
  rw [UInt64.toNat_add]
  exact Nat.mod_eq_of_lt h

/-- The records behind a published decision: the caller's has moved, by one counter and the
    watermark. -/
theorem incarnations_publishWindow {a : AccountState} {r : CreditRequest}
    {b : IncarnationRecord} (h : a.incarnations[r.authority.incarnation]? = some b)
    (o : CreditOutcome) : (a.publishWindow r o).incarnations =
      a.incarnations.insert r.authority.incarnation { b with lastSequence := r.sequence } := by
  show (AccountState.updateIncarnation _ _ _).incarnations = _
  refine AccountState.incarnations_updateIncarnation (b := b) ?_ _
  exact h

/-- The records after a committed application. -/
theorem incarnations_committed {a : AccountState} {r : CreditRequest} {b : IncarnationRecord}
    (h : a.incarnations[r.authority.incarnation]? = some b) (o : CreditOutcome) :
    ((countCommitted a r.authority.incarnation).publishWindow r o).incarnations =
      a.incarnations.insert r.authority.incarnation
        { b with committedOps := b.committedOps + 1, lastSequence := r.sequence } := by
  have hcount : (countCommitted a r.authority.incarnation).incarnations =
      a.incarnations.insert r.authority.incarnation
        { b with committedOps := b.committedOps + 1 } := by
    show (AccountState.updateIncarnation _ _ _).incarnations = _
    refine AccountState.incarnations_updateIncarnation (b := b) ?_ _
    exact h
  rw [incarnations_publishWindow (b := { b with committedOps := b.committedOps + 1 })
    (by rw [hcount]; exact ExtTreeMap.getElem?_insert_self), hcount, insert_insert_self]

/-- The records after a decided refusal. -/
theorem incarnations_refused {a : AccountState} {r : CreditRequest} {b : IncarnationRecord}
    (h : a.incarnations[r.authority.incarnation]? = some b) (o : CreditOutcome) (log : Nat) :
    (((countRefused a r.authority.incarnation).publishWindow r o).recordRefusal log r
        o).incarnations =
      a.incarnations.insert r.authority.incarnation
        { b with refusedOps := b.refusedOps + 1, lastSequence := r.sequence } := by
  have hcount : (countRefused a r.authority.incarnation).incarnations =
      a.incarnations.insert r.authority.incarnation
        { b with refusedOps := b.refusedOps + 1 } := by
    show (AccountState.updateIncarnation _ _ _).incarnations = _
    refine AccountState.incarnations_updateIncarnation (b := b) ?_ _
    exact h
  rw [AccountState.recordRefusal_eq]
  rw [incarnations_publishWindow (b := { b with refusedOps := b.refusedOps + 1 })
    (by rw [hcount]; exact ExtTreeMap.getElem?_insert_self), hcount, insert_insert_self]

/-! ### Places in the journal -/

/-- The place of a decision. -/
structure Place where
  account : AccountId := 0
  incarnation : IncarnationId := 0
  sequence : UInt64 := 0
deriving DecidableEq, Repr

/-- Where a request stands: its account, its incarnation, its sequence. -/
def CreditRequest.place (r : CreditRequest) : Place where
  account := r.authority.account
  incarnation := r.authority.incarnation
  sequence := r.sequence

/-- The fields of an Attempt record up to the caller's incarnation. -/
def readPlace : Decoder ByteReader Place := do
  let _attempt ← ByteReader.digest
  let _op ← ByteReader.u8
  let sequence ← ByteReader.u64
  let _domain ← ByteReader.u64
  let account ← ByteReader.u64
  let _epoch ← ByteReader.u64
  let _generation ← ByteReader.u64
  let incarnation ← ByteReader.u64
  pure { account, incarnation, sequence }

/-- The place an Attempt record carries, read off its payload. -/
def attemptPlace (payload : List UInt8) : Option Place :=
  match readPlace { rest := payload } with
  | .ok (place, _) => some place
  | .error _ => none

/-- Reading a place skips the fields around it. -/
private theorem readPlace_recognizes : readPlace.Recognizes (fun p u =>
    ∃ attempt op domain epoch generation, u = ByteWriter.digest attempt ++ ByteWriter.u8 op ++
      ByteWriter.u64 p.sequence ++ ByteWriter.u64 domain ++ ByteWriter.u64 p.account ++
      ByteWriter.u64 epoch ++ ByteWriter.u64 generation ++ ByteWriter.u64 p.incarnation) := by
  refine (ByteReader.recognizes_digest.bind fun _ => ByteReader.recognizes_u8.bind fun _ =>
    ByteReader.recognizes_u64.bind fun _ => ByteReader.recognizes_u64.bind fun _ =>
    ByteReader.recognizes_u64.bind fun _ => ByteReader.recognizes_u64.bind fun _ =>
    ByteReader.recognizes_u64.bind fun _ => ByteReader.recognizes_u64.bind fun _ =>
    recognizes_pure _).congr (fun p u => ?_)
  cases p
  constructor
  · rintro ⟨attempt, _, _, rfl, ⟨op, _, _, rfl, ⟨_, _, _, rfl, ⟨domain, _, _, rfl,
      ⟨_, _, _, rfl, ⟨epoch, _, _, rfl, ⟨generation, _, _, rfl, ⟨_, _, _, rfl, ⟨hp, rfl⟩,
      rfl⟩, rfl⟩, rfl⟩, rfl⟩, rfl⟩, rfl⟩, rfl⟩, rfl⟩
    simp only [Place.mk.injEq] at hp
    obtain ⟨rfl, rfl, rfl⟩ := hp
    exact ⟨attempt, op, domain, epoch, generation, by simp⟩
  · rintro ⟨attempt, op, domain, epoch, generation, rfl⟩
    exact ⟨attempt, _, _, rfl, ⟨op, _, _, rfl, ⟨_, _, _, rfl, ⟨domain, _, _, rfl,
      ⟨_, _, _, rfl, ⟨epoch, _, _, rfl, ⟨generation, _, _, rfl, ⟨_, _, [], rfl, ⟨rfl, rfl⟩,
      rfl⟩, rfl⟩, rfl⟩, rfl⟩, rfl⟩, rfl⟩, rfl⟩, by simp⟩

/-- The place of a journaled attempt is its request's. -/
theorem attemptPlace_encode (d : DurableAttempt) :
    attemptPlace (encodeDurableAttempt d) = some d.request.place := by
  obtain ⟨rest, hrest⟩ : ∃ rest, encodeDurableAttempt d =
      (ByteWriter.digest d.request.attempt ++ ByteWriter.u8 (UInt8.ofNat d.request.op.code) ++
        ByteWriter.u64 d.request.sequence ++ ByteWriter.u64 d.request.authority.domain ++
        ByteWriter.u64 d.request.authority.account ++
        ByteWriter.u64 d.request.authority.epoch ++
        ByteWriter.u64 d.request.authority.generation ++
        ByteWriter.u64 d.request.authority.incarnation) ++ rest := by
    simp only [encodeDurableAttempt, encodeRequestBody, encodeRequestHead, encodeAuthority,
      List.append_assoc]
    exact ⟨_, rfl⟩
  have hread := (readPlace_recognizes { rest := encodeDurableAttempt d } d.request.place
    { rest, position := 0 + _ }).mpr ⟨_, ⟨_, _, _, _, _, rfl⟩, hrest, rfl⟩
  unfold attemptPlace
  rw [hread]

/-- The place of a decision that the call made durable. -/
def JournalEvent.decidedPlace : JournalEvent → Option Place
  | .appended t s => if t.kind = .attempt ∧ s.ok = true then attemptPlace t.payload else none
  | _ => none

/-- The places decided so far, in order. -/
def decidedPlaces (log : List JournalEvent) : List Place := log.filterMap (·.decidedPlace)

/-- The sequence numbers decided for one incarnation of an account, in order. -/
def decidedSequences (log : List JournalEvent) (account : AccountId)
    (incarnation : IncarnationId) : List UInt64 :=
  ((decidedPlaces log).filter fun p =>
    p.account == account && p.incarnation == incarnation).map Place.sequence

/-- The decided places of two logs, one after the other. -/
theorem decidedPlaces_append (log events : List JournalEvent) :
    decidedPlaces (log ++ events) = decidedPlaces log ++ decidedPlaces events :=
  List.filterMap_append

namespace CreditEngine

variable {J : Type} [Journal J]

omit [Journal J] in
/-- A snapshot decides nothing. -/
theorem decidedPlaces_snapshot {e : CreditEngine (Observed J)} {s : Status}
    {events : List JournalEvent} (h : SnapshotTrace e s events) : decidedPlaces events = [] := by
  cases h <;> rfl

/-- A decision that is durable adds its place, and nothing else does. -/
theorem decidedPlaces_persistLocked {e : CreditEngine (Observed J)} {r : CreditRequest}
    {o : CreditOutcome} {a : AccountState} {c : Bool}
    (hok : (e.persistLocked r o a c).1.ok = true) :
    decidedPlaces (e.persistLocked r o a c).2.journal.log =
      decidedPlaces e.journal.log ++ [r.place] := by
  obtain ⟨events, hlog, htrace⟩ := persistLocked_trace e r o a c
  have hplace : attemptPlace (e.attemptRecord r o a c).payload = some r.place :=
    attemptPlace_encode (e.durableAttempt r o a c)
  have hattempt : ∀ s : Status, s.ok = true →
      (JournalEvent.appended (e.attemptRecord r o a c) s).decidedPlace = some r.place := by
    intro s hs
    simp only [JournalEvent.decidedPlace]
    rw [if_pos ⟨rfl, hs⟩, hplace]
  have hintent : ∀ s : Status,
      (JournalEvent.appended (e.intentRecord r) s).decidedPlace = none := fun s => rfl
  rw [hlog, decidedPlaces_append]
  generalize (e.persistLocked r o a c).1 = status at htrace hok
  cases htrace with
  | intentFailed s h => exact absurd hok (by rw [h]; decide)
  | attemptFailed s₁ s h₁ h => exact absurd hok (by rw [h]; decide)
  | kept s₁ s₂ h₁ h₂ => simp [decidedPlaces, hintent, hattempt s₂ h₂]
  | rotated s₁ s₂ s more h₁ h₂ hsnap =>
    have hmore := decidedPlaces_snapshot hsnap
    unfold decidedPlaces at hmore ⊢
    rw [List.filterMap_cons_none (hintent s₁), List.filterMap_cons_some (hattempt s₂ h₂), hmore]

/-! ### The invariant of a boot -/

/-- The watermark of an incarnation; zero when it or its account is not known. -/
def watermark (e : CreditEngine J) (account : AccountId) (incarnation : IncarnationId) :
    UInt64 :=
  ((e.accounts[account]?).map fun a => (a.countersAt incarnation).last).getD 0

/-- The state of a boot after at most `n` calls. -/
structure Sequenced (n : Nat) (e : CreditEngine (Observed J)) : Prop where
  accounts : ∀ (key : UInt64) (a : AccountState), e.accounts[key]? = some a → Bookkept n a
  decided : ∀ key i, (decidedSequences e.journal.log key i).map UInt64.toNat =
    List.range' 1 (e.watermark key i).toNat

section Invariant

variable {n : Nat} {e e' : CreditEngine (Observed J)} {r : CreditRequest} {b : AccountState}

omit [Journal J]

/-- One more call leaves room for the invariant. -/
theorem Sequenced.mono (h : Sequenced n e) : Sequenced (n + 1) e :=
  ⟨fun key a ha => (h.accounts key a ha).mono (Nat.le_succ n), h.decided⟩

/-- The watermark of an account that is there. -/
theorem watermark_of_found {key : UInt64} {a : AccountState} (h : e.accounts[key]? = some a)
    (i : IncarnationId) : e.watermark key i = (a.countersAt i).last := by
  simp [watermark, h]

/-- The watermarks after one account was put. -/
theorem watermark_insert {key : UInt64} (hacc : e'.accounts = e.accounts.insert key b)
    (key' : UInt64) (i : IncarnationId) :
    e'.watermark key' i = if key' = key then (b.countersAt i).last else e.watermark key' i := by
  unfold watermark
  rw [hacc]
  by_cases hkey : key' = key
  · rw [if_pos hkey, hkey, ExtTreeMap.getElem?_insert_self]
    rfl
  · rw [if_neg hkey, getElem?_insert_of_ne _ _ hkey]

/-- Every account stays bookkept when the one that was put is. -/
theorem accounts_insert (h : Sequenced n e) {key : UInt64}
    (hacc : e'.accounts = e.accounts.insert key b) (hb : Bookkept (n + 1) b) :
    ∀ (key' : UInt64) (a : AccountState), e'.accounts[key']? = some a → Bookkept (n + 1) a := by
  intro key' a ha
  rw [hacc] at ha
  by_cases hkey : key' = key
  · rw [hkey, ExtTreeMap.getElem?_insert_self] at ha
    rw [← Option.some.inj ha]
    exact hb
  · rw [getElem?_insert_of_ne _ _ hkey] at ha
    exact (h.accounts key' a ha).mono (Nat.le_succ n)

/-- A call that writes an account without moving a watermark and decides nothing. -/
theorem Sequenced.put (h : Sequenced n e) {key : UInt64}
    (hacc : e'.accounts = e.accounts.insert key b)
    (hlog : decidedPlaces e'.journal.log = decidedPlaces e.journal.log)
    (hb : Bookkept (n + 1) b) (hlast : ∀ i, (b.countersAt i).last = e.watermark key i) :
    Sequenced (n + 1) e' where
  accounts := accounts_insert h hacc hb
  decided key' i := by
    have hsame : e'.watermark key' i = e.watermark key' i := by
      rw [watermark_insert hacc]
      by_cases hkey : key' = key
      · rw [if_pos hkey, hlast, hkey]
      · rw [if_neg hkey]
    rw [hsame, ← h.decided key' i]
    unfold decidedSequences
    rw [hlog]

/-- A call that decides the place behind the caller's watermark. -/
theorem Sequenced.decide (h : Sequenced n e)
    (hacc : e'.accounts = e.accounts.insert r.authority.account b)
    (hlog : decidedPlaces e'.journal.log = decidedPlaces e.journal.log ++ [r.place])
    (hb : Bookkept (n + 1) b)
    (hcaller : (b.countersAt r.authority.incarnation).last = r.sequence)
    (hothers : ∀ i, i ≠ r.authority.incarnation →
      (b.countersAt i).last = e.watermark r.authority.account i)
    (hseq : r.sequence.toNat =
      (e.watermark r.authority.account r.authority.incarnation).toNat + 1) :
    Sequenced (n + 1) e' where
  accounts := accounts_insert h hacc hb
  decided key i := by
    have hold := h.decided key i
    unfold decidedSequences at hold ⊢
    rw [hlog, List.filter_append, List.map_append, List.map_append, hold, watermark_insert hacc]
    by_cases hplace : key = r.authority.account ∧ i = r.authority.incarnation
    · obtain ⟨rfl, rfl⟩ := hplace
      rw [if_pos rfl, hcaller, hseq, List.range'_1_concat]
      simp [CreditRequest.place, hseq, Nat.add_comm]
    · have hnone : ([r.place].filter fun p => p.account == key && p.incarnation == i) = [] := by
        rw [List.filter_eq_nil_iff]
        intro p hp hmatch
        rw [List.mem_singleton.mp hp] at hmatch
        simp only [CreditRequest.place, Bool.and_eq_true, beq_iff_eq] at hmatch
        exact hplace ⟨hmatch.1.symm, hmatch.2.symm⟩
      rw [hnone, List.map_nil, List.map_nil, List.append_nil]
      by_cases hkey : key = r.authority.account
      · rw [if_pos hkey, hothers i fun hi => hplace ⟨hkey, hi⟩, hkey]
      · rw [if_neg hkey]

end Invariant

/-! ### One call -/

omit [Journal J] in
/-- An accepted Open is its caller's first attempt. -/
theorem Opens.sequence {e : CreditEngine J} {r : CreditRequest} (h : Opens e r) :
    r.sequence = 1 := by
  have haccepted := h.accepted
  unfold validateOpen at haccepted
  simp only at haccepted
  split_ifs at haccepted with _ _ _ _ _ _ _ _ hseq
  exact not_not.mp hseq

/-- The account an Open leaves behind has decided one attempt, by the opener. -/
theorem opened_records (limits : EngineLimits) (r : CreditRequest) (o : CreditOutcome) :
    ∃ b : IncarnationRecord, b.counters = ⟨r.sequence, 1, 0⟩ ∧
      ((openedAccount limits r).publishWindow r o).incarnations =
        (∅ : ExtTreeMap UInt64 IncarnationRecord).insert r.authority.incarnation b := by
  let opener : IncarnationRecord :=
    { markReconciled (freshRecord r) r.authority.epoch r.authority.generation r.proof with
      committedOps := 1 }
  have hfound : (openedAccount limits r).incarnations[r.authority.incarnation]? = some opener :=
    ExtTreeMap.getElem?_insert_self
  refine ⟨{ opener with lastSequence := r.sequence }, rfl, ?_⟩
  rw [incarnations_publishWindow hfound]
  exact insert_insert_self _ _ _ _

/-- The account an Open creates. -/
theorem opened_bookkept {n : Nat} {a : AccountState} {b : IncarnationRecord} {id : IncarnationId}
    (hb : b.counters = ⟨1, 1, 0⟩)
    (hinc : a.incarnations = (∅ : ExtTreeMap UInt64 IncarnationRecord).insert id b)
    (hatt : a.committedAttempts = 1) (hratt : a.refusedAttempts = 0) : Bookkept (n + 1) a := by
  have hcommitted : b.committedOps = 1 := congrArg Counters.committed hb
  have hrefused : b.refusedOps = 0 := congrArg Counters.refused hb
  have hsum : ∀ f : IncarnationRecord → Nat, sumValues f a.incarnations = f b := by
    intro f
    rw [hinc, sumValues_insert_of_none _ _ _ (by simp), sumValues_empty, Nat.zero_add]
  refine ⟨fun i => ?_, ?_, ?_, ?_⟩
  · by_cases hi : i = id
    · have hget : a.incarnations[i]? = some b := by
        rw [hinc, hi]
        exact ExtTreeMap.getElem?_insert_self
      rw [AccountState.countersAt_of_some hget, hb]
      rfl
    · have hget : a.incarnations[i]? = none := by
        rw [hinc, getElem?_insert_of_ne _ _ hi]
        simp
      rw [AccountState.countersAt_of_none hget]
      rfl
  · rw [hatt, hsum, hcommitted]
  · rw [hratt, hsum, hrefused]
  · rw [hatt, hratt]
    show 1 + 0 ≤ n + 1
    omega

omit [Journal J] in
/-- A decided attempt of a known caller, published with `c` commits and `f` refusals more. -/
theorem decided_sequenced {n c f : Nat} {e e' : CreditEngine (Observed J)} {r : CreditRequest}
    {a a' b : AccountState} {rec rec' : IncarnationRecord} (h : Sequenced n e)
    (hadmitted : Admitted e r a) (hsame : SameCounters a a')
    (found : a'.incarnations[r.authority.incarnation]? = some rec) (hcf : c + f = 1)
    (hinc : b.incarnations = a'.incarnations.insert r.authority.incarnation rec')
    (hlast : rec'.lastSequence = r.sequence)
    (hops : rec'.committedOps.toNat = rec.committedOps.toNat + c)
    (hrops : rec'.refusedOps.toNat = rec.refusedOps.toNat + f)
    (hatt : b.committedAttempts.toNat = a'.committedAttempts.toNat + c)
    (hratt : b.refusedAttempts.toNat = a'.refusedAttempts.toNat + f)
    (hacc : e'.accounts = e.accounts.insert r.authority.account b)
    (hlog : decidedPlaces e'.journal.log = decidedPlaces e.journal.log ++ [r.place]) :
    Sequenced (n + 1) e' := by
  have hbook := (h.accounts _ _ hadmitted.found).same hsame
  have hwater := watermark_of_found hadmitted.found
  have hrec : rec.lastSequence = (a.countersAt r.authority.incarnation).last := by
    rw [← hsame.records, AccountState.countersAt_of_some found]
    rfl
  have hseq := sequence_of_admitted hadmitted.placed
  have hget : b.incarnations[r.authority.incarnation]? = some rec' := by
    rw [hinc]
    exact ExtTreeMap.getElem?_insert_self
  refine h.decide hacc hlog ?_ ?_ ?_ ?_
  · refine hbook.count found hcf hinc ?_ hops hrops hatt hratt
    rw [hlast, hrec]
    exact hseq
  · rw [AccountState.countersAt_of_some hget]
    exact hlast
  · intro i hi
    rw [hwater i, ← hsame.records i]
    unfold AccountState.countersAt
    rw [hinc, getElem?_insert_of_ne _ _ hi]
  · rw [hwater]
    exact hseq

/-- **Step lemma.**  A call that does not latch the engine decides at most one place, the one
    behind the caller's watermark. -/
theorem apply_sequenced {n : Nat} {e : CreditEngine (Observed J)} (h : Sequenced n e)
    (hn : n + 1 < 2 ^ 64) (r : CreditRequest) (hok : (e.apply r).2.journalFailed = false) :
    Sequenced (n + 1) (e.apply r).2 := by
  have heffect := apply_effect e r
  generalize (e.apply r).1 = o at heffect
  generalize (e.apply r).2 = e' at heffect hok ⊢
  cases heffect with
  | answered _ _ _ => exact h.mono
  | absorbed a existing _ _ => exact ⟨h.mono.accounts, h.decided⟩
  | rejected a hadmitted s a' hd =>
    have hsame : SameCounters a a' := by
      have hdecision := decision_sameCounters e a r
      rw [hd] at hdecision
      exact hdecision
    -- a rejected decision may change the account, not its counters
    refine h.put rfl rfl (((h.accounts _ _ hadmitted.found).same hsame).mono (Nat.le_succ n)) ?_
    intro i
    rw [hsame.records i, watermark_of_found hadmitted.found]
  -- the account is new: every incarnation's watermark was zero
  | opened hopens hpersist =>
    obtain ⟨hfresh, hkey⟩ := hopens.fresh
    obtain ⟨b, hb, hinc⟩ := opened_records e.limits r (e.openOutcome r)
    have hseq := hopens.sequence
    have hwater : ∀ i, e.watermark r.authority.account i = 0 := by
      intro i
      simp [watermark, hfresh]
    have hframe := persistLocked_frame (e.opening r) r (e.openOutcome r)
      (openedAccount e.limits r) true
    refine h.decide (b := (openedAccount e.limits r).publishWindow r (e.openOutcome r))
      ?_ (decidedPlaces_persistLocked hpersist) ?_ ?_ ?_ ?_
    · show ExtTreeMap.insert _ r.config.account _ = _
      rw [hframe.accounts, hkey]
      show (e.accounts.insert r.config.account _).insert _ _ = _
      rw [hkey, insert_insert_self]
    · rw [hseq] at hb
      exact opened_bookkept hb hinc (by rw [AccountState.publishWindow_eq]; rfl)
        (by rw [AccountState.publishWindow_eq]; rfl)
    · rw [AccountState.countersAt_of_some (b := b)
        (by rw [hinc]; exact ExtTreeMap.getElem?_insert_self), hb]
    · intro i hi
      rw [hwater, AccountState.countersAt_of_none]
      rw [hinc, getElem?_insert_of_ne _ _ hi]
      simp
    · rw [hwater, hseq]
      rfl
  -- a decided refusal takes the caller's next number
  | refused a hadmitted s a' hd hpersist =>
    obtain ⟨hsame, b, hb⟩ : SameCounters a a' ∧
        ∃ b, a'.incarnations[r.authority.incarnation]? = some b := by
      have hcounters := decision_sameCounters e a r
      have hknown := decision_caller_known hadmitted (by rw [hd]; simp)
      rw [hd] at hcounters hknown
      exact ⟨hcounters, hknown⟩
    have hbook := (h.accounts _ _ hadmitted.found).same hsame
    have hbound := hbook.bounded
    have hle := le_sumValues (fun b => b.refusedOps.toNat) a'.incarnations hb
    have hsum := hbook.refused
    have hframe := persistLocked_frame (e.refusing r a') r (refusalOutcome a r s a')
      (countRefused a' r.authority.incarnation) false
    refine decided_sequenced h hadmitted hsame hb (c := 0) (f := 1) rfl
      (incarnations_refused hb (refusalOutcome a r s a')
        ((e.refusing r a').persistLocked r (refusalOutcome a r s a')
          (countRefused a' r.authority.incarnation) false).2.limits.maxRefusalLog)
      rfl rfl (toNat_add_one (by omega))
      ?_ ?_ ?_ (decidedPlaces_persistLocked hpersist)
    · rw [AccountState.recordRefusal_eq, AccountState.publishWindow_eq, countRefused,
        AccountState.updateIncarnation_eq]
      rfl
    · rw [AccountState.recordRefusal_eq, AccountState.publishWindow_eq, countRefused,
        AccountState.updateIncarnation_eq]
      exact toNat_add_one (by omega)
    · show ExtTreeMap.insert _ r.authority.account _ = _
      rw [hframe.accounts]
      exact insert_insert_self _ _ _ _
  -- so does an application, and it is counted as committed
  | applied a hadmitted a' hd hpersist =>
    obtain ⟨hsame, b, hb⟩ : SameCounters a a' ∧
        ∃ b, a'.incarnations[r.authority.incarnation]? = some b := by
      have hcounters := decision_sameCounters e a r
      have hknown := decision_caller_known hadmitted (by rw [hd]; simp)
      rw [hd] at hcounters hknown
      exact ⟨hcounters, hknown⟩
    have hbook := (h.accounts _ _ hadmitted.found).same hsame
    have hbound := hbook.bounded
    have hle := le_sumValues (fun b => b.committedOps.toNat) a'.incarnations hb
    have hsum := hbook.committed
    have hframe := persistLocked_frame (e.applying r a') r (applicationOutcome a r a')
      (countCommitted a' r.authority.incarnation) false
    refine decided_sequenced h hadmitted hsame hb (c := 1) (f := 0) rfl
      (incarnations_committed hb (applicationOutcome a r a')) rfl (toNat_add_one (by omega)) rfl
      ?_ ?_ ?_ (decidedPlaces_persistLocked hpersist)
    · rw [AccountState.publishWindow_eq, countCommitted, AccountState.updateIncarnation_eq]
      exact toNat_add_one (by omega)
    · rw [AccountState.publishWindow_eq, countCommitted, AccountState.updateIncarnation_eq]
      rfl
    · show ExtTreeMap.insert _ r.authority.account _ = _
      rw [hframe.accounts]
      exact insert_insert_self _ _ _ _
  -- excluded: the journal of the run did not fail
  | failed o e' _ _ _ hlatched =>
    rw [hlatched] at hok
    exact absurd hok (by decide)

/-- A place that was decided is not decided again, once the window has forgotten it: the call
    leaves the engine as it is. -/
theorem Sequenced.evicted {n : Nat} {e : CreditEngine (Observed J)} (h : Sequenced n e)
    {r : CreditRequest} (hdecided : r.sequence ∈
      decidedSequences e.journal.log r.authority.account r.authority.incarnation)
    (hevicted : ∀ a, e.accounts[r.authority.account]? = some a →
      a.window.find { incarnation := r.authority.incarnation, sequence := r.sequence } = none) :
    (e.apply r).2 = e ∧ (e.apply r).1.applied = false := by
  have hle : r.sequence.toNat ≤
      (e.watermark r.authority.account r.authority.incarnation).toNat := by
    have hmem := List.mem_map_of_mem (f := UInt64.toNat) hdecided
    rw [h.decided, List.mem_range'_1] at hmem
    omega
  have hpositive : 1 ≤ r.sequence.toNat := by
    have hmem := List.mem_map_of_mem (f := UInt64.toNat) hdecided
    rw [h.decided, List.mem_range'_1] at hmem
    exact hmem.1
  have hnotAdmitted : ∀ a, ¬ Admitted e r a := by
    intro a hadmitted
    rw [watermark_of_found hadmitted.found] at hle
    exact not_admitted_of_le hle hadmitted.placed
  have hnotOpens : ¬ Opens e r := by
    intro hopens
    have hzero : (e.watermark r.authority.account r.authority.incarnation).toNat = 0 := by
      simp [watermark, hopens.fresh.1]
    omega
  have heffect := apply_effect e r
  generalize (e.apply r).1 = o at heffect ⊢
  generalize (e.apply r).2 = e' at heffect ⊢
  cases heffect with
  | answered o happlied _ => exact ⟨rfl, happlied⟩
  | absorbed a existing found placed =>
    unfold placeInSequence at placed
    simp only [hevicted a found] at placed
    split_ifs at placed
  | rejected a hadmitted _ _ _ => exact absurd hadmitted (hnotAdmitted a)
  | opened hopens _ => exact absurd hopens hnotOpens
  | refused a hadmitted _ _ _ _ => exact absurd hadmitted (hnotAdmitted a)
  | applied a hadmitted _ _ _ => exact absurd hadmitted (hnotAdmitted a)
  | failed _ _ hplaced _ _ _ =>
    exact absurd hplaced fun hor => hor.elim hnotOpens fun ⟨a, ha⟩ => hnotAdmitted a ha

/-! ### One boot -/

/-- A recovery from nothing establishes the invariant. -/
theorem recover_sequenced {e : CreditEngine (Observed J)} {o' : Observed J}
    (h : Yields e.journal none [] o') (hlog : e.journal.log = []) :
    Sequenced 0 e.recover.2 := by
  obtain ⟨e', heq, haccounts, -, -, -, -⟩ := recover_of_empty h
  replace haccounts : e.recover.2.accounts = ∅ := by rw [heq]; exact haccounts
  obtain ⟨events, hevents, hreads⟩ := recover_readsOn e
  have hplaces : decidedPlaces e.recover.2.journal.log = [] := by
    rw [hevents, hlog, List.nil_append]
    refine List.filterMap_eq_nil_iff.mpr fun ev hev => ?_
    have hread := hreads ev hev
    cases ev with
    | appended t s => exact hread.elim
    | _ => rfl
  refine ⟨fun key a ha => ?_, fun key i => ?_⟩
  · rw [haccounts] at ha
    simp at ha
  · simp [decidedSequences, hplaces, watermark, haccounts]

/-- **Run lemma.** -/
theorem run_sequenced {e : CreditEngine (Observed J)} (h : Sequenced 0 e)
    (rs : List CreditRequest) (hlen : rs.length < 2 ^ 64)
    (hok : (e.run rs).journalFailed = false) : Sequenced rs.length (e.run rs) := by
  induction rs using List.reverseRecOn with
  | nil => exact h
  | append_singleton rs r ih =>
    rw [List.length_append, List.length_singleton] at hlen ⊢
    rw [run_concat] at hok ⊢
    -- a latch would have stayed, so the run up to the last call is healthy too
    have hbefore : (e.run rs).journalFailed = false := by
      cases hfailed : (e.run rs).journalFailed with
      | false => rfl
      | true =>
        rw [journalFailed_apply hfailed, hfailed] at hok
        exact absurd hok (by decide)
    exact apply_sequenced (ih (by omega) hbefore) hlen r hok

/-- **Exactly-once decisions within a boot.**  After any run of fewer than `2 ^ 64` calls from
    an empty journal that does not latch the engine: the sequence numbers decided for an
    incarnation of an account are `1, 2, …` up to its watermark, in this order; the watermark
    is the number of its applied and refused attempts; the counters of an account are the sums
    over its incarnations; and a request for a decided place that the window no longer knows
    changes nothing. -/
theorem run_exactlyOnce (limits : EngineLimits) (j : J) (operator : Incarnation)
    (nonce : Digest128) {o' : Observed J} (hempty : Yields (Observed.mk j []) none [] o')
    (rs : List CreditRequest) (hlen : rs.length < 2 ^ 64)
    (hok : ((boot limits (Observed.mk j []) operator nonce).run rs).journalFailed = false) :
    let e := (boot limits (Observed.mk j []) operator nonce).run rs
    (∀ account incarnation,
      (decidedSequences e.journal.log account incarnation).map UInt64.toNat =
        List.range' 1 (e.watermark account incarnation).toNat) ∧
    (∀ (account : AccountId) (a : AccountState), e.accounts[account]? = some a →
      (∀ (i : IncarnationId) (b : IncarnationRecord), a.incarnations[i]? = some b →
        e.watermark account i = b.lastSequence ∧
        b.lastSequence.toNat = b.committedOps.toNat + b.refusedOps.toNat) ∧
      a.committedAttempts.toNat = sumValues (fun b => b.committedOps.toNat) a.incarnations ∧
      a.refusedAttempts.toNat = sumValues (fun b => b.refusedOps.toNat) a.incarnations) ∧
    ∀ r : CreditRequest, r.sequence ∈
        decidedSequences e.journal.log r.authority.account r.authority.incarnation →
      (∀ a, e.accounts[r.authority.account]? = some a →
        a.window.find { incarnation := r.authority.incarnation, sequence := r.sequence } =
          none) →
      (e.apply r).2 = e ∧ (e.apply r).1.applied = false := by
  intro e
  have hstart : Sequenced 0 (boot limits (Observed.mk j []) operator nonce) :=
    recover_sequenced hempty rfl
  have h : Sequenced rs.length e := run_sequenced hstart rs hlen hok
  refine ⟨h.decided, fun account a found => ?_, fun r => h.evicted⟩
  have hbook := h.accounts account a found
  refine ⟨fun i b hb => ?_, hbook.committed, hbook.refused⟩
  have hrecord := hbook.records i
  rw [AccountState.countersAt_of_some hb] at hrecord
  rw [watermark_of_found found, AccountState.countersAt_of_some hb]
  exact ⟨rfl, hrecord⟩

/-! ### An evicted attempt

A window of one place: the operator opens the account and issues a credit, which evicts the
Open.  A later request for its place is refused. -/

namespace EvictedOpen

/-- The engine after the run. -/
def final : CreditEngine (Observed InMemoryJournal) :=
  (boot { maxAttemptWindow := 1 } (Observed.mk {} []) Fixture.me ⟨5, 5⟩).run
    [Fixture.request ⟨5, 5⟩ Fixture.me .open_ 1, Fixture.request ⟨5, 5⟩ Fixture.me .issue 2]

/-- Another request for the place of the Open. -/
def again : CreditRequest := Fixture.request ⟨5, 5⟩ Fixture.me .issue 1

/-- The run and the later request, evaluated once. -/
theorem evaluated :
    final.journalFailed = false ∧
    decidedSequences final.journal.log Fixture.account Fixture.me.id = [1, 2] ∧
    again.sequence ∈
      decidedSequences final.journal.log again.authority.account again.authority.incarnation ∧
    (final.accounts[Fixture.account]?).all (fun a =>
      (a.window.find { incarnation := Fixture.me.id, sequence := 1 }).isNone) = true := by
  decide +kernel

/-- A sequence that left the window is not decided again. -/
theorem evicted_not_decided :
    decidedSequences final.journal.log Fixture.account Fixture.me.id = [1, 2] ∧
      (final.apply again).2 = final := by
  obtain ⟨hhealthy, hdecided, hagain, hforgotten⟩ := evaluated
  unfold final at hagain
  have hempty : Yields (Observed.mk ({} : InMemoryJournal) []) none [] _ :=
    ⟨_, _, _, _, rfl, rfl, rfl, .done rfl, rfl⟩
  have h := run_exactlyOnce { maxAttemptWindow := 1 } ({} : InMemoryJournal) Fixture.me ⟨5, 5⟩
    hempty
    [Fixture.request ⟨5, 5⟩ Fixture.me .open_ 1, Fixture.request ⟨5, 5⟩ Fixture.me .issue 2]
    (by decide) hhealthy
  refine ⟨hdecided, (h.2.2 again hagain fun a ha => ?_).1⟩
  have hfind : (a.window.find { incarnation := Fixture.me.id, sequence := 1 }).isNone = true := by
    rw [show final.accounts[Fixture.account]? = some a from ha] at hforgotten
    exact hforgotten
  exact Option.isNone_iff_eq_none.mp hfind

end EvictedOpen

end CreditEngine

end CreditFabric
