import CreditFabric.Run
import CreditFabric.LedgerInvariant

namespace CreditFabric

/-!
# What the account digest binds

`account_digest` is a fold over a sequence of words (`digest_eq_absorb`), so two accounts with
the same sequence have the same digest whatever the mixing function is.  The sequence has the
capacity and five of the six counters; the sixth, `spent`, is missing, and the view of an
account follows from the words and the missing counter (`view_eq_iff_spent_eq`).
-/

namespace DigestBuilder

/-- Absorb a sequence of words. -/
def absorb (b : DigestBuilder) (words : List UInt64) : DigestBuilder := words.foldl u64 b

/-- Absorbing two lists of words, one after the other. -/
private theorem absorb_append (b : DigestBuilder) (ws ws' : List UInt64) :
    b.absorb (ws ++ ws') = (b.absorb ws).absorb ws' := List.foldl_append

/-- A fold whose steps absorb words absorbs all of them in order. -/
theorem foldl_eq_absorb {α : Type} {f : DigestBuilder → α → DigestBuilder}
    {w : α → List UInt64} (h : ∀ b x, f b x = b.absorb (w x)) (b : DigestBuilder)
    (xs : List α) : xs.foldl f b = b.absorb (xs.flatMap w) := by
  induction xs generalizing b with
  | nil => rfl
  | cons x xs ih =>
    rw [List.foldl_cons, ih, h, List.flatMap_cons, absorb_append]

end DigestBuilder

/-- The word a boolean is absorbed as. -/
def boolWord (v : Bool) : UInt64 := if v then 0x9E3779B97F4A7C15 else 0x1

/-- The words a fence is absorbed as. -/
def FenceRecord.words (fence : FenceRecord) : List UInt64 :=
  [fence.incarnation, fence.epoch, fence.generation, UInt64.ofNat fence.cause.code,
    fence.sequence, fence.fencedCredit]

/-- The words a record is absorbed as. -/
def IncarnationRecord.words (record : IncarnationRecord) : List UInt64 :=
  [record.id, record.publisher, record.boot, UInt64.ofNat record.state.code,
    record.reconciledEpoch, record.reconciledGeneration, record.producer, record.consumer,
    record.grant, record.lastSequence, record.committedOps, record.refusedOps]

namespace AccountState

/-- The words of `account_digest` in front of the fences. -/
def headWords (a : AccountState) : List UInt64 :=
  [a.config.digest.lo, a.config.digest.hi, a.epoch, a.generation, a.capacity, a.totals.issued,
    a.totals.consumed, a.totals.returned, a.totals.stale, a.totals.protectedCredits,
    boolWord a.hardExhausted, UInt64.ofNat a.exhaustionCause.code, a.committedAttempts,
    a.refusedAttempts]

/-- The sequence of words `account_digest` absorbs. -/
def absorbedWords (a : AccountState) : List UInt64 :=
  let records := a.incarnations.toList.map Prod.snd
  a.headWords ++ UInt64.ofNat a.fences.length :: a.fences.flatMap FenceRecord.words ++
    UInt64.ofNat records.length :: records.flatMap IncarnationRecord.words

/-- **The digest is a function of the absorbed words.** -/
theorem digest_eq_absorb (a : AccountState) :
    a.digest = ((DigestBuilder.keyed ⟨0x51ED270B5A3D8F11, 0x118F3D5A0B27ED51⟩).absorb
      a.absorbedWords).finish := by
  have hfences := DigestBuilder.foldl_eq_absorb (f := digestFence) (w := FenceRecord.words)
    fun _ _ => rfl
  have hrecords := DigestBuilder.foldl_eq_absorb (f := digestIncarnation)
    (w := IncarnationRecord.words) fun _ _ => rfl
  simp only [digest, absorbedWords, headWords, hfences, hrecords, DigestBuilder.absorb,
    DigestBuilder.digest, DigestBuilder.boolean, boolWord, List.foldl_append, List.foldl_cons,
    List.foldl_nil]

/-- The ledger fields that can be read off the absorbed words. -/
theorem ledger_of_absorbedWords {a a' : AccountState} (h : a.absorbedWords = a'.absorbedWords) :
    a.capacity = a'.capacity ∧ a.totals.issued = a'.totals.issued ∧
      a.totals.consumed = a'.totals.consumed ∧ a.totals.returned = a'.totals.returned ∧
      a.totals.stale = a'.totals.stale ∧
      a.totals.protectedCredits = a'.totals.protectedCredits := by
  have hhead : a.headWords = a'.headWords := by
    have htake := congrArg (List.take 14) h
    simpa [absorbedWords, headWords] using htake
  simp only [headWords, List.cons.injEq] at hhead
  obtain ⟨-, -, -, -, hcapacity, hissued, hconsumed, hreturned, hstale, hprotected, -⟩ := hhead
  exact ⟨hcapacity, hissued, hconsumed, hreturned, hstale, hprotected⟩

/-- **What the digest leaves open.**  Two accounts whose digests absorb the same words have the
    same view, in every field, exactly when their `spent` counters agree. -/
theorem view_eq_iff_spent_eq {a a' : AccountState} (h : a.absorbedWords = a'.absorbedWords) :
    a.view = a'.view ↔ a.totals.spent = a'.totals.spent := by
  obtain ⟨hcapacity, hissued, hconsumed, hreturned, hstale, hprotected⟩ :=
    ledger_of_absorbedWords h
  constructor
  · intro hview
    have hspent := congrArg CreditView.spent hview
    unfold view at hspent
    rw [computeView_eq a.capacity, computeView_eq a'.capacity] at hspent
    exact hspent
  · intro hspent
    have htotals : a.totals = a'.totals := by
      cases ha : a.totals
      cases ha' : a'.totals
      rw [ha, ha'] at hissued hconsumed hreturned hstale hprotected hspent
      rw [CreditTotals.mk.injEq]
      exact ⟨hissued, hconsumed, hreturned, hstale, hspent, hprotected⟩
    unfold view
    rw [hcapacity, htotals]

/-- What it does bind: with the accounting closed, everything but `spent` and the spendable
    credit is the same. -/
theorem view_fields_of_absorbedWords {a a' : AccountState}
    (h : a.absorbedWords = a'.absorbedWords) (hclosed : Closed a.capacity a.totals)
    (hclosed' : Closed a'.capacity a'.totals) :
    a.view = { a'.view with spent := a.totals.spent, outstanding := a.view.outstanding } := by
  obtain ⟨hcapacity, hissued, hconsumed, hreturned, hstale, hprotected⟩ :=
    ledger_of_absorbedWords h
  have hview : ExactView a.capacity a.totals a.view := computeView_of_closed hclosed
  have hview' : ExactView a'.capacity a'.totals a'.view := computeView_of_closed hclosed'
  have hin : a.view.inFlight = a'.view.inFlight := by
    have h₁ := hview.inFlight
    have h₂ := hview'.inFlight
    rw [hissued, hreturned] at h₁
    rw [← UInt64.toNat_inj]
    omega
  have havail : a.view.available = a'.view.available := by
    have h₁ := hview.available
    have h₂ := hview'.available
    rw [hcapacity, hprotected, hin] at h₁
    rw [← UInt64.toNat_inj]
    omega
  unfold view at *
  rw [computeView_eq a.capacity, computeView_eq a'.capacity]
  rw [CreditView.mk.injEq]
  have hquarantined : (computeView a.capacity a.totals).quarantined =
      (computeView a'.capacity a'.totals).quarantined := by
    rw [quarantined_computeView, quarantined_computeView, computeView_eq a.capacity,
      computeView_eq a'.capacity]
    exact hstale
  exact ⟨hcapacity, hissued, hconsumed, hreturned, hstale, rfl, hprotected, hin, rfl,
    hquarantined, havail, hview.closed.trans hview'.closed.symm⟩

end AccountState

namespace CreditEngine

/-! ### Two histories with the same words

Two credits are issued, then one is spent and one comes back, in either order.  A credit that
comes back first counts against the live ones, one that comes back second against the spent
ones. -/

namespace SpentOrder

/-- An account opened, two credits issued, then two operations. -/
def history (second third : OpKind) : CreditEngine InMemoryJournal :=
  (Fixture.boot {} {} ⟨5, 5⟩).run
    [Fixture.request ⟨5, 5⟩ Fixture.me .open_ 1,
     { Fixture.request ⟨5, 5⟩ Fixture.me .issue 2 with count := 2 },
     Fixture.request ⟨5, 5⟩ Fixture.me second 3, Fixture.request ⟨5, 5⟩ Fixture.me third 4]

/-- The account at the end of a history. -/
def final (second third : OpKind) : Option AccountState :=
  (history second third).accounts[Fixture.account]?

/-- The words agree and the views do not: one spent credit against none. -/
theorem order_collides :
    (final .return_ .consume).isSome ∧ (final .consume .return_).isSome ∧
      (final .return_ .consume).map AccountState.absorbedWords =
        (final .consume .return_).map AccountState.absorbedWords ∧
      (final .return_ .consume).map AccountState.view ≠
        (final .consume .return_).map AccountState.view := by
  decide +kernel

/-- The account behind an Issue of two credits and a Consume of one, in the boot of a nonce. -/
def spentIn (nonce : Digest128) : Option AccountState :=
  let booted : CreditEngine InMemoryJournal := Fixture.boot {} {} nonce
  (booted.run
    [Fixture.request nonce Fixture.me .open_ 1,
     { Fixture.request nonce Fixture.me .issue 2 with count := 2 },
     Fixture.request nonce Fixture.me .consume 3]).accounts[Fixture.account]?

/-- What the histories leave, evaluated. -/
theorem spent_evaluated :
    (spentIn ⟨5, 5⟩).map (fun a => (a.totals.issued, a.totals.spent)) = some (2, 1) ∧
      (spentIn ⟨5, 5⟩).map AccountState.absorbedWords =
        (spentIn ⟨6, 6⟩).map AccountState.absorbedWords := by
  decide +kernel

/-- The proof of the boot is not among the words: the accounts of two boots have the same words,
    and their views agree as their spent credits do. -/
theorem spent_view : ∃ a a', spentIn ⟨5, 5⟩ = some a ∧ spentIn ⟨6, 6⟩ = some a' ∧
    a.totals.issued = 2 ∧ a.totals.spent = 1 ∧
    (a.view = a'.view ↔ a.totals.spent = a'.totals.spent) := by
  obtain ⟨hspent, hwords⟩ := spent_evaluated
  obtain ⟨a, ha, hcounters⟩ := Option.map_eq_some_iff.mp hspent
  obtain ⟨hissued, hone⟩ := Prod.mk.inj hcounters
  rw [ha, Option.map_some, eq_comm] at hwords
  obtain ⟨a', ha', hsame⟩ := Option.map_eq_some_iff.mp hwords
  exact ⟨a, a', ha, ha', hissued, hone, AccountState.view_eq_iff_spent_eq hsame.symm⟩

end SpentOrder

end CreditEngine

end CreditFabric
