import CreditFabric.Disk
import CreditFabric.Accounts

namespace CreditFabric

/-!
# An engine and its storage over many boots

A `Deployment` is an engine together with what its journal has made durable.  A `Step` is a
call, an explicit snapshot or a restart: a call or a snapshot leaves one of the durable
contents its journal calls allow, and a restart finds what a crash at any point of one more
call or snapshot leaves, recovers from it and succeeds.

* The contract is the one of `Disk.after`.  A journal keeps it as long as the explicit snapshots
  return Ok (`Answered`), which is a condition of the results about what was acknowledged.
* The calls of the current boot, with their outcomes, are kept for the record.
* A restart has its own nonce, and may have other limits and another operator.
-/

namespace Disk

/-- The property holds of every durable contents a crash during the calls can leave. -/
def Always (Q : Disk → Prop) : Disk → List JournalEvent → Prop
  | d, [] => Q d
  | d, ev :: evs => Q d ∧ ∀ d' ∈ d.after ev, Always Q d' evs

/-- What always holds, holds before the first call. -/
theorem Always.here {Q : Disk → Prop} {d : Disk} {evs : List JournalEvent}
    (h : Always Q d evs) : Q d := by
  cases evs with
  | nil => exact h
  | cons ev evs => exact h.1

/-- A crash is a prefix of the calls. -/
theorem Always.of_prefix {Q : Disk → Prop} {d d' : Disk} {evs done : List JournalEvent}
    (h : Always Q d evs) (hdone : done <+: evs) (hd : d' ∈ d.afterAll done) : Q d' := by
  induction done generalizing d evs with
  | nil =>
    rw [mem_afterAll_nil] at hd
    rw [hd]
    exact h.here
  | cons ev done ih =>
    obtain ⟨rest, rfl⟩ := hdone
    obtain ⟨d₁, hd₁, hd⟩ := mem_afterAll_cons.mp hd
    exact ih (h.2 d₁ hd₁) (List.prefix_append _ _) hd

/-- `Q` holds of everything a crash during the calls can leave, and `R` of what they leave. -/
structure Through (Q R : Disk → Prop) (d : Disk) (evs : List JournalEvent) : Prop where
  always : Always Q d evs
  after : ∀ d' ∈ d.afterAll evs, R d'

section Through

variable {Q R : Disk → Prop} {d : Disk} {evs : List JournalEvent}

/-- No calls. -/
theorem Through.nil (hQ : Q d) (hR : R d) : Through Q R d [] := by
  refine ⟨hQ, fun d' hd' => ?_⟩
  rw [mem_afterAll_nil.mp hd']
  exact hR

/-- One call, then the others. -/
theorem Through.cons {ev : JournalEvent} (hQ : Q d)
    (h : ∀ d' ∈ d.after ev, Through Q R d' evs) : Through Q R d (ev :: evs) := by
  refine ⟨⟨hQ, fun d' hd' => (h d' hd').always⟩, fun d' hd' => ?_⟩
  obtain ⟨d₁, hd₁, hrest⟩ := mem_afterAll_cons.mp hd'
  exact (h d₁ hd₁).after d' hrest

/-- A weaker property always holds too. -/
theorem Always.mono {Q' : Disk → Prop} (h : Always Q d evs) (hQ : ∀ d', Q d' → Q' d') :
    Always Q' d evs := by
  induction evs generalizing d with
  | nil => exact hQ d h
  | cons ev evs ih => exact ⟨hQ d h.1, fun d' hd' => ih (h.2 d' hd')⟩

/-- Weaker properties hold through the calls too. -/
theorem Through.mono {Q' R' : Disk → Prop} (h : Through Q R d evs) (hQ : ∀ d', Q d' → Q' d')
    (hR : ∀ d', Q d' → R d' → R' d') : Through Q' R' d evs := by
  refine ⟨h.always.mono hQ, fun d' hd' => hR d' ?_ (h.after d' hd')⟩
  exact h.always.of_prefix (List.prefix_refl evs) hd'

end Through

end Disk

/-- An engine, the durable contents of its journal and the calls of the current boot. -/
structure Deployment (J : Type) where
  engine : CreditEngine (Observed J)
  disk : Disk
  calls : List (CreditRequest × CreditOutcome) := []

namespace Deployment

open CreditEngine

/-- What can happen to a deployment. -/
inductive Act where
  | call (r : CreditRequest)
  | snapshot
  | restart
deriving DecidableEq, Repr

variable {J : Type} [Journal J]

/-- An engine that has been made over an empty journal and has not recovered yet. -/
def start (limits : EngineLimits) (journal : J) (operator : Incarnation) (nonce : Digest128) :
    Deployment J where
  engine := make limits ⟨journal, []⟩ operator nonce
  disk := {}

/-- The journal calls between two engines. -/
def events (e e' : CreditEngine (Observed J)) : List JournalEvent :=
  e'.journal.log.drop e.journal.log.length

/-- The durable contents a crash can leave: that of a prefix of the journal calls of one more
    call or snapshot. -/
def Crashes (w : Deployment J) (disk : Disk) : Prop :=
  ∃ done, disk ∈ w.disk.afterAll done ∧
    ((∃ r, done <+: events w.engine (w.engine.apply r).2) ∨
      done <+: events w.engine w.engine.snapshot.2)

/-- One step of a deployment. -/
inductive Step (w : Deployment J) : Act → Deployment J → Prop
  | called (r : CreditRequest) (disk : Disk)
      (durable : disk ∈ w.disk.afterAll (events w.engine (w.engine.apply r).2)) :
      Step w (.call r) { engine := (w.engine.apply r).2, disk,
                         calls := w.calls ++ [(r, (w.engine.apply r).1)] }
  | snapshotted (disk : Disk)
      (durable : disk ∈ w.disk.afterAll (events w.engine w.engine.snapshot.2)) :
      Step w .snapshot { w with engine := w.engine.snapshot.2, disk }
  | restarted (limits : EngineLimits) (journal : J) (operator : Incarnation)
      (nonce : Digest128) (disk : Disk) (o' : Observed J) (crash : w.Crashes disk)
      (addressable : disk.Addressable)
      (yields : Yields (Observed.mk journal []) disk.snapshot disk.records o')
      (ok : (make limits (Observed.mk journal []) operator nonce).recover.1.ok = true) :
      Step w .restart
        { engine := (make limits (Observed.mk journal []) operator nonce).recover.2, disk }

/-- Any number of steps. -/
inductive Run (w : Deployment J) : List Act → Deployment J → Prop
  | nil : Run w [] w
  | concat {acts : List Act} {act : Act} {w₁ w₂ : Deployment J} (run : Run w acts w₁)
      (step : Step w₁ act w₂) : Run w (acts ++ [act]) w₂

/-- An explicit snapshot returned Ok.  Behind one that did not the engine goes on, on a journal
    that may have lost its place. -/
def Answered (w : Deployment J) (act : Act) : Prop :=
  act = .snapshot → w.engine.snapshot.1.ok = true

end Deployment

end CreditFabric
