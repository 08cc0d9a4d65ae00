import CreditFabric.AttemptStream
import CreditFabric.InPlace

namespace CreditFabric

open Std (ExtTreeMap)
open CreditEngine

/-!
# One counter for all accounts

The engine has a watermark per account and incarnation; a client has one counter.  While the
client stands at an account where it is Reconciled, the counter is one beyond its watermark
there (`Kept`), so it is not refused for its place.

* A description raises the counter and never lowers it, so a client that comes from an account
  with a higher watermark is ahead.
* Opening or describing an account, or failing to, moves a placed client there without the
  watermark.

`KeepsPlace` is the condition of one call under which neither does harm.
-/

namespace Connection

variable {J : Type} [Journal J]

/-- The engine that the next exchange meets. -/
def met (c : Connection J) : CreditEngine J := c.server.letIn.engine

/-- Each transfer uses up one delivery. -/
theorem transfer_deliveries (c : Connection J) (payload : List UInt8) :
    (c.transfer payload).2.deliveries = c.deliveries.tail := by
  unfold transfer
  simp only
  split_ifs
  · rfl
  · cases c.deliveries.headD .whole with
    | whole =>
      simp only
      unfold serve
      cases decodeRequestMessage payload c.maxNoteBytes <;> rfl
    | requestLost failure => rfl
    | responseLost failure =>
      simp only
      unfold serve
      cases decodeRequestMessage payload c.maxNoteBytes <;> rfl

end Connection

namespace CoordinatorClient

variable {J : Type} [Journal J]

/-! ### The only user -/

/-- The client is yet to issue the identity. -/
def Ahead (client : CoordinatorClient) (id : AttemptId) : Prop :=
  ∃ n : Nat, client.attempts.counter.toNat < n ∧ n < 2 ^ 64 ∧
    id = AttemptIdGenerator.issued client.attempts.streamSeed (UInt64.ofNat n)

/-- The client is the only user of its incarnation and of its attempt identities, and its
    connection loses nothing. -/
structure Sole (client : CoordinatorClient) (c : Connection J) : Prop where
  whole : c.deliveries = []
  others : ∀ batch ∈ c.server.waiting, ∀ r ∈ batch,
    r.presenter.id ≠ client.incarnation.id ∧ ¬ client.Ahead r.attempt
  windowed : AllWindowed c.server.engine.accounts
  unknown : AllUnknown client.Ahead c.server.engine.accounts

/-- The client can issue `n` identities more. -/
def Room (client : CoordinatorClient) (n : Nat) : Prop :=
  client.attempts.counter.toNat + n < 2 ^ 64

instance (client : CoordinatorClient) (n : Nat) : Decidable (client.Room n) :=
  inferInstanceAs (Decidable (_ < _))

/-- Room for more is room for less. -/
theorem Room.le {client : CoordinatorClient} {n m : Nat} (h : client.Room n) (hle : m ≤ n) :
    client.Room m := by
  unfold Room at h ⊢
  omega

/-- A draw advances the counter by one. -/
theorem toNat_draw {client : CoordinatorClient} (h : client.Room 1) :
    client.draw.2.attempts.counter.toNat = client.attempts.counter.toNat + 1 :=
  toNat_add_one h

/-- A draw takes one place of the room. -/
theorem Room.draw {client : CoordinatorClient} {n : Nat} (h : client.Room (n + 1)) :
    client.draw.2.Room n := by
  have hcounter := toNat_draw (h.le (Nat.le_add_left 1 n))
  unfold Room at h ⊢
  omega

/-- Identities ahead of the next state are ahead already. -/
theorem Ahead.of_draw {client : CoordinatorClient} (hroom : client.Room 1) {id : AttemptId}
    (h : client.draw.2.Ahead id) : client.Ahead id := by
  obtain ⟨n, hlow, hhigh, rfl⟩ := h
  rw [toNat_draw hroom] at hlow
  exact ⟨n, by omega, hhigh, rfl⟩

/-- The identity that is drawn is not ahead any more. -/
theorem draw_not_ahead (client : CoordinatorClient) :
    ¬ client.draw.2.Ahead client.draw.1 := by
  rintro ⟨n, hlow, hhigh, hid⟩
  have hcounter : client.attempts.counter + 1 = UInt64.ofNat n :=
    AttemptIdGenerator.issued_injective client.attempts.streamSeed hid
  have hnat : client.draw.2.attempts.counter.toNat = n := by
    show (client.attempts.counter + 1).toNat = n
    rw [hcounter, UInt64.toNat_ofNat', Nat.mod_eq_of_lt hhigh]
  omega

namespace Sole

variable {client client' : CoordinatorClient} {c c' : Connection J}

omit [Journal J] in
/-- A client alone on its account draws an id. -/
theorem draw (h : Sole client c) (hroom : client.Room 1) : Sole client.draw.2 c where
  whole := h.whole
  others batch hbatch r hr :=
    ⟨(h.others batch hbatch r hr).1, fun hahead =>
      (h.others batch hbatch r hr).2 (hahead.of_draw hroom)⟩
  windowed := h.windowed
  unknown key a ha id hid := h.unknown key a ha id (hid.of_draw hroom)

omit [Journal J] in
/-- The same client in another state of its connection. -/
theorem congr (h : Sole client c) (hattempts : client'.attempts = client.attempts)
    (hincarnation : client'.incarnation = client.incarnation) (hserver : c'.server = c.server)
    (hwhole : c'.deliveries = []) : Sole client' c' := by
  have hahead : client'.Ahead = client.Ahead := by
    unfold Ahead
    rw [hattempts]
  refine ⟨hwhole, ?_, ?_, ?_⟩
  · rw [hserver, hincarnation, hahead]
    exact h.others
  · rw [hserver]
    exact h.windowed
  · rw [hserver, hahead]
    exact h.unknown

omit [Journal J] in
/-- What the others send next is not of this client. -/
theorem next (h : Sole client c) : ∀ r ∈ c.server.waiting.headD [],
    r.presenter.id ≠ client.incarnation.id ∧ ¬ client.Ahead r.attempt := by
  intro r hr
  cases hwaiting : c.server.waiting with
  | nil =>
    rw [hwaiting] at hr
    exact absurd hr List.not_mem_nil
  | cons batch batches =>
    rw [hwaiting] at hr
    refine h.others batch ?_ r hr
    rw [hwaiting]
    exact List.mem_cons_self

/-- The windows stay well formed when the others have called. -/
theorem windowed_met (h : Sole client c) : AllWindowed c.met.accounts :=
  run_windowed h.windowed _

/-- The ids that the client will draw stay unknown. -/
theorem unknown_met (h : Sole client c) : AllUnknown client.Ahead c.met.accounts :=
  run_unknown h.windowed (fun r hr => (h.next r hr).2) h.unknown

/-- The others that get in front of an exchange. -/
theorem aside_met (h : Sole client c) (hhealthy : c.met.journalFailed = false) :
    AllAside client.incarnation.id c.server.engine.accounts c.met.accounts :=
  run_aside (fun r hr => (h.next r hr).1) hhealthy

/-- Behind an exchange. -/
theorem serve (h : Sole client c) {r : CreditRequest} (hattempt : ¬ client.Ahead r.attempt)
    (hattempts : client'.attempts = client.attempts)
    (hincarnation : client'.incarnation = client.incarnation)
    (hserver : c'.server = (c.server.apply r).2) (hwhole : c'.deliveries = []) :
    Sole client' c' := by
  have hserved : Sole client { c' with server := (c.server.apply r).2 } := by
    refine ⟨hwhole, fun batch hbatch => ?_, ?_, ?_⟩
    · exact h.others batch (List.mem_of_mem_tail hbatch)
    · exact apply_windowed h.windowed_met r
    · exact apply_unknown h.unknown_met h.windowed_met hattempt
  exact hserved.congr hattempts hincarnation hserver hwhole

end Sole

/-! ### One beyond the watermark -/

/-- What a structurally valid request needs of its client. -/
structure Speaks (me : Incarnation) (domain : DomainId) (next : UInt64) : Prop where
  id : isSet me.id = true
  derived : makeIncarnationId me.publisher me.boot = me.id
  domain : isSet domain = true
  place : next ≠ 0

/-- A valid request speaks for an incarnation. -/
theorem speaks_of_valid {limits : EngineLimits} {r : CreditRequest}
    (h : validateRequest limits r = none) :
    Speaks r.presenter r.authority.domain r.sequence ∧ isSet r.authority.account = true := by
  unfold validateRequest at h
  split_ifs at h with hpresenter hset hplace
  simp only [not_or, Bool.not_eq_true', Bool.not_eq_false, ne_eq, not_not] at hpresenter hset
  exact ⟨⟨hpresenter.1, hpresenter.2.2, hset.1, hplace⟩, hset.2⟩

/-- The Describe of a client is valid. -/
theorem valid_describe (limits : EngineLimits) (client : CoordinatorClient) {account : AccountId}
    (h : Speaks client.incarnation client.domain client.nextSequence)
    (hset : isSet account = true) (attempt : AttemptId) :
    validateRequest limits (client.describeRequest attempt account) = none := by
  unfold validateRequest describeRequest
  simp [h.id, h.derived, h.domain, h.place, hset, opRequiresCount]

/-- Where the incarnation is Reconciled the counter is one beyond its watermark. -/
def LevelAt (me : Incarnation) (domain : DomainId) (account : AccountId) (next : UInt64)
    (accounts : ExtTreeMap UInt64 AccountState) : Prop :=
  ∀ a, accounts[account]? = some a → a.domain = domain → Speaks me domain next →
    a.isReconciled me.id = true → next = (a.countersAt me.id).last + 1

/-- The account is there, and the counter is one beyond the watermark. -/
def ExactAt (me : Incarnation) (account : AccountId) (next : UInt64)
    (accounts : ExtTreeMap UInt64 AccountState) : Prop :=
  ∃ a, accounts[account]? = some a ∧ next = (a.countersAt me.id).last + 1

/-- A client in its place is level. -/
theorem ExactAt.level {me : Incarnation} {account : AccountId} {next : UInt64}
    {accounts : ExtTreeMap UInt64 AccountState} (h : ExactAt me account next accounts)
    (domain : DomainId) : LevelAt me domain account next accounts := by
  intro a ha _ _ _
  obtain ⟨a', ha', hnext⟩ := h
  rw [Option.some.inj (ha.symm.trans ha')]
  exact hnext

/-- It stays in its place when the others have called. -/
theorem ExactAt.aside {me : Incarnation} {account : AccountId} {next : UInt64}
    {accounts accounts' : ExtTreeMap UInt64 AccountState} (h : ExactAt me account next accounts)
    (haside : AllAside me.id accounts accounts') : ExactAt me account next accounts' := by
  obtain ⟨a, ha, hnext⟩ := h
  obtain ⟨a', ha', hkept⟩ := haside.kept account a ha
  exact ⟨a', ha', by rw [hkept.last]; exact hnext⟩

/-- It stays level when the others have called. -/
theorem LevelAt.aside {me : Incarnation} {domain : DomainId} {account : AccountId}
    {next : UInt64} {accounts accounts' : ExtTreeMap UInt64 AccountState}
    (h : LevelAt me domain account next accounts) (haside : AllAside me.id accounts accounts') :
    LevelAt me domain account next accounts' := by
  intro a' ha' hdomain hspeaks hreconciled
  cases ha : accounts[account]? with
  | none =>
    rw [haside.fresh account a' ha ha'] at hreconciled
    exact absurd hreconciled (by decide)
  | some a =>
    obtain ⟨x, hx, hkept⟩ := haside.kept account a ha
    have hsame : x = a' := Option.some.inj (hx.symm.trans ha')
    subst hsame
    rw [hkept.last]
    exact h a ha (hkept.domain.symm.trans hdomain) hspeaks (hkept.reconciled hreconciled)

/-! ### One exchange -/

section Adopt

variable (client : CoordinatorClient) (r : CreditRequest) (o : CreditOutcome)

/-- What the adoption of an outcome leaves alone. -/
theorem adopt_frame : (client.adopt r o).incarnation = client.incarnation ∧
    (client.adopt r o).attempts = client.attempts ∧ (client.adopt r o).placed = client.placed ∧
    (client.adopt r o).domain = client.domain := by
  unfold adopt
  simp only
  split_ifs <;> exact ⟨rfl, rfl, rfl, rfl⟩

/-- A decided outcome advances the place of the client. -/
theorem adopt_nextSequence : (client.adopt r o).nextSequence =
    if o.decided then r.sequence + 1 else client.nextSequence := by
  unfold adopt
  simp only
  split_ifs <;> rfl

/-- A client takes over the account and the domain of an answer that names an account. -/
theorem adopt_authority : (client.adopt r o).authority.account =
      (if isSet o.authority.account then o.authority.account else client.authority.account) ∧
    (client.adopt r o).authority.domain =
      (if isSet o.authority.account then o.authority.domain else client.authority.domain) := by
  unfold adopt
  simp only
  split_ifs <;> exact ⟨rfl, rfl⟩

end Adopt

/-- What becomes of an exchange on a connection that loses nothing. -/
inductive Round (client : CoordinatorClient) (c : Connection J) (r : CreditRequest) :
    Exchanged J → Prop
  | dismissed (o : CreditOutcome) (connected : Bool) (c' : Connection J)
      (hstatus : Dismissed o.status) (hserver : c'.server = c.server)
      (hwhole : c'.deliveries = []) : Round client c r (o, { client with connected }, c')
  | answered (c' : Connection J) (hserver : c'.server = (c.server.apply r).2)
      (hwhole : c'.deliveries = []) :
      Round client c r ((c.met.apply r).1, client.adopt r (c.met.apply r).1, c')

/-- **One exchange.** -/
theorem exchange_cases (client : CoordinatorClient) {c : Connection J} (r : CreditRequest)
    (hwhole : c.deliveries = []) : Round client c r (client.exchange c r) := by
  have hclosed : ∀ detail : UInt64, Dismissed (.refused .transportError detail) :=
    fun _ => ⟨⟨rfl, rfl⟩, rfl⟩
  unfold exchange
  -- a client that is not connected sends nothing
  by_cases hconnected : client.connected = true
  swap
  · simp only [hconnected, Bool.not_false, if_true]
    have hsame : client = { client with connected := client.connected } := rfl
    rw [hsame]
    exact .dismissed _ _ _ (hclosed 21) rfl hwhole
  simp only [hconnected, Bool.not_true, Bool.false_eq_true, if_false]
  have hcase := c.transfer_cases r
  have hdeliveries := c.transfer_deliveries (encodeRequestMessage r)
  rw [hwhole, List.tail_nil] at hdeliveries
  generalize c.transfer (encodeRequestMessage r) = result at hcase hdeliveries ⊢
  cases hcase with
  | unserved status c' hserver hreason =>
    rw [hreason (by rw [hwhole]; rfl)]
    exact .dismissed _ false _ (hclosed 22) hserver hdeliveries
  -- a request the server cannot read is answered with its refusal
  | unanswered status c' hserver hlost =>
    exact absurd (by rw [hwhole]; rfl) hlost
  | undecoded status c' hserver hstatus =>
    have hdecode := (decodeResponseMessage_eq_ok _
      (Connection.refusalOutcome status.reason status.detail)).mpr ⟨rfl, rfl⟩
    have hdismissed := decodeRequestMessage_dismissed hstatus
    simp only [hdecode]
    have hsame : client.adopt r (Connection.refusalOutcome status.reason status.detail) =
        { client with connected := client.connected } := rfl
    rw [hsame]
    exact .dismissed _ _ _ ⟨hdismissed.final, hdismissed.failed⟩ hserver hdeliveries
  | answered c' hserver =>
    have hdecode := (decodeResponseMessage_eq_ok _ (c.server.apply r).1).mpr
      ⟨(c.server.letIn.engine.apply_readable r).view, rfl⟩
    simp only [hdecode]
    exact .answered c' hserver hdeliveries

/-- An exchange leaves the identity of the client alone. -/
structure SameClient (client client' : CoordinatorClient) : Prop where
  incarnation : client'.incarnation = client.incarnation
  attempts : client'.attempts = client.attempts
  placed : client'.placed = client.placed
  domain : client'.domain = client.domain

/-- What an exchange leaves alone. -/
theorem exchange_frame (client : CoordinatorClient) (c : Connection J) (r : CreditRequest) :
    SameClient client (client.exchange c r).2.1 := by
  unfold exchange
  simp only
  split_ifs
  · exact ⟨rfl, rfl, rfl, rfl⟩
  · cases (c.transfer (encodeRequestMessage r)).1 with
    | error status => exact ⟨rfl, rfl, rfl, rfl⟩
    | ok payload =>
      simp only
      cases decodeResponseMessage payload with
      | error status => exact ⟨rfl, rfl, rfl, rfl⟩
      | ok o =>
        obtain ⟨hincarnation, hattempts, hplaced, hdomain⟩ := adopt_frame client r o
        exact ⟨hincarnation, hattempts, hplaced, hdomain⟩

/-! ### The invariant of a client -/

/-- A placed client is level with the account it stands at, while the engine still decides. -/
structure Kept (client : CoordinatorClient) (c : Connection J) : Prop where
  sole : Sole client c
  level : c.server.engine.recovered = true → c.server.engine.journalFailed = false →
    client.placed = true → LevelAt client.incarnation client.authority.domain
      client.authority.account client.nextSequence c.server.engine.accounts

namespace Kept

variable {client : CoordinatorClient} {c : Connection J}

omit [Journal J] in
/-- The invariant behind a draw. -/
theorem draw (h : Kept client c) (hroom : client.Room 1) : Kept client.draw.2 c :=
  ⟨h.sole.draw hroom, h.level⟩

/-- The client is still level when the others have got in front. -/
theorem level_met (h : Kept client c) (hrecovered : c.met.recovered = true)
    (hhealthy : c.met.journalFailed = false) (hplaced : client.placed = true) :
    LevelAt client.incarnation client.authority.domain client.authority.account
      client.nextSequence c.met.accounts := by
  have hsame : c.met.recovered = c.server.engine.recovered :=
    run_induction (P := fun e => e.recovered = c.server.engine.recovered) rfl
      (fun e r he => (apply_sameConfig e r).recovered.trans he) _
  have hlevel := h.level (hsame.symm.trans hrecovered) (healthy_of_run hhealthy) hplaced
  exact hlevel.aside (h.sole.aside_met hhealthy)

end Kept

section Rounds

variable {client : CoordinatorClient} {c : Connection J} {r : CreditRequest}

/-- A request one beyond the watermark is at its place. -/
theorem atPlace_of_next (h : Sole client c) (hpresenter : r.presenter = client.incarnation)
    (hunknown : AllUnknown (fun id => id = r.attempt) c.met.accounts)
    (hnext : ∀ a, Found c.met r a →
      bindAuthority c.met.limits c.met.operatorIncarnation a r = none →
      r.sequence = (a.countersAt client.incarnation.id).last + 1) : c.met.AtPlace r := by
  intro a found bound
  have hspeaks := (speaks_of_valid found.valid).1
  have hcaller : client.incarnation.id = r.authority.incarnation := by
    rw [← hpresenter]
    exact presenter_of_valid found.valid
  refine admitted_of_next (h.windowed_met _ a found.found) (hunknown _ a found.found _ rfl) ?_
    hspeaks.place
  rw [← hcaller]
  exact hnext a found bound

/-- Behind a decided exchange the counter is one beyond the watermark. -/
theorem decided_next (hpresenter : r.presenter = client.incarnation) (hplace : c.met.AtPlace r)
    (hhealthy : (c.met.apply r).2.journalFailed = false)
    (hdecided : (c.met.apply r).1.decided = true) {a' : AccountState}
    (ha' : (c.met.apply r).2.accounts[r.authority.account]? = some a') :
    (client.adopt r (c.met.apply r).1).nextSequence =
      (a'.countersAt client.incarnation.id).last + 1 := by
  have hvalid : validateRequest c.met.limits r = none := by
    cases hvalid : validateRequest c.met.limits r with
    | none => rfl
    | some s =>
      rw [apply_of_invalid hvalid] at hdecided
      exact absurd hdecided (by decide)
  have hcaller : r.authority.incarnation = client.incarnation.id := by
    rw [← hpresenter]
    exact (presenter_of_valid hvalid).symm
  have hlast := apply_last hplace hhealthy hdecided ha'
  rw [hcaller] at hlast
  rw [adopt_nextSequence, if_pos hdecided, hlast]

/-- **Exchange lemma.**  A request at its place is not refused for it and leaves the client
    level, when the client is level with the account of the request. -/
theorem exchange_kept [PlainJournal J] (h : Kept client c)
    (hpresenter : r.presenter = client.incarnation) (hattempt : ¬ client.Ahead r.attempt)
    (hopen : r.op = .open_ → r.sequence = 1) (hplace : c.met.AtPlace r)
    (hlevel : c.met.recovered = true → c.met.journalFailed = false → client.placed = true →
      LevelAt client.incarnation r.authority.domain r.authority.account client.nextSequence
        c.met.accounts) :
    InPlace (client.exchange c r).1.status ∧
      Kept (client.exchange c r).2.1 (client.exchange c r).2.2 := by
  have hround := exchange_cases client r h.sole.whole
  generalize client.exchange c r = result at hround ⊢
  cases hround with
  -- the call did not reach the engine
  | dismissed o connected c' hstatus hserver hwhole =>
    refine ⟨hstatus.final.inPlace, h.sole.congr rfl rfl hserver hwhole, ?_⟩
    rw [hserver]
    exact h.level
  | answered c' hserver hwhole =>
    obtain ⟨hincarnation, hattempts, hplaced, -⟩ := adopt_frame client r (c.met.apply r).1
    refine ⟨apply_inPlace hopen hplace,
      h.sole.serve hattempt hattempts hincarnation hserver hwhole, ?_⟩
    have hengine : c'.server.engine = (c.met.apply r).2 := by
      rw [hserver]
      rfl
    rw [hengine, hincarnation, hplaced]
    intro hrecovered hhealthy hplaced'
    have hrecovered' : c.met.recovered = true :=
      (apply_sameConfig c.met r).recovered.symm.trans hrecovered
    have hhealthy' := healthy_of_apply hhealthy
    have hread := c.met.apply_readable r
    obtain ⟨haccount, hdomain⟩ := adopt_authority client r (c.met.apply r).1
    rw [hread.account] at haccount hdomain
    rw [hread.domain] at hdomain
    -- the client moves its place by what the answer says was decided
    cases hdecided : (c.met.apply r).1.decided with
    | true =>
      have hset : isSet r.authority.account = true := by
        cases hvalid : validateRequest c.met.limits r with
        | none => exact (speaks_of_valid hvalid).2
        | some s =>
          rw [apply_of_invalid hvalid] at hdecided
          exact absurd hdecided (by decide)
      rw [if_pos hset] at haccount
      rw [haccount]
      intro a' ha' _ _ _
      exact decided_next hpresenter hplace hhealthy hdecided ha'
    | false =>
      have haside := apply_aside (i := client.incarnation.id) hhealthy (.inr hdecided)
      rw [adopt_nextSequence, hdecided, haccount, hdomain]
      by_cases hset : isSet r.authority.account = true
      · rw [if_pos hset, if_pos hset]
        exact (hlevel hrecovered' hhealthy' hplaced').aside haside
      · rw [if_neg hset, if_neg hset]
        exact (h.level_met hrecovered' hhealthy' hplaced').aside haside

/-- A successful exchange from one beyond the watermark ends one beyond it. -/
theorem exchange_exact (h : Sole client c) (hpresenter : r.presenter = client.incarnation)
    (hplace : c.met.AtPlace r)
    (hexact : c.met.journalFailed = false → ExactAt client.incarnation r.authority.account
      client.nextSequence c.met.accounts) (hok : (client.exchange c r).1.status.ok = true)
    (hhealthy : (client.exchange c r).2.2.server.engine.journalFailed = false) :
    ExactAt client.incarnation r.authority.account (client.exchange c r).2.1.nextSequence
      (client.exchange c r).2.2.server.engine.accounts := by
  have hround := exchange_cases client r h.whole
  generalize client.exchange c r = result at hround hok hhealthy ⊢
  cases hround with
  | dismissed o connected c' hstatus =>
    rw [hstatus.failed] at hok
    exact absurd hok (by decide)
  | answered c' hserver hwhole =>
    have hengine : c'.server.engine = (c.met.apply r).2 := by
      rw [hserver]
      rfl
    simp only at hhealthy ⊢
    rw [hengine] at hhealthy ⊢
    have hmet := hexact (healthy_of_apply hhealthy)
    cases hdecided : (c.met.apply r).1.decided with
    | true =>
      obtain ⟨a, ha, -⟩ := hmet
      obtain ⟨a', ha'⟩ := apply_known r ha
      exact ⟨a', ha', decided_next hpresenter hplace hhealthy hdecided ha'⟩
    | false =>
      rw [adopt_nextSequence, hdecided]
      exact hmet.aside (apply_aside hhealthy (.inr hdecided))

end Rounds

/-! ### Identities that are drawn -/

/-- Nobody else presents the identity, and no window knows it. -/
structure Unused (id : AttemptId) (c : Connection J) : Prop where
  others : ∀ batch ∈ c.server.waiting, ∀ r ∈ batch, r.attempt ≠ id
  unknown : AllUnknown (fun x => x = id) c.server.engine.accounts

/-- A drawn id was ahead. -/
theorem draw_ahead {client : CoordinatorClient} (hroom : client.Room 1) :
    client.Ahead client.draw.1 := by
  have hcounter := toNat_draw hroom
  have hlt := client.draw.2.attempts.counter.toNat_lt
  refine ⟨client.draw.2.attempts.counter.toNat, by omega, hlt, ?_⟩
  rw [UInt64.ofNat_toNat]
  rfl

omit [Journal J] in
/-- An id ahead is unused. -/
theorem Unused.of_ahead {client : CoordinatorClient} {c : Connection J} (h : Sole client c)
    {id : AttemptId} (hid : client.Ahead id) : Unused id c where
  others batch hbatch r hr hattempt :=
    (h.others batch hbatch r hr).2 (by rw [hattempt]; exact hid)
  unknown key a ha id' hid' := h.unknown key a ha id' (by rw [hid']; exact hid)

/-- It stays unused when the others have called. -/
theorem Unused.met {client : CoordinatorClient} {c : Connection J} {id : AttemptId}
    (h : Unused id c) (hsole : Sole client c) :
    AllUnknown (fun x => x = id) c.met.accounts := by
  refine run_unknown hsole.windowed (fun r hr => ?_) h.unknown
  cases hwaiting : c.server.waiting with
  | nil =>
    rw [hwaiting] at hr
    exact absurd hr List.not_mem_nil
  | cons batch batches =>
    rw [hwaiting] at hr
    exact h.others batch (by rw [hwaiting]; exact List.mem_cons_self) r hr

/-- An exchange under another identity. -/
theorem Unused.exchange {client : CoordinatorClient} {c : Connection J} {id : AttemptId}
    (h : Unused id c) (hsole : Sole client c) {r : CreditRequest} (hne : r.attempt ≠ id) :
    Unused id (client.exchange c r).2.2 := by
  have hround := exchange_cases client r hsole.whole
  generalize client.exchange c r = result at hround ⊢
  cases hround with
  | dismissed o connected c' hstatus hserver =>
    exact ⟨by rw [hserver]; exact h.others, by rw [hserver]; exact h.unknown⟩
  | answered c' hserver =>
    refine ⟨?_, ?_⟩
    · rw [hserver]
      exact fun batch hbatch => h.others batch (List.mem_of_mem_tail hbatch)
    · rw [hserver]
      exact apply_unknown (h.met hsole) hsole.windowed_met hne

/-! ### A description -/

/-- What a description leaves. -/
inductive Described (client : CoordinatorClient) (c : Connection J) (account : AccountId) :
    Exchanged J → Prop
  | refused (o : CreditOutcome) (client' : CoordinatorClient) (c' : Connection J)
      (hstatus : InPlace o.status) (hfailed : o.status.ok = false) (hkept : Kept client' c') :
      Described client c account (o, client', c')
  | answered (o : CreditOutcome) (client' : CoordinatorClient) (c' : Connection J)
      (hok : o.status.ok = true) (hsole : Sole client' c')
      (hframe : SameClient client.draw.2 client')
      (hnext : client'.nextSequence = client.nextSequence) (hengine : c'.server.engine = c.met)
      (haccount : client'.authority.account = account)
      (hdomain : client'.authority.domain = client.domain)
      (houtcome : o.authority.account = account)
      (hexact : ExactAt client.incarnation account (o.sequence + 1) c.met.accounts) :
      Described client c account (o, client', c')

/-- **A description** of an account, from wherever the client stands. -/
theorem describe_cases [PlainJournal J] {client : CoordinatorClient} {c : Connection J}
    (h : Kept client c) (hroom : client.Room 1) (account : AccountId) :
    Described client c account (client.describe c account) := by
  have hdrawn := h.draw hroom
  unfold describe
  generalize hr : client.draw.2.describeRequest client.draw.1 account = r
  have hop : r.op = .describe := by rw [← hr]; rfl
  have hround := exchange_cases client.draw.2 r h.sole.whole
  simp only [hr]
  have hframe := exchange_frame client.draw.2 c r
  generalize client.draw.2.exchange c r = result at hround hframe ⊢
  cases hround with
  | dismissed o connected c' hstatus hserver hwhole =>
    refine .refused _ _ _ hstatus.final.inPlace hstatus.failed
      ⟨hdrawn.sole.congr rfl rfl hserver hwhole, ?_⟩
    rw [hserver]
    exact h.level
  | answered c' hserver hwhole =>
    obtain ⟨hengine, hanswer⟩ := apply_of_describe c.met hop
    have hsole : Sole (client.draw.2.adopt r (c.met.apply r).1) c' := by
      refine hdrawn.sole.serve ?_ hframe.attempts hframe.incarnation hserver hwhole
      rw [← hr]
      exact client.draw_not_ahead
    have hserved : c'.server.engine = c.met := by
      rw [hserver]
      exact hengine
    have hread := c.met.apply_readable r
    obtain ⟨haccount, hdomain⟩ := adopt_authority client.draw.2 r (c.met.apply r).1
    have hraccount : r.authority.account = account := by rw [← hr]; rfl
    have hrdomain : r.authority.domain = client.domain := by rw [← hr]; rfl
    have hrcaller : r.authority.incarnation = client.incarnation.id := by rw [← hr]; rfl
    rw [hread.account, hraccount] at haccount hdomain
    rw [hread.domain, hrdomain] at hdomain
    have hundecided : (c.met.apply r).1.decided = false := by
      rcases hanswer with ⟨-, hundecided, -⟩ | ⟨-, heq⟩
      · exact hundecided
      · rw [heq]
        exact describe_undecided _ _
    have hnext : (client.draw.2.adopt r (c.met.apply r).1).nextSequence = client.nextSequence := by
      rw [adopt_nextSequence, hundecided]
      rfl
    cases hok : (c.met.apply r).1.status.ok with
    | true =>
      rcases hanswer with ⟨hfailed, -⟩ | ⟨hvalid, heq⟩
      · exact absurd (hok.symm.trans hfailed) (by decide)
      rw [heq] at hok
      obtain ⟨a, ha, hsequence⟩ := describe_ok hok
      rw [hraccount] at ha
      rw [hrcaller] at hsequence
      have hset : isSet account = true := by
        rw [← hraccount]
        exact (speaks_of_valid hvalid).2
      rw [if_pos hset] at haccount hdomain
      refine .answered _ _ _ (heq ▸ hok) hsole hframe hnext hserved haccount hdomain
        (hread.account.trans hraccount) ⟨a, ha, ?_⟩
      rw [heq, hsequence]
    | false =>
      refine .refused _ _ _ ?_ hok ⟨hsole, ?_⟩
      · refine apply_inPlace (fun hopen => absurd (hop.symm.trans hopen) (by decide)) ?_
        exact fun a found => absurd hop found.notDescribe
      · rw [hserved, hframe.incarnation, hframe.placed, hnext, haccount, hdomain]
        intro hrecovered hhealthy hplaced
        by_cases hset : isSet account = true
        · rw [if_pos hset, if_pos hset]
          intro a ha hadomain hspeaks _
          -- the description of such an account is not refused
          have hvalid : validateRequest c.met.limits r = none := by
            rw [← hr]
            exact valid_describe _ client.draw.2 hspeaks hset _
          rcases hanswer with ⟨-, -, hnot⟩ | ⟨-, heq⟩
          · exact absurd ⟨hrecovered, hhealthy, hvalid⟩ hnot
          · have hdescribed := describe_of_found (e := c.met) (r := r)
              (by rw [hraccount]; exact ha) (hadomain.trans hrdomain.symm)
            rw [heq, hdescribed] at hok
            exact absurd hok (by decide)
        · rw [if_neg hset, if_neg hset]
          exact h.level_met hrecovered hhealthy hplaced

/-! ### A reconciliation -/

section Reconcile

variable {client : CoordinatorClient} {c : Connection J}

/-- The identity drawn for a request is unknown to the engine the request meets. -/
theorem unknown_drawn (h : Sole client c) (hroom : client.Room 1) :
    AllUnknown (fun id => id = client.draw.1) c.met.accounts :=
  (Unused.of_ahead h (draw_ahead hroom)).met h

/-- **A reconciliation.**  It is answered in place, and the client keeps its place. -/
private theorem reconcileUnder_kept [PlainJournal J] (h : Kept client c) (hroom : client.Room 1)
    {authority : AuthorityVector}
    (hexact : ExactAt client.incarnation authority.account client.nextSequence
      c.server.engine.accounts) :
    InPlace (client.reconcileUnder c authority).1.status ∧
      Kept (client.reconcileUnder c authority).2.1 (client.reconcileUnder c authority).2.2 ∧
      ((client.reconcileUnder c authority).1.status.ok = true →
        (client.reconcileUnder c authority).2.1.placed = true ∧
        (client.reconcileUnder c authority).2.1.authority.account = authority.account ∧
        ((client.reconcileUnder c authority).2.2.server.engine.journalFailed = false →
          ExactAt client.incarnation authority.account
            (client.reconcileUnder c authority).2.1.nextSequence
            (client.reconcileUnder c authority).2.2.server.engine.accounts)) := by
  have hdrawn := h.draw hroom
  have hunknown := unknown_drawn h.sole hroom
  unfold reconcileUnder
  generalize hr : client.draw.2.reconcileRequest client.draw.1 authority = r
  have hop : r.op = .reconcile := by rw [← hr]; rfl
  have hpresenter : r.presenter = client.draw.2.incarnation := by rw [← hr]; rfl
  have hattempt : r.attempt = client.draw.1 := by rw [← hr]; rfl
  have hauthority : r.authority = authority := by rw [← hr]; rfl
  have hsequence : r.sequence = client.nextSequence := by rw [← hr]; rfl
  -- the Hello of a reconnection does not move the place
  have hmet : c.met.journalFailed = false → ExactAt client.incarnation authority.account
      client.nextSequence c.met.accounts :=
    fun hhealthy => hexact.aside (h.sole.aside_met hhealthy)
  -- the attempt is new, and the sequence the next
  have hplace : c.met.AtPlace r := by
    refine atPlace_of_next hdrawn.sole hpresenter (by rw [hattempt]; exact hunknown)
      fun a found _ => ?_
    obtain ⟨a', ha', hnext⟩ := hmet found.healthy
    rw [← hauthority] at ha'
    rw [← Option.some.inj (ha'.symm.trans found.found), hsequence]
    exact hnext
  have hkept := exchange_kept hdrawn hpresenter (by rw [hattempt]; exact client.draw_not_ahead)
    (fun hopen => absurd (hop.symm.trans hopen) (by decide)) hplace fun _ hhealthy _ => by
      rw [hauthority]
      exact (hmet hhealthy).level authority.domain
  have hafter := exchange_exact hdrawn.sole hpresenter hplace
    (by rw [hauthority]; exact hmet)
  rw [hauthority] at hafter
  have hframe := exchange_frame client.draw.2 c r
  simp only [hr]
  generalize client.draw.2.exchange c r = result at hkept hafter hframe ⊢
  obtain ⟨outcome, client', c'⟩ := result
  simp only at hkept hafter hframe ⊢
  -- refused, the client keeps its place; decided, it adopts the answer's
  cases hok : outcome.status.ok with
  | false =>
    simp only [Bool.false_eq_true, if_false]
    exact ⟨hkept.1, hkept.2, fun hok' => absurd (hok.symm.trans hok') (by decide)⟩
  | true =>
    simp only [if_true]
    refine ⟨hkept.1, ⟨hkept.2.sole.congr rfl rfl rfl hkept.2.sole.whole, ?_⟩, ?_⟩
    · intro _ hhealthy _
      have hlevel := (hafter hok hhealthy).level authority.domain
      rw [← hframe.incarnation] at hlevel
      exact hlevel
    · exact fun _ => ⟨trivial, trivial, hafter hok⟩

/-- **A reconciliation** leaves a client one beyond its watermark, or is refused for a reason
    other than its place. -/
theorem reconcile_kept [PlainJournal J] (h : Kept client c) (hroom : client.Room 2)
    (account : AccountId) :
    InPlace (client.reconcile c account).1.status ∧
      Kept (client.reconcile c account).2.1 (client.reconcile c account).2.2 ∧
      ((client.reconcile c account).1.status.ok = true →
        (client.reconcile c account).2.1.placed = true ∧
        (client.reconcile c account).2.1.authority.account = account ∧
        ((client.reconcile c account).2.2.server.engine.journalFailed = false →
          ExactAt client.incarnation account (client.reconcile c account).2.1.nextSequence
            (client.reconcile c account).2.2.server.engine.accounts)) := by
  have hdescribed := describe_cases h (hroom.le (by decide)) account
  unfold reconcile
  generalize client.describe c account = described at hdescribed ⊢
  cases hdescribed with
  | refused o client' c' hstatus hfailed hkept =>
    simp only [hfailed, Bool.not_false, if_true]
    exact ⟨hstatus, hkept, fun hok => absurd hok (by decide)⟩
  | answered o client' c' hok hsole hframe hnext hengine haccount hdomain houtcome hexact =>
    simp only [hok, Bool.not_true, Bool.false_eq_true, if_false]
    have hincarnation : client'.incarnation = client.incarnation := hframe.incarnation
    have hat : ExactAt client'.incarnation account (o.sequence + 1) c'.server.engine.accounts := by
      rw [hincarnation, hengine]
      exact hexact
    have hkept : Kept { client' with nextSequence := o.sequence + 1 } c' := by
      refine ⟨hsole.congr rfl rfl rfl hsole.whole, fun _ _ _ => ?_⟩
      have hlevel := hat.level client'.authority.domain
      rw [← haccount] at hlevel
      exact hlevel
    have hroom' : Room { client' with nextSequence := o.sequence + 1 } 1 := by
      have hdrawn : client.draw.2.Room 1 := hroom.draw
      unfold Room at hdrawn ⊢
      rw [← hframe.attempts] at hdrawn
      exact hdrawn
    rw [← hincarnation]
    exact reconcileUnder_kept hkept hroom' hat

/-- What a describe leaves alone. -/
theorem describe_frame (client : CoordinatorClient) (c : Connection J) (account : AccountId) :
    SameClient client.draw.2 (client.describe c account).2.1 := by
  unfold describe
  exact exchange_frame _ _ _

/-- The room is one of the generator. -/
theorem Room.of_attempts {client client' : CoordinatorClient} {n : Nat} (h : client.Room n)
    (hattempts : client'.attempts = client.attempts) : client'.Room n := by
  unfold Room at h ⊢
  rw [hattempts]
  exact h

/-- What a reconciliation leaves alone. -/
private theorem reconcileUnder_frame (client : CoordinatorClient) (c : Connection J)
    (authority : AuthorityVector) :
    (client.reconcileUnder c authority).2.1.incarnation = client.incarnation ∧
      (client.reconcileUnder c authority).2.1.attempts = client.draw.2.attempts := by
  have hframe := exchange_frame client.draw.2 c
    (client.draw.2.reconcileRequest client.draw.1 authority)
  unfold reconcileUnder
  simp only
  split_ifs
  · exact ⟨hframe.incarnation, hframe.attempts⟩
  · exact ⟨hframe.incarnation, hframe.attempts⟩

/-- A reconciliation draws at most two identities. -/
theorem reconcile_frame (client : CoordinatorClient) (c : Connection J) (account : AccountId) :
    (client.reconcile c account).2.1.incarnation = client.incarnation ∧
      ∀ n, client.Room (n + 2) → (client.reconcile c account).2.1.Room n := by
  have hdescribed := client.describe_frame c account
  unfold reconcile
  generalize client.describe c account = described at hdescribed ⊢
  obtain ⟨description, client', c'⟩ := described
  simp only at hdescribed ⊢
  split_ifs
  · exact ⟨hdescribed.incarnation, fun n hn =>
      ((hn.le (Nat.le_succ _)).draw).of_attempts hdescribed.attempts⟩
  · obtain ⟨hincarnation, hattempts⟩ := reconcileUnder_frame
      { client' with nextSequence := description.sequence + 1 } c'
      { domain := client'.domain, account, epoch := description.authority.epoch
        generation := description.authority.generation, incarnation := client'.incarnation.id }
    refine ⟨hincarnation.trans hdescribed.incarnation, fun n hn => ?_⟩
    have hnext : Room { client' with nextSequence := description.sequence + 1 } (n + 1) :=
      (Room.draw hn).of_attempts hdescribed.attempts
    exact hnext.draw.of_attempts hattempts

end Reconcile

/-! ### One call -/

section Submit

variable {client : CoordinatorClient} {c : Connection J} {request : CreditRequest}

omit [Journal J] in
/-- A live record is reconciled. -/
private theorem state_of_isLive {b : IncarnationRecord} {epoch : EpochId} {generation : Generation}
    (h : b.isLive epoch generation = true) : b.state = .reconciled := by
  unfold IncarnationRecord.isLive at h
  simp only [Bool.and_eq_true, beq_iff_eq] at h
  exact h.1.1

/-- An attempt from where the client stands. -/
theorem placed_kept [PlainJournal J] (h : Kept client c) (hplaced : client.placed = true)
    (hpresenter : request.presenter = client.incarnation)
    (hunknown : AllUnknown (fun id => id = request.attempt) c.met.accounts)
    (hattempt : ¬ client.Ahead request.attempt) (hop : request.op ≠ .open_)
    (hexact : request.op = .reconcile → c.met.journalFailed = false → ∀ a,
      c.met.accounts[client.authority.account]? = some a →
      client.nextSequence = (a.countersAt client.incarnation.id).last + 1) :
    InPlace (client.exchange c (client.placedRequest request)).1.status ∧
      Kept (client.exchange c (client.placedRequest request)).2.1
        (client.exchange c (client.placedRequest request)).2.2 := by
  refine exchange_kept h hpresenter hattempt (fun hopen => absurd hopen hop) ?_
    fun hrecovered hhealthy hplaced' => h.level_met hrecovered hhealthy hplaced'
  refine atPlace_of_next h.sole hpresenter hunknown fun a found bind => ?_
  by_cases hreconcile : request.op = .reconcile
  · exact hexact hreconcile found.healthy a found.found
  · -- any other operation is admitted from a Reconciled incarnation only
    have hbound := bound_of_bindAuthority bind
    obtain ⟨hspeaks, -⟩ := speaks_of_valid found.valid
    have hcaller : client.incarnation.id = (client.placedRequest request).authority.incarnation := by
      rw [← hpresenter]
      exact presenter_of_valid found.valid
    obtain ⟨b, hb, hlive⟩ := live_of_bindIncarnation hbound.incarnation hreconcile
    have hreconciled : a.isReconciled client.incarnation.id = true := by
      rw [hcaller]
      exact AccountState.isReconciled_iff.mpr ⟨b, hb, state_of_isLive hlive⟩
    have hlevel := h.level_met found.recovered found.healthy hplaced
    refine hlevel a found.found hbound.domain.symm ?_ hreconciled
    rw [← hpresenter]
    exact hspeaks

/-- The tail of a call. -/
theorem submitPlaced_kept [PlainJournal J] (h : Kept client c) (hroom : client.Room 3)
    (hplaced : client.placed = true) (hpresenter : request.presenter = client.incarnation)
    (hunknown : AllUnknown (fun id => id = request.attempt) c.met.accounts)
    (hattempt : ¬ client.Ahead request.attempt) (hop : request.op ≠ .open_)
    (hexact : request.op = .reconcile → c.met.journalFailed = false → ∀ a,
      c.met.accounts[client.authority.account]? = some a →
      client.nextSequence = (a.countersAt client.incarnation.id).last + 1) :
    InPlace (client.submitPlaced c request).1.status ∧
      Kept (client.submitPlaced c request).2.1 (client.submitPlaced c request).2.2 := by
  have hfirst := placed_kept h hplaced hpresenter hunknown hattempt hop hexact
  have hframe := client.exchange_frame c (client.placedRequest request)
  unfold submitPlaced
  generalize client.exchange c (client.placedRequest request) = first at hfirst hframe ⊢
  obtain ⟨outcome, client', c'⟩ := first
  simp only at hfirst hframe ⊢
  -- the first answer stands unless it demands a reconciliation
  by_cases hdemands : demandsReconcile outcome.status.reason = true
  swap
  · rw [if_pos (by simpa using hdemands)]
    exact hfirst
  rw [if_neg (by simpa using hdemands)]
  have hroom' : client'.Room 3 := hroom.of_attempts hframe.attempts
  have hrevalidated := reconcile_kept hfirst.2 (hroom'.le (by decide)) client.authority.account
  have hframe' := client'.reconcile_frame c' client.authority.account
  generalize client'.reconcile c' client.authority.account = revalidated
    at hrevalidated hframe' ⊢
  obtain ⟨revalidation, client'', c''⟩ := revalidated
  simp only at hrevalidated hframe' ⊢
  obtain ⟨hin, hkept, hstands⟩ := hrevalidated
  -- reconciled, the client stands where the server does, and sends once more
  by_cases hok : revalidation.status.ok = true
  swap
  · rw [if_pos (by simpa using hok)]
    exact ⟨hin, hkept⟩
  rw [if_neg (by simpa using hok)]
  obtain ⟨hplaced', haccount, hexact'⟩ := hstands hok
  have hroom'' : client''.Room 1 := hframe'.2 1 hroom'
  have hincarnation : client''.incarnation = client.incarnation :=
    hframe'.1.trans hframe.incarnation
  refine placed_kept (hkept.draw hroom'') hplaced' (hpresenter.trans hincarnation.symm)
    (unknown_drawn hkept.sole hroom'') client''.draw_not_ahead hop fun _ hhealthy a ha => ?_
  have hbefore : c''.server.engine.journalFailed = false := healthy_of_run hhealthy
  obtain ⟨a', ha', hnext⟩ := (hexact' hbefore).aside
    (by rw [hframe'.1.symm]; exact hkept.sole.aside_met hhealthy)
  rw [← haccount] at ha'
  rw [← Option.some.inj (ha'.symm.trans ha)]
  show client''.nextSequence = (a'.countersAt client''.incarnation.id).last + 1
  rw [hframe'.1]
  exact hnext

end Submit

/-- The account a call is about. -/
def accountOf (request : CreditRequest) : AccountId :=
  if request.op = .open_ then request.config.account else request.authority.account

/-- The counter of the client does for the account of the call, as the engine has it.  An Open
    or a Describe takes a placed client there as it is; a client that stands there is level
    already, unless it presents a Reconcile; any other one is raised to the watermark, and must
    not be beyond it where it is Reconciled.  The last part is about the identities left. -/
def KeepsPlace (client : CoordinatorClient) (c : Connection J) (request : CreditRequest) :
    Prop :=
  (∀ a ∈ c.met.accounts[accountOf request]?,
    let next := (a.countersAt client.incarnation.id).last + 1
    let reconciled := a.isReconciled client.incarnation.id = true
    if request.op = .open_ ∨ request.op = .describe then
      client.placed = true → reconciled → client.nextSequence = next
    else if client.standsAt request.authority.account then
      request.op = .reconcile → client.nextSequence = next
    else request.op = .reconcile ∨ reconciled → client.nextSequence ≤ next) ∧
  client.Room 5

instance (client : CoordinatorClient) (c : Connection J) (request : CreditRequest) :
    Decidable (client.KeepsPlace c request) :=
  inferInstanceAs (Decidable ((∀ a ∈ c.met.accounts[accountOf request]?,
    if request.op = .open_ ∨ request.op = .describe then client.placed = true → _ → _
    else if client.standsAt request.authority.account then _ → _ else _ ∨ _ → _) ∧ _))

section Submits

variable {client : CoordinatorClient} {c : Connection J} {request : CreditRequest}

/-- A call of a client that first places itself. -/
theorem submitElsewhere_kept [PlainJournal J] (h : Kept client c) (hroom : client.Room 4)
    (hpresenter : request.presenter = client.incarnation) (hunused : Unused request.attempt c)
    (hattempt : ¬ client.Ahead request.attempt) (hop : request.op ≠ .open_)
    (hkeeps : ∀ a, c.met.accounts[request.authority.account]? = some a →
      request.op = .reconcile ∨ a.isReconciled client.incarnation.id = true →
      client.nextSequence ≤ (a.countersAt client.incarnation.id).last + 1) :
    InPlace (client.submitElsewhere c request).1.status ∧
      Kept (client.submitElsewhere c request).2.1 (client.submitElsewhere c request).2.2 := by
  have hroom' : client.Room 1 := hroom.le (by decide)
  have hdescribed := describe_cases h hroom' request.authority.account
  have hunused' : Unused request.attempt (client.describe c request.authority.account).2.2 := by
    unfold describe
    refine hunused.exchange (h.sole.draw hroom') fun heq => hattempt ?_
    rw [← heq]
    exact draw_ahead hroom'
  unfold submitElsewhere
  generalize client.describe c request.authority.account = described at hdescribed hunused' ⊢
  cases hdescribed with
  | refused o client' c' hstatus hfailed hkept =>
    simp only [hfailed, Bool.not_false, if_true]
    exact ⟨hstatus, hkept⟩
  | answered o client' c' hok hsole hframe hnext hengine haccount hdomain houtcome hexact =>
    simp only [hok, Bool.not_true, Bool.false_eq_true, if_false] at hunused' ⊢
    obtain ⟨a, ha, hsequence⟩ := hexact
    have hincarnation : client'.incarnation = client.incarnation := hframe.incarnation
    -- raised to the watermark, the counter is one beyond it
    have hplace : request.op = .reconcile ∨ a.isReconciled client.incarnation.id = true →
        (client'.place o).nextSequence = (a.countersAt client.incarnation.id).last + 1 := by
      intro hneeded
      have hle := hkeeps a ha hneeded
      show (if o.sequence + 1 > client'.nextSequence then o.sequence + 1
        else client'.nextSequence) = _
      rw [hnext, hsequence]
      split_ifs with hlt
      · rfl
      · exact UInt64.le_antisymm hle (UInt64.not_lt.mp hlt)
    have hkept : Kept (client'.place o) c' := by
      refine ⟨hsole.congr rfl rfl rfl hsole.whole, fun _ _ _ => ?_⟩
      intro a' ha' _ _ hreconciled
      rw [hengine] at ha'
      have hat : (client'.place o).authority.account = request.authority.account := houtcome
      rw [hat] at ha'
      have hsame : a = a' := Option.some.inj (ha.symm.trans ha')
      subst hsame
      rw [show (client'.place o).incarnation = client.incarnation from hincarnation]
        at hreconciled ⊢
      exact hplace (.inr hreconciled)
    have hroom'' : (client'.place o).Room 3 :=
      (Room.draw hroom).of_attempts hframe.attempts
    refine submitPlaced_kept hkept hroom'' rfl (hpresenter.trans hincarnation.symm)
      (hunused'.met hsole) (fun hahead => hattempt ?_) hop fun hreconcile hhealthy a' ha' => ?_
    · have hdrawn : client.draw.2.Ahead request.attempt := by
        unfold Ahead at hahead ⊢
        rw [← hframe.attempts]
        exact hahead
      exact hdrawn.of_draw hroom'
    · have haside := hsole.aside_met hhealthy
      have hat : ExactAt client'.incarnation request.authority.account
          (client'.place o).nextSequence c'.server.engine.accounts := by
        refine ⟨a, by rw [hengine]; exact ha, ?_⟩
        rw [hincarnation]
        exact hplace (.inl hreconcile)
      obtain ⟨x, hx, hnext'⟩ := hat.aside haside
      rw [← houtcome] at hx
      rw [← Option.some.inj (hx.symm.trans ha')]
      exact hnext'

/-- **Step lemma.**  One call. -/
theorem submit_kept [PlainJournal J] (h : Kept client c) (hkeeps : client.KeepsPlace c request) :
    InPlace (client.submit c request).1.status ∧
      Kept (client.submit c request).2.1 (client.submit c request).2.2 := by
  obtain ⟨hplace, hroom⟩ := hkeeps
  have hroom' : client.Room 1 := hroom.le (by decide)
  have hdrawn := h.draw hroom'
  have hunused := Unused.of_ahead h.sole (draw_ahead hroom')
  generalize hsent : { request with
    presenter := client.draw.2.incarnation, attempt := client.draw.1 } = sent
  have hop : request.op = sent.op := by rw [← hsent]
  have hpresenter : sent.presenter = client.incarnation := by rw [← hsent]; rfl
  have hattempt : sent.attempt = client.draw.1 := by rw [← hsent]
  have hauthority : sent.authority = request.authority := by rw [← hsent]
  have hconfig : sent.config = request.config := by rw [← hsent]
  unfold accountOf at hplace
  rw [hop, ← hauthority, ← hconfig] at hplace
  have hfresh : ¬ client.draw.2.Ahead sent.attempt := by
    rw [hattempt]
    exact client.draw_not_ahead
  rw [← hattempt] at hunused
  unfold submit
  simp only [hsent]
  rw [hop]
  -- the four ways of `submit`, each with the place the request is sent under
  split_ifs with hopen hdescribe hstands
  · simp only [hopen, true_or, if_true] at hplace
    refine exchange_kept hdrawn hpresenter hfresh (fun _ => rfl)
      (fun a found => absurd hopen found.notOpen) fun _ _ hplaced a ha _ _ hreconciled => ?_
    exact hplace a ha hplaced hreconciled
  · simp only [hdescribe, or_true, if_true] at hplace
    refine exchange_kept hdrawn hpresenter hfresh (fun h => absurd h hopen)
      (fun a found => absurd hdescribe found.notDescribe)
      fun _ _ hplaced a ha _ _ hreconciled => ?_
    exact hplace a ha hplaced hreconciled
  · rw [← hauthority] at hstands
    have hhere : client.standsAt sent.authority.account = true := hstands
    simp only [hopen, hdescribe, or_self, hhere, if_true, if_false] at hplace
    unfold standsAt at hhere
    simp only [Bool.and_eq_true, beq_iff_eq] at hhere
    refine submitPlaced_kept hdrawn (hroom.draw.le (by decide)) hhere.1.1 hpresenter
      (hunused.met h.sole) hfresh hopen fun hreconcile _ a ha => ?_
    refine hplace a ?_ hreconcile
    rw [← hhere.2]
    exact ha
  · rw [← hauthority] at hstands
    have hthere : ¬ client.standsAt sent.authority.account = true := hstands
    simp only [hopen, hdescribe, or_self, hthere, if_false] at hplace
    exact submitElsewhere_kept hdrawn hroom.draw hpresenter hunused hfresh hopen hplace

/-- A list of calls, with their outcomes. -/
def submits (client : CoordinatorClient) (c : Connection J) :
    List CreditRequest → List CreditOutcome
  | [] => []
  | request :: requests =>
    let (outcome, client, c) := client.submit c request
    outcome :: client.submits c requests

/-- One submit and then the others. -/
theorem submits_cons (client : CoordinatorClient) (c : Connection J) (request : CreditRequest)
    (requests : List CreditRequest) : client.submits c (request :: requests) =
      (client.submit c request).1 ::
        (client.submit c request).2.1.submits (client.submit c request).2.2 requests := rfl

/-- Every call of the list meets the condition in the state it is made in. -/
def EachSubmit (P : CoordinatorClient → Connection J → CreditRequest → Prop) :
    CoordinatorClient → Connection J → List CreditRequest → Prop
  | _, _, [] => True
  | client, c, request :: requests => P client c request ∧
    EachSubmit P (client.submit c request).2.1 (client.submit c request).2.2 requests

instance instDecidableEachSubmit (P : CoordinatorClient → Connection J → CreditRequest → Prop)
    [∀ client c request, Decidable (P client c request)] :
    (client : CoordinatorClient) → (c : Connection J) → (requests : List CreditRequest) →
      Decidable (EachSubmit P client c requests)
  | _, _, [] => .isTrue trivial
  | client, c, request :: requests =>
    have := instDecidableEachSubmit P (client.submit c request).2.1
      (client.submit c request).2.2 requests
    inferInstanceAs (Decidable (_ ∧ _))

/-- **Run lemma.** -/
theorem Kept.submits [PlainJournal J] (h : Kept client c) (requests : List CreditRequest)
    (hkeeps : EachSubmit KeepsPlace client c requests) :
    ∀ o ∈ client.submits c requests, InPlace o.status := by
  induction requests generalizing client c with
  | nil => exact fun o ho => absurd ho List.not_mem_nil
  | cons request requests ih =>
    obtain ⟨hnow, hlater⟩ := hkeeps
    have hstep := submit_kept h hnow
    intro o ho
    rw [submits_cons] at ho
    generalize client.submit c request = result at hstep hlater ho
    obtain ⟨outcome, client', c'⟩ := result
    rcases List.mem_cons.mp ho with hfirst | hrest
    · rw [hfirst]
      exact hstep.1
    · exact ih hstep.2 hlater o hrest

/-- **A client keeps its place.**  It is never refused for the place of an attempt, as long as
    its counter does for every account it is taken to. -/
theorem submits_inPlace [PlainJournal J] (hsole : Sole client c) (hplaced : client.placed = false)
    (requests : List CreditRequest) (hkeeps : EachSubmit KeepsPlace client c requests) :
    ∀ o ∈ client.submits c requests, refusesPlace o.status.reason = false := by
  have hstart : Kept client c :=
    ⟨hsole, fun _ _ h => absurd (hplaced.symm.trans h) (by decide)⟩
  exact hstart.submits requests hkeeps

/-- A coordinator that has booted over an empty journal and served requests under other
    identities. -/
theorem Sole.of_boot {limits : EngineLimits} {journal j' : J} {operator : Incarnation}
    {nonce : Digest128} (hempty : Yields journal none [] j') {history : List CreditRequest}
    (hengine : c.server.engine = (boot limits journal operator nonce).run history)
    (hhistory : ∀ r ∈ history, ¬ client.Ahead r.attempt) (hwhole : c.deliveries = [])
    (hothers : ∀ batch ∈ c.server.waiting, ∀ r ∈ batch,
      r.presenter.id ≠ client.incarnation.id ∧ ¬ client.Ahead r.attempt) : Sole client c := by
  obtain ⟨e', heq, haccounts, -⟩ :=
    recover_of_empty (e := make limits journal operator nonce) hempty
  have hnone : ∀ (key : UInt64) (a : AccountState),
      (boot limits journal operator nonce).accounts[key]? ≠ some a := by
    intro key a ha
    unfold boot at ha
    rw [heq, haccounts, ExtTreeMap.getElem?_empty] at ha
    cases ha
  have hwindowed : AllWindowed (boot limits journal operator nonce).accounts :=
    fun key a ha => absurd ha (hnone key a)
  refine ⟨hwhole, hothers, ?_, ?_⟩
  · rw [hengine]
    exact run_windowed hwindowed history
  · rw [hengine]
    exact run_unknown hwindowed hhistory fun key a ha => absurd ha (hnone key a)

end Submits

end CoordinatorClient

/-! ### Two accounts of one client -/

namespace TwoPlaces

open CoordinatorClient

/-- The nonce of the fixture's boot. -/
def nonce : Digest128 := ⟨5, 5⟩

/-- A client of the fixture's incarnation behind the handshake. -/
def client : CoordinatorClient :=
  { domain := Fixture.domain, incarnation := Fixture.me, challenge := nonce
    attempts := { streamSeed := 77 } }

/-- An operation of the client on an account of capacity 8. -/
def call (account : AccountId) (op : OpKind) : CreditRequest :=
  { op, authority := { account }, count := 1, resource := Fixture.resource
    config := { Fixture.config with account } }

/-- A fresh coordinator; `waiting` are the requests of others. -/
def coordinator (waiting : List (List CreditRequest)) : Connection InMemoryJournal where
  server := { engine := Fixture.boot {} {} nonce, waiting }
  maxNoteBytes := 128

/-- Two accounts are opened; then the first one is used twice, and the second one once. -/
def alternating : List CreditRequest :=
  [call 1 .open_, call 2 .open_, call 1 .issue, call 1 .issue, call 2 .issue]

/-- The first id has been drawn. -/
theorem ahead_ne_zeroth {client : CoordinatorClient} :
    ¬ client.Ahead (AttemptIdGenerator.issued client.attempts.streamSeed 0) := by
  rintro ⟨n, hlow, hhigh, hid⟩
  have hzero : (0 : UInt64) = UInt64.ofNat n := AttemptIdGenerator.issued_injective _ hid
  have hnat := congrArg UInt64.toNat hzero
  rw [UInt64.toNat_ofNat', Nat.mod_eq_of_lt hhigh] at hnat
  have hn : 0 = n := hnat
  omega

/-- The client of the fixture is alone on its account. -/
theorem coordinator_sole {waiting : List (List CreditRequest)}
    (hothers : ∀ batch ∈ waiting, ∀ r ∈ batch,
      r.presenter.id ≠ client.incarnation.id ∧ ¬ client.Ahead r.attempt) :
    Sole client (coordinator waiting) := by
  have hempty : Yields ({} : InMemoryJournal) none [] { replaying := false } :=
    ⟨_, _, _, _, rfl, rfl, rfl, .done rfl, rfl⟩
  have hengine : (coordinator waiting).server.engine =
      (boot {} ({} : InMemoryJournal) Fixture.me nonce).run [] := rfl
  exact Sole.of_boot hempty hengine (fun r hr => absurd hr List.not_mem_nil) rfl hothers

/-- The client is refused on the second account for the watermark of the first one. -/
theorem alternating_gapped : Sole client (coordinator []) ∧ client.placed = false ∧
    (client.submits (coordinator []) alternating).map (fun o => o.status) =
      [.success, .success, .success, .success, .refused .sequenceGap 2] ∧
    refusesPlace .sequenceGap = true :=
  ⟨coordinator_sole nofun, rfl, by decide +kernel, rfl⟩

/-- Another incarnation that reconciles on the first account. -/
def stranger : CreditRequest :=
  let who := Incarnation.make 9 9
  let authority : AuthorityVector :=
    { domain := Fixture.domain, account := 1, epoch := 1, generation := 1, incarnation := who.id }
  { attempt := AttemptIdGenerator.issued client.attempts.streamSeed 0, op := .reconcile
    sequence := 1, authority, presenter := who
    proof := (ReconciliationChallenge.mk nonce).prove who authority }

/-- The first account is left before the second one has a watermark. -/
def inTurn : List CreditRequest :=
  [call 1 .open_, call 1 .issue, call 2 .open_, call 2 .issue, call 1 .issue]

/-- The submits in turn are answered in place. -/
theorem inTurn_inPlace :
    (client.submits (coordinator [[], [stranger]]) inTurn).filter
      (fun o => refusesPlace o.status.reason) = [] := by
  have hsole : Sole client (coordinator [[], [stranger]]) := by
    refine coordinator_sole ?_
    intro batch hbatch r hr
    have hr' : r = stranger := by
      simp only [List.mem_cons, List.not_mem_nil, or_false] at hbatch
      rcases hbatch with rfl | rfl
      · exact absurd hr List.not_mem_nil
      · exact List.mem_singleton.mp hr
    rw [hr']
    exact ⟨by decide, ahead_ne_zeroth⟩
  refine List.filter_eq_nil_iff.mpr fun o ho => ?_
  rw [submits_inPlace hsole rfl inTurn (by decide +kernel) o ho]
  exact Bool.false_ne_true

end TwoPlaces

end CreditFabric
