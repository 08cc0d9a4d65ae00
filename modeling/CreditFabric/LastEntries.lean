import CreditFabric.Lib.Latest
import CreditFabric.Bounds

namespace CreditFabric

open Std (ExtTreeMap)

/-!
# What the window and the refusal log remember

Both bounded histories of an account keep exactly the latest entries that fit:

* the window, whose queue, key index and attempt index are written one after the other,
  describes one list of entries (`Describes`), and an insertion of a new key and a new attempt
  is one step of the queue `Lib.latest_concat` (`Describes.insert`);
* the refusal log first grows and then is a ring with a cursor, one step of which is
  `Lib.rotate_set` (`Logged.reads`).  Every account of a running engine has such a log
  (`apply_logs`).
-/

/-! ### The window -/

namespace AttemptWindow

/-- The queue and both indexes describe the same entries. -/
structure Describes (w : AttemptWindow) (entries : List WindowEntry) : Prop where
  order : w.order = entries.map WindowEntry.key
  keys : ∀ k entry, w.byKey[k]? = some entry ↔ entry ∈ entries ∧ entry.key = k
  attempts : ∀ id k, w.byAttempt[id]? = some k ↔
    ∃ entry ∈ entries, entry.attempt = id ∧ entry.key = k

/-- A described window is indexed. -/
theorem Describes.indexed {w : AttemptWindow} {entries : List WindowEntry}
    (h : w.Describes entries) (hlimit : 1 ≤ w.limit)
    (hkeys : (entries.map WindowEntry.key).Nodup) : w.Indexed where
  limit := hlimit
  nodup := by
    rw [h.order]
    exact hkeys
  found k hk := by
    rw [h.order] at hk
    obtain ⟨entry, hentry, hkey⟩ := List.mem_map.mp hk
    exact ⟨entry, (h.keys k entry).mpr ⟨hentry, hkey⟩⟩
  listed k entry hk := by
    obtain ⟨hentry, hkey⟩ := (h.keys k entry).mp hk
    rw [h.order, ← hkey]
    exact List.mem_map_of_mem hentry

/-- **One insertion.**  With a new key and a new attempt the window goes on to describe the
    latest entries. -/
theorem Describes.insert {w : AttemptWindow} {entries : List WindowEntry}
    (h : w.Describes entries) (hlimit : 1 ≤ w.limit) {entry : WindowEntry}
    (hkeys : ((entries ++ [entry]).map WindowEntry.key).Nodup)
    (hattempts : ((entries ++ [entry]).map WindowEntry.attempt).Nodup) :
    (w.insert entry).Describes
      (entries.drop (entries.length + 1 - w.limit) ++ [entry]) := by
  have hfresh : entry.key ∉ w.order := by
    rw [h.order]
    intro hmem
    obtain ⟨x, hx, hkey⟩ := List.mem_map.mp hmem
    exact Lib.key_ne_of_split hkeys hx (List.mem_singleton.mpr rfl) hkey
  have hold : (entries.map WindowEntry.key).Nodup :=
    hkeys.sublist ((List.sublist_append_left _ _).map _)
  have hindexed := h.indexed hlimit hold
  obtain ⟨horder, -, hbyKey, hbyAttempt⟩ := insert_spec hindexed hfresh
  have hlength : w.order.length = entries.length := by rw [h.order, List.length_map]
  rw [hlength, h.order, ← List.map_take] at hbyKey hbyAttempt
  rw [hlength, h.order, ← List.map_drop] at horder
  -- the entries that go and the ones that stay
  have hsplit := List.take_append_drop (entries.length + 1 - w.limit) entries
  generalize entries.take (entries.length + 1 - w.limit) = gone at *
  generalize entries.drop (entries.length + 1 - w.limit) = kept at *
  subst hsplit
  refine ⟨?_, fun k x => ?_, fun id k => ?_⟩
  · rw [horder, List.map_append, List.map_singleton]
  · have hleaves : k ∈ gone.map WindowEntry.key ↔ ∃ y ∈ gone, y.key = k := List.mem_map
    rw [hbyKey, Lib.found_iff hkeys x k]
    simp only [hleaves]
    by_cases hgone : ∃ y ∈ gone, y.key = k
    · rw [if_pos hgone]
      exact ⟨fun hnone => absurd hnone (by simp), fun hstays => absurd hgone hstays.1⟩
    rw [if_neg hgone]
    by_cases hnew : k = entry.key
    · rw [if_pos hnew, Option.some.injEq]
      exact ⟨fun heq => ⟨hgone, .inl ⟨hnew, heq.symm⟩⟩,
        fun hfound => (hfound.2.resolve_right fun hold => hold.1 hnew).2.symm⟩
    · rw [if_neg hnew, h.keys]
      exact ⟨fun hold => ⟨hgone, .inr ⟨hnew, hold⟩⟩,
        fun hfound => (hfound.2.resolve_left fun hlast => hnew hlast.1).2⟩
  · -- the attempts that go are those of the entries that go
    have hleaves : (∃ key ∈ gone.map WindowEntry.key,
          (w.byKey[key]?).map WindowEntry.attempt = some id) ↔
        ∃ y ∈ gone, y.attempt = id := by
      have hindexedAt : ∀ y ∈ gone, w.byKey[y.key]? = some y := fun y hy =>
        (h.keys y.key y).mpr ⟨List.mem_append_left _ hy, rfl⟩
      constructor
      · rintro ⟨key, hkey, hid⟩
        obtain ⟨y, hy, rfl⟩ := List.mem_map.mp hkey
        rw [hindexedAt y hy, Option.map_some, Option.some.injEq] at hid
        exact ⟨y, hy, hid⟩
      · rintro ⟨y, hy, rfl⟩
        exact ⟨y.key, List.mem_map_of_mem hy, by rw [hindexedAt y hy, Option.map_some]⟩
    have hfound : (∃ x ∈ kept ++ [entry], x.attempt = id ∧ x.key = k) ↔
        ∃ x, (x ∈ kept ++ [entry] ∧ x.attempt = id) ∧ x.key = k :=
      exists_congr fun x => and_assoc.symm
    rw [hbyAttempt, hfound]
    simp only [hleaves, Lib.found_iff hattempts _ id]
    by_cases hgone : ∃ y ∈ gone, y.attempt = id
    · rw [if_pos hgone]
      refine ⟨fun hnone => absurd hnone (by simp), ?_⟩
      rintro ⟨x, hstays, -⟩
      exact absurd hgone hstays.1
    rw [if_neg hgone]
    by_cases hnew : id = entry.attempt
    · rw [if_pos hnew, Option.some.injEq]
      refine ⟨fun hkey => ⟨entry, ⟨hgone, .inl ⟨hnew, rfl⟩⟩, hkey⟩, ?_⟩
      rintro ⟨x, ⟨-, ⟨-, rfl⟩ | ⟨hold, -⟩⟩, hkey⟩
      · exact hkey
      · exact absurd hnew hold
    · rw [if_neg hnew, h.attempts]
      constructor
      · rintro ⟨x, hx, hid, hkey⟩
        exact ⟨x, ⟨hgone, .inr ⟨hnew, hx, hid⟩⟩, hkey⟩
      · rintro ⟨x, ⟨-, ⟨hlast, -⟩ | ⟨-, hx, hid⟩⟩, hkey⟩
        · exact absurd hlast hnew
        · exact ⟨x, hx, hid, hkey⟩

/-- Eviction keeps the limit. -/
theorem limit_evict (limit : Nat) (queue : List WindowKey)
    (byKey : ExtTreeMap WindowKey WindowEntry) (byAttempt : ExtTreeMap AttemptId WindowKey) :
    (evict limit queue byKey byAttempt).limit = limit := by
  induction queue generalizing byKey byAttempt with
  | nil => rfl
  | cons oldest rest ih =>
    unfold evict
    by_cases hlong : rest.length + 1 > limit
    · rw [if_pos hlong]
      cases byKey[oldest]? with
      | none => exact ih _ _
      | some entry => exact ih _ _
    · rw [if_neg hlong]

/-- **Many insertions.**  From an empty window, new keys and new attempts leave the latest
    entries that fit. -/
private theorem describes_latest {limit : Nat} (hlimit : 1 ≤ limit) (entries : List WindowEntry)
    (hkeys : (entries.map WindowEntry.key).Nodup)
    (hattempts : (entries.map WindowEntry.attempt).Nodup) :
    (entries.foldl insert (make limit)).Describes (Lib.latest limit entries) ∧
      (entries.foldl insert (make limit)).limit = limit := by
  -- induction on the number of insertions
  induction entries using List.reverseRecOn with
  | nil =>
    rw [Lib.latest_nil]
    refine ⟨⟨rfl, fun k entry => ?_, fun id k => ?_⟩, if_neg (by omega)⟩
    · simp [make]
    · simp [make]
  | append_singleton entries entry ih =>
    have hsub : entries.Sublist (entries ++ [entry]) := List.sublist_append_left _ _
    obtain ⟨hdescribes, hmade⟩ := ih (hkeys.sublist (hsub.map _)) (hattempts.sublist (hsub.map _))
    have hlatest := Lib.latest_sublist limit entries
    have hpart : (Lib.latest limit entries ++ [entry]).Sublist (entries ++ [entry]) :=
      hlatest.append_right _
    have hnext := hdescribes.insert (by rw [hmade]; exact hlimit)
      (hkeys.sublist (hpart.map _)) (hattempts.sublist (hpart.map _))
    rw [hmade, ← Lib.latest_concat hlimit] at hnext
    rw [List.foldl_append, List.foldl_cons, List.foldl_nil]
    exact ⟨hnext, (limit_evict _ _ _ _).trans hmade⟩

/-- **The window is the map of the latest entries.**  Whatever new keys and new attempts are
    inserted one after the other, the queue lists the keys of the latest entries that fit, the
    oldest first, and these entries and no others are found by their keys and attempts. -/
theorem keeps_latest {limit : Nat} (hlimit : 1 ≤ limit) (entries : List WindowEntry)
    (hkeys : (entries.map WindowEntry.key).Nodup)
    (hattempts : (entries.map WindowEntry.attempt).Nodup) :
    let w := entries.foldl insert (make limit)
    let kept := Lib.latest limit entries
    kept.length = min entries.length limit ∧
    w.order = kept.map WindowEntry.key ∧ w.order.Nodup ∧
    (∀ k entry, w.find k = some entry ↔ entry ∈ kept ∧ entry.key = k) ∧
    (∀ id entry, w.findByAttempt id = some entry ↔ entry ∈ kept ∧ entry.attempt = id) ∧
    w.identities = kept.map fun entry => (entry.key.incarnation, entry.key.sequence) := by
  intro w kept
  obtain ⟨hdescribes, -⟩ := describes_latest hlimit entries hkeys hattempts
  change w.Describes kept at hdescribes
  have hsub : kept.Sublist entries := Lib.latest_sublist limit entries
  have hkept : (kept.map WindowEntry.key).Nodup := hkeys.sublist (hsub.map _)
  refine ⟨Lib.length_latest limit entries, hdescribes.order, ?_, hdescribes.keys,
    fun id entry => ?_, ?_⟩
  · rw [hdescribes.order]
    exact hkept
  · unfold findByAttempt find
    constructor
    · intro hfound
      cases hk : w.byAttempt[id]? with
      | none =>
        rw [hk] at hfound
        exact absurd hfound (by simp)
      | some k =>
        rw [hk] at hfound
        obtain ⟨hentry, hkey⟩ := (hdescribes.keys k entry).mp hfound
        obtain ⟨other, hother, hid, hkey'⟩ := (hdescribes.attempts id k).mp hk
        -- the attempt index names a key, and the key belongs to one entry
        have hsame : entry = other :=
          List.inj_on_of_nodup_map hkept hentry hother (hkey.trans hkey'.symm)
        exact ⟨hentry, hsame ▸ hid⟩
    · rintro ⟨hentry, hid⟩
      rw [(hdescribes.attempts id entry.key).mpr ⟨entry, hentry, hid, rfl⟩]
      exact (hdescribes.keys entry.key entry).mpr ⟨hentry, rfl⟩
  · unfold identities
    rw [hdescribes.order, List.map_map]
    rfl

end AttemptWindow

namespace ThreeDecisions

/-- A decision of the incarnation 7. -/
def decision (sequence attempt : UInt64) : WindowEntry :=
  { key := ⟨7, sequence⟩, attempt := ⟨attempt, attempt⟩ }

/-- Three decisions for a window of two places. -/
def decisions : List WindowEntry := [decision 1 11, decision 2 12, decision 3 13]

/-- A window for two of three decisions. -/
theorem two_kept :
    let w := decisions.foldl AttemptWindow.insert (.make 2)
    let kept := Lib.latest 2 decisions
    kept.length = min decisions.length 2 ∧
    w.order = kept.map WindowEntry.key ∧ w.order.Nodup ∧
    (∀ k entry, w.find k = some entry ↔ entry ∈ kept ∧ entry.key = k) ∧
    (∀ id entry, w.findByAttempt id = some entry ↔ entry ∈ kept ∧ entry.attempt = id) ∧
    w.identities = kept.map fun entry => (entry.key.incarnation, entry.key.sequence) :=
  AttemptWindow.keeps_latest (by decide) decisions (by decide) (by decide)

end ThreeDecisions

/-! ### The refusal log -/

namespace AccountState

/-- What the log notes of a refusal. -/
def refusalNote (a : AccountState) (r : CreditRequest) (outcome : CreditOutcome) : RefusalNote :=
  { attempt := r.attempt, op := r.op, sequence := r.sequence,
    incarnation := r.authority.incarnation, reason := outcome.status.reason,
    detail := outcome.status.detail, epoch := a.epoch, generation := a.generation }

/-- `Logged m a notes`: the log of `a` began empty, and these are the notes of the refusals that
    were recorded since then, the oldest first.  Between two of them the rest of the account may
    change in any way. -/
inductive Logged (m : Nat) : AccountState → List RefusalNote → Prop
  | empty {a : AccountState} (log : a.refusals = []) (cursor : a.refusalCursor = 0) :
      Logged m a []
  | recorded {a : AccountState} {notes : List RefusalNote} (h : Logged m a notes)
      (r : CreditRequest) (outcome : CreditOutcome) :
      Logged m (a.recordRefusal m r outcome) (notes ++ [a.refusalNote r outcome])
  | changed {a b : AccountState} {notes : List RefusalNote} (h : Logged m a notes)
      (log : b.refusals = a.refusals) (cursor : b.refusalCursor = a.refusalCursor) :
      Logged m b notes

/-- The log and the cursor behind the recorded notes. -/
structure Ring (m : Nat) (a : AccountState) (notes : List RefusalNote) : Prop where
  length : a.refusals.length = min notes.length m
  growing : notes.length ≤ m → a.refusalCursor = 0
  cursor : a.refusalCursor < m
  reading : a.refusals.rotate a.refusalCursor = Lib.latest m notes

/-- **One refusal.**  While there is room the log grows at its end; then the note under the
    cursor, the oldest, is overwritten. -/
theorem Ring.record {m : Nat} {a : AccountState} {notes : List RefusalNote}
    (h : Ring m a notes) (r : CreditRequest) (outcome : CreditOutcome) :
    Ring m (a.recordRefusal m r outcome) (notes ++ [a.refusalNote r outcome]) := by
  have hlength := h.length
  have hcursor := h.cursor
  have hconcat := Lib.latest_concat (by omega : 1 ≤ m) notes (a.refusalNote r outcome)
  have hlast : (notes ++ [a.refusalNote r outcome]).length = notes.length + 1 := by
    rw [List.length_append, List.length_singleton]
  unfold recordRefusal
  -- the buffer still grows, or its oldest note is overwritten
  by_cases hroom : a.refusals.length < m
  · have hzero : a.refusalCursor = 0 := h.growing (by omega)
    have hreading := h.reading
    rw [hzero, List.rotate_zero] at hreading
    simp only [if_pos hroom]
    refine ⟨?_, fun _ => hzero, hcursor, ?_⟩
    · show (a.refusals ++ [_]).length = _
      rw [hlast, List.length_append, List.length_singleton]
      omega
    · show (a.refusals ++ [a.refusalNote r outcome]).rotate a.refusalCursor = _
      rw [hzero, List.rotate_zero, hconcat, ← hreading,
        Nat.sub_eq_zero_of_le (by omega), List.drop_zero]
  · have hfull : a.refusals.length = m := by omega
    have hplace : a.refusalCursor % m = a.refusalCursor := Nat.mod_eq_of_lt hcursor
    simp only [if_neg hroom]
    refine ⟨?_, fun hfits => ?_, Nat.mod_lt _ (by omega), ?_⟩
    · show (a.refusals.set _ _).length = _
      rw [List.length_set, hlast]
      omega
    · rw [hlast] at hfits
      omega
    · show (a.refusals.set (a.refusalCursor % m) (a.refusalNote r outcome)).rotate
        ((a.refusalCursor + 1) % m) = _
      have hinside : a.refusalCursor < a.refusals.length := by omega
      have hring := Lib.rotate_set hinside (a.refusalNote r outcome)
      rw [hfull] at hring
      -- one note more than the ring holds
      have hone : (Lib.latest m notes).length + 1 - m = 1 := by
        rw [Lib.length_latest]
        omega
      rw [hplace, hring, h.reading, hconcat, hone]

/-- A log of notes is a ring of the latest. -/
theorem Logged.ring {m : Nat} (hm : 1 ≤ m) {a : AccountState} {notes : List RefusalNote}
    (h : Logged m a notes) : Ring m a notes := by
  induction h with
  | empty log cursor =>
    refine ⟨?_, fun _ => cursor, ?_, ?_⟩
    · rw [log, List.length_nil, Nat.zero_min]
    · rw [cursor]
      exact hm
    · rw [log, List.rotate_nil, Lib.latest_nil]
  | recorded _ r outcome ih => exact ih.record r outcome
  | changed _ log cursor ih =>
    refine ⟨?_, fun hfits => ?_, ?_, ?_⟩
    · rw [log]
      exact ih.length
    · rw [cursor]
      exact ih.growing hfits
    · rw [cursor]
      exact ih.cursor
    · rw [log, cursor]
      exact ih.reading

/-- **The log keeps the latest refusals.**  It holds as many of the last notes as fit, and
    reading it in a circle from the cursor lists them, the oldest first. -/
theorem Logged.reads {m : Nat} (hm : 1 ≤ m) {a : AccountState} {notes : List RefusalNote}
    (h : Logged m a notes) :
    a.refusals.length = min notes.length m ∧
    a.refusals.Perm (Lib.latest m notes) ∧
    a.refusals.rotate a.refusalCursor = Lib.latest m notes := by
  have hring := h.ring hm
  refine ⟨hring.length, ?_, hring.reading⟩
  rw [← hring.reading]
  exact (List.rotate_perm _ _).symm

end AccountState

namespace CreditEngine

variable {J : Type}

/-- Every account has a log that began empty. -/
def Logs (m : Nat) (accounts : ExtTreeMap UInt64 AccountState) : Prop :=
  Everywhere (fun _ a => ∃ notes, a.Logged m notes) accounts

/-- No decision touches the log. -/
theorem decision_logged (e : CreditEngine J) {m : Nat} {a : AccountState} (r : CreditRequest)
    {notes : List RefusalNote} (h : a.Logged m notes) :
    (e.decision a r).account.Logged m notes := by
  rcases e.decision_cases a r with ⟨hcase, -⟩ | ⟨hcase, -⟩ | ⟨hcase, -⟩ <;>
    generalize e.decision a r = d at hcase ⊢
  · cases hcase <;> exact h.changed rfl rfl
  · cases hcase <;> exact h.changed rfl rfl
  · cases hcase <;> exact h.changed rfl rfl

/-- A published entry is no note. -/
theorem publishWindow_logged {m : Nat} {a : AccountState} {notes : List RefusalNote}
    (h : a.Logged m notes) (r : CreditRequest) (o : CreditOutcome) :
    (a.publishWindow r o).Logged m notes := by
  rw [AccountState.publishWindow_eq]
  exact h.changed rfl rfl

/-- The count of a commit is no note. -/
theorem countCommitted_logged {m : Nat} {a : AccountState} {notes : List RefusalNote}
    (h : a.Logged m notes) (caller : IncarnationId) :
    (countCommitted a caller).Logged m notes := by
  unfold countCommitted
  rw [AccountState.updateIncarnation_eq]
  exact h.changed rfl rfl

/-- Nor is the count of a refusal. -/
private theorem countRefused_logged {m : Nat} {a : AccountState} {notes : List RefusalNote}
    (h : a.Logged m notes) (caller : IncarnationId) :
    (countRefused a caller).Logged m notes := by
  unfold countRefused
  rw [AccountState.updateIncarnation_eq]
  exact h.changed rfl rfl

/-- **One call.**  A refused attempt records one note; nothing else touches a log. -/
theorem apply_logs [Journal J] {e : CreditEngine J} (h : Logs e.limits.maxRefusalLog e.accounts)
    (r : CreditRequest) : Logs (e.apply r).2.limits.maxRefusalLog (e.apply r).2.accounts := by
  rw [(apply_sameConfig e r).limits]
  have hdecision : ∀ {a : AccountState}, Admitted e r a →
      ∃ notes, (e.decision a r).account.Logged e.limits.maxRefusalLog notes := fun hadmitted =>
    (h _ _ hadmitted.found).imp fun _ hlogged => decision_logged e r hlogged
  have hleads := apply_leads e r
  generalize (e.apply r).2.accounts = accounts at hleads
  cases hleads with
  -- only a decided refusal adds a note
  | same => exact h
  | rejected a hadmitted s a' hd =>
    have ha' := hdecision hadmitted
    rw [hd] at ha'
    exact h.insert ha'
  | opened hopens =>
    refine h.insert ⟨[], publishWindow_logged (.empty rfl rfl) r _⟩
  | refused a hadmitted s a' hd =>
    obtain ⟨notes, ha'⟩ := hdecision hadmitted
    rw [hd] at ha'
    have hcounted := countRefused_logged ha' r.authority.incarnation
    have hpublished := publishWindow_logged hcounted r (refusalOutcome a r s a')
    exact h.insert ⟨_, hpublished.recorded r (refusalOutcome a r s a')⟩
  | refusalUndone a hadmitted s a' hd =>
    have ha' := hdecision hadmitted
    rw [hd] at ha'
    exact h.insert ha'
  | applied a hadmitted a' hd =>
    obtain ⟨notes, ha'⟩ := hdecision hadmitted
    rw [hd] at ha'
    have hcounted := countCommitted_logged ha' r.authority.incarnation
    exact h.insert ⟨notes, publishWindow_logged hcounted r _⟩
  | undone a hadmitted a' hd =>
    obtain ⟨notes, ha'⟩ := hdecision hadmitted
    rw [hd] at ha'
    have hcounted := countCommitted_logged ha' r.authority.incarnation
    exact h.insert ⟨notes, hcounted.changed rfl rfl⟩

end CreditEngine

namespace ThreeRefusals

open AccountState

/-- An account with nothing in its log. -/
def account : AccountState := { window := .make 1 }

/-- An attempt that is refused. -/
def refusal (sequence : UInt64) : CreditRequest := { sequence }

/-- A log for two of three refusals. -/
theorem two_logged :
    let a := ((account.recordRefusal 2 (refusal 1) {}).recordRefusal 2 (refusal 2) {}).recordRefusal
      2 (refusal 3) {}
    let notes := [1, 2, 3].map fun sequence => account.refusalNote (refusal sequence) {}
    a.refusals.length = min notes.length 2 ∧ a.refusals.Perm (Lib.latest 2 notes) ∧
      a.refusals.rotate a.refusalCursor = Lib.latest 2 notes :=
  Logged.reads (by decide)
    ((((Logged.empty rfl rfl).recorded (refusal 1) {}).recorded (refusal 2) {}).recorded
      (refusal 3) {})

end ThreeRefusals

end CreditFabric
