import Mathlib.Data.List.Infix

namespace CreditFabric.Lib

/-!
# Objects that are shared

A deterministic object answers calls one after the other.  Whoever shares it sees the answers to
the own calls only; the log of a shared object has every call with the name of its caller, and
what one caller sees is computed from the log (`callsOf`, `answersOf`).

* `final`, `answers`: the state behind a list of calls and the answers on the way.
-/

variable {σ ι ο κ : Type}

/-- The state behind a list of calls. -/
def final (step : σ → ι → ο × σ) (s : σ) (calls : List ι) : σ :=
  calls.foldl (fun s i => (step s i).2) s

/-- The answers to a list of calls. -/
def answers (step : σ → ι → ο × σ) : σ → List ι → List ο
  | _, [] => []
  | s, i :: calls => (step s i).1 :: answers step (step s i).2 calls

variable (step : σ → ι → ο × σ) (s : σ)

/-- The state behind no calls. -/
@[simp] theorem final_nil : final step s [] = s := rfl

/-- The state behind one call and then others. -/
@[simp] theorem final_cons (i : ι) (calls : List ι) :
    final step s (i :: calls) = final step (step s i).2 calls := rfl

/-- The state behind some calls and then others. -/
theorem final_append (calls more : List ι) :
    final step s (calls ++ more) = final step (final step s calls) more := List.foldl_append

/-- The state behind one call more. -/
theorem final_concat (calls : List ι) (i : ι) :
    final step s (calls ++ [i]) = (step (final step s calls) i).2 := final_append step s calls [i]

/-- The answers to some calls and then others. -/
theorem answers_append (calls more : List ι) :
    answers step s (calls ++ more) =
      answers step s calls ++ answers step (final step s calls) more := by
  induction calls generalizing s with
  | nil => rfl
  | cons i calls ih =>
    rw [List.cons_append, answers, ih, answers, List.cons_append]
    rfl

/-- One call more is one answer more. -/
theorem answers_concat (calls : List ι) (i : ι) :
    answers step s (calls ++ [i]) =
      answers step s calls ++ [(step (final step s calls) i).1] := answers_append step s calls [i]

/-- There is one answer for each call. -/
@[simp] theorem length_answers (calls : List ι) :
    (answers step s calls).length = calls.length := by
  induction calls generalizing s with
  | nil => rfl
  | cons i calls ih => rw [answers, List.length_cons, ih, List.length_cons]

/-- The log of one more call, with its answer. -/
theorem zip_concat (log : List (κ × ι)) (call : κ × ι) :
    (log ++ [call]).zip (answers step s ((log ++ [call]).map Prod.snd)) =
      log.zip (answers step s (log.map Prod.snd)) ++
        [(call, (step (final step s (log.map Prod.snd)) call.2).1)] := by
  rw [List.map_append, List.map_cons, List.map_nil, answers_concat, List.zip_append (by simp)]
  rfl

/-! ### Callers -/

section Callers

variable [DecidableEq κ] (k : κ)

/-- The calls of one caller. -/
def callsOf (log : List (κ × ι)) : List ι :=
  (log.filter fun call => call.1 = k).map Prod.snd

/-- The answers that one caller gets. -/
def answersOf (log : List (κ × ι)) : List ο :=
  ((log.zip (answers step s (log.map Prod.snd))).filter fun call => call.1.1 = k).map Prod.snd

/-- Nobody has called. -/
@[simp] theorem callsOf_nil : callsOf k ([] : List (κ × ι)) = [] := rfl

/-- Nobody has an answer. -/
@[simp] theorem answersOf_nil : answersOf step s k [] = [] := rfl

/-- One more call of the caller. -/
theorem callsOf_concat_self (log : List (κ × ι)) (i : ι) :
    callsOf k (log ++ [(k, i)]) = callsOf k log ++ [i] := by
  simp [callsOf]

/-- One more call of somebody else. -/
theorem callsOf_concat_other {k' : κ} (h : k' ≠ k) (log : List (κ × ι)) (i : ι) :
    callsOf k (log ++ [(k', i)]) = callsOf k log := by
  simp [callsOf, h]

/-- The answer to one more call of the caller. -/
theorem answersOf_concat_self (log : List (κ × ι)) (i : ι) :
    answersOf step s k (log ++ [(k, i)]) =
      answersOf step s k log ++ [(step (final step s (log.map Prod.snd)) i).1] := by
  rw [answersOf, zip_concat, List.filter_append, List.map_append, answersOf]
  simp

/-- Somebody else gets the answer. -/
theorem answersOf_concat_other {k' : κ} (h : k' ≠ k) (log : List (κ × ι)) (i : ι) :
    answersOf step s k (log ++ [(k', i)]) = answersOf step s k log := by
  rw [answersOf, zip_concat, List.filter_append, List.map_append, answersOf]
  simp [h]

/-- One answer for one call. -/
theorem length_answersOf (log : List (κ × ι)) :
    (answersOf step s k log).length = (callsOf k log).length := by
  induction log using List.reverseRecOn with
  | nil => rfl
  | append_singleton log call ih =>
    obtain ⟨k', i⟩ := call
    by_cases h : k' = k
    · subst h
      rw [answersOf_concat_self, callsOf_concat_self, List.length_append, List.length_append, ih]
      rfl
    · rw [answersOf_concat_other step s k h, callsOf_concat_other k h, ih]

end Callers

end CreditFabric.Lib
