import VRJuggler.Base.Hierarchy

/-!
# Cursors over lists

A cursor stands before a list or on one of its elements, and is moved and asked about the elements
around it. Something else that is moved and asked in the same way behaves like the cursor when
what one call answers, and the state that it leaves, are related to those of the cursor.
-/
namespace VRJuggler

variable {σ τ ω α : Type}

/-! ## Answers -/

/-- What the calls answer, one after the other. -/
def answers (step : σ → ω → Option (α × σ)) : σ → List ω → Option (List α)
  | _, [] => some []
  | s, o :: os => (step s o).bind fun answer => (answers step answer.2 os).map (answer.1 :: ·)

/-- The same where every call is answered. -/
def totalAnswers (step : τ → ω → α × τ) : τ → List ω → List α
  | _, [] => []
  | t, o :: os => (step t o).1 :: totalAnswers step (step t o).2 os

/-- Every call that the run tries is made in a state in which `ok` allows it. -/
def AllowedCalls (step : Nat → σ → ω → Option (α × σ)) (ok : σ → ω → Prop) : σ → List ω → Prop
  | _, [] => True
  | s, o :: os => ok s o ∧ ∀ a t, Returns (step · s o) (a, t) → AllowedCalls step ok t os

theorem allowedCalls_cons {step : Nat → σ → ω → Option (α × σ)} {ok : σ → ω → Prop} {s t : σ}
    {o : ω} {os : List ω} {a : α} (first : Returns (step · s o) (a, t)) :
    AllowedCalls step ok s (o :: os) ↔ ok s o ∧ AllowedCalls step ok t os := by
  constructor
  · rintro ⟨here, later⟩
    exact ⟨here, later a t first⟩
  · rintro ⟨here, later⟩
    refine ⟨here, fun b u returns => ?_⟩
    cases first.unique returns
    exact later

/-- Where each call that is allowed answers as that of the other system and leads to a related
state, all calls are answered so. -/
theorem answers_of_simulates {step : Nat → σ → ω → Option (α × σ)} {other : τ → ω → α × τ}
    {ok : σ → ω → Prop} (R : σ → τ → Prop)
    (simulates : ∀ s t o, R s t → ok s o →
      ∃ s', Returns (step · s o) ((other t o).1, s') ∧ R s' (other t o).2)
    {s : σ} {t : τ} (related : R s t) {os : List ω} (allowed : AllowedCalls step ok s os) :
    Returns (fun depth => answers (step depth) s os) (totalAnswers other t os) := by
  induction os generalizing s t with
  | nil => exact .of_some _
  | cons o os ih =>
    obtain ⟨here, later⟩ := allowed
    obtain ⟨s', first, next⟩ := simulates s t o related here
    exact first.bind ((ih next (later _ s' first)).map ((other t o).1 :: ·))

/-! ## The cursor -/

namespace Cursor

inductive Call where
  | hasNext
  | next
  | hasPrevious
  | previous

/-- There is an element, or the one that was moved to, if any. -/
inductive Answer (α : Type) where
  | exists (b : Bool)
  | element (x : Option α)
  deriving DecidableEq

variable (l : List α)

/-- The number of elements that the cursor has come to. It stands on the last of them. -/
def step (passed : Nat) : Call → Answer α × Nat
  | .hasNext => (.exists (passed < l.length), passed)
  | .next =>
    if passed < l.length then (.element l[passed]?, passed + 1) else (.element none, passed)
  | .hasPrevious => (.exists (2 ≤ passed), passed)
  | .previous =>
    if 2 ≤ passed then (.element l[passed - 2]?, passed - 1) else (.element none, passed)

variable {l} {passed : Nat}

/-- What is ahead tells what the next element is. -/
theorem step_next {ahead : List α} (here : ahead = l.drop passed) :
    step l passed .next =
      (.element ahead.head?, if passed < l.length then passed + 1 else passed) := by
  rw [here, List.head?_drop, step]
  split
  · rfl
  next none' => rw [List.getElem?_eq_none (Nat.le_of_not_lt none')]

/-- What is ahead of the current element, and the two before that. -/
theorem step_previous {front ahead : List α} {x y : α} (parts : l = front ++ x :: y :: ahead)
    (here : ahead = l.drop passed) (inside : passed ≤ l.length) :
    step l passed .previous = (.element (some x), passed - 1) ∧
      y :: ahead = l.drop (passed - 1) := by
  have sizes := congrArg List.length here
  rw [List.length_drop, parts, List.length_append, List.length_cons, List.length_cons] at sizes
  rw [parts, List.length_append, List.length_cons, List.length_cons] at inside
  have place : passed = front.length + 2 := by omega
  subst place parts
  constructor
  · simp [step]
  · rw [Nat.add_sub_assoc (by decide), List.drop_append, List.drop_eq_nil_of_le (by omega)]
    simp

end Cursor

end VRJuggler
