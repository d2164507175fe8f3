import VRJuggler.Tweek.WizardIterator

/-!
# The iterator of a wizard as a cursor

The iterator behaves like a cursor over the steps of the entered sequences while what it is asked
for is found where it looks: the items around the cursors on the stack hold steps, and the way back
leads to a step without entering a sequence or leaving one behind that is not at its first item.
-/
namespace VRJuggler.Tweek

variable {σ : Type} {wizard : List (WizardStep σ)}

/-- A sequence that is not entered. -/
def WizardStep.Skipped : WizardStep σ → Prop
  | .sequence _ false _ => True
  | _ => False

theorem flattenAll_skipped {steps : List (WizardStep σ)} (skips : ∀ step ∈ steps, step.Skipped) :
    flattenAll steps = [] := by
  induction steps with
  | nil => rfl
  | cons step steps ih =>
    match step, skips step (by simp) with
    | .sequence a false inner, _ => exact ih fun x member => skips x (by simp [member])

namespace WizardIterator

variable {s below above : WizardIterator σ} {itr itr' : Itr σ}

/-! ## The first step -/

/-- The number of steps ahead of the iterators of sequences up to a size. -/
def aheadUpTo (size : Nat) (s : WizardIterator σ) : Nat :=
  (s.map fun itr => if itemsIn itr.mSteps ≤ size then itr.ahead.length else 0).sum

theorem aheadUpTo_cons (size : Nat) : aheadUpTo size (itr :: s) =
    (if itemsIn itr.mSteps ≤ size then itr.ahead.length else 0) + aheadUpTo size s := by
  simp [aheadUpTo]

theorem aheadUpTo_le (size : Nat) : aheadUpTo size s ≤ (stepsAhead s).length := by
  induction s with
  | nil => simp [aheadUpTo]
  | cons itr s ih =>
    rw [aheadUpTo_cons, stepsAhead_cons, List.length_append]
    split <;> omega

theorem aheadUpTo_mono {size size' : Nat} (less : size ≤ size') :
    aheadUpTo size s ≤ aheadUpTo size' s := by
  induction s with
  | nil => simp [aheadUpTo]
  | cons itr s ih =>
    rw [aheadUpTo_cons, aheadUpTo_cons]
    split <;> split <;> omega

/-- The iterator of a larger sequence adds its own steps. -/
theorem add_aheadUpTo_le {size : Nat} (member : itr ∈ s) (larger : size < itemsIn itr.mSteps) :
    itr.ahead.length + aheadUpTo size s ≤ aheadUpTo (itemsIn itr.mSteps) s := by
  induction s with
  | nil => cases member
  | cons x s ih =>
    rw [aheadUpTo_cons, aheadUpTo_cons]
    rcases List.mem_cons.mp member with rfl | member
    · have rest := aheadUpTo_mono (s := s) (Nat.le_of_lt larger)
      rw [if_neg (Nat.not_le_of_lt larger), if_pos (Nat.le_refl _)]
      omega
    · have rest := ih member
      split <;> split <;> omega

/-- Where every iterator is at its first item, all steps but one are ahead. -/
theorem length_le_of_first (valid : Valid wizard s)
    (first : ∀ itr ∈ s, itr.hasPrevious = false) :
    (flattenAll wizard).length ≤ (stepsAhead s).length + 1 := by
  suffices all : ∀ n, ∀ itr ∈ s, itemsIn itr.mSteps ≤ n →
      (flattenAll itr.mSteps).length ≤ aheadUpTo (itemsIn itr.mSteps) s + 1 by
    obtain ⟨itr, member, same⟩ := List.mem_map.mp valid.root
    have here := all _ itr member (Nat.le_refl _)
    have total := aheadUpTo_le (s := s) (itemsIn itr.mSteps)
    rw [same] at here total
    omega
  intro n
  induction n using Nat.strongRecOn with
  | ind n ih =>
    intro itr member small
    have place : itr.mCursor = 0 := by simpa [Itr.hasPrevious] using first itr member
    cases items : itr.mSteps with
    | nil => simp
    | cons step rest =>
      have ahead : itr.ahead.length = (flattenAll rest).length := by
        simp [Itr.ahead, Itr.pending, place, items]
      have current : itr.current = some step := by simp [Itr.current, Itr.get, place, items]
      have positive := step.items_pos
      have size : itemsIn itr.mSteps = step.items + itemsIn rest := by rw [items, itemsIn]
      have own : itr.ahead.length + aheadUpTo 0 s ≤ _ := add_aheadUpTo_le member (by omega)
      rw [items] at own size
      cases step with
      | step a =>
        simp
        omega
      | sequence a shouldEnter inner =>
        cases shouldEnter with
        | false =>
          simp
          omega
        | true =>
          -- the sequence is on the stack, and its iterator at its first item as well
          obtain ⟨itr', member', rfl⟩ :=
            List.mem_map.mp (valid.entered itr member a inner current)
          have less : itemsIn itr'.mSteps < itemsIn itr.mSteps := by
            rw [items, size, WizardStep.items]
            omega
          have inside := ih _ (Nat.lt_of_lt_of_le less small) itr' member' (Nat.le_refl _)
          have both := add_aheadUpTo_le member less
          rw [items] at both
          simp
          omega

/-! ## Going back -/

/-! ## Going back -/

/-- Iterators with nothing more are passed over. -/
theorem wind_top {d : Direction σ} {r : Option σ × WizardIterator σ}
    (done : ∀ itr ∈ above, d.hasMore itr = false)
    (rest : Returns (wind d · (below ++ above) below.length) r) :
    Returns (wind d · (below ++ above) (below ++ above).length) r := by
  induction above generalizing below with
  | nil => simpa using rest
  | cons itr above ih =>
    have here := wind_of_none (done itr (by simp)) rest
    have rest' : Returns (wind d · ((below ++ [itr]) ++ above) (below ++ [itr]).length) r := by
      simpa using here
    have later := ih (fun x member => done x (by simp [member])) rest'
    simpa using later

theorem previous_spec {before after : List (WizardStep σ)} {step : WizardStep σ}
    (items : itr.mSteps = before ++ step :: after) (cursor : itr.mCursor = before.length + 1) :
    itr.hasPrevious = true ∧
      itr.previous = (some step, { itr with mCursor := before.length }) := by
  have back : itr.mCursor - 1 = before.length := by omega
  have below : itr.mCursor ≠ 0 := by omega
  simp [Itr.hasPrevious, Itr.previous, Itr.get, back, below, items]

/-- The loop of an iterator that goes back over sequences that are not entered. -/
theorem wind_previous {before skipped after : List (WizardStep σ)} {a : σ}
    (items : itr.mSteps = before ++ .step a :: skipped ++ after)
    (cursor : itr.mCursor = before.length + 1 + skipped.length)
    (skips : ∀ step ∈ skipped, step.Skipped) :
    Returns (wind .previous · (below ++ itr :: above) (below.length + 1))
      (some a, below ++ { itr with mCursor := before.length } :: above) := by
  induction skipped using List.reverseRecOn generalizing itr after with
  | nil =>
    obtain ⟨more, moved⟩ := previous_spec (by simpa using items) (by simpa using cursor)
    exact wind_step more moved
  | append_singleton skipped step ih =>
    obtain ⟨more, moved⟩ : itr.hasPrevious = true ∧ itr.previous =
        (some step, { itr with mCursor := (before ++ .step a :: skipped).length }) := by
      apply previous_spec
      · simpa using items
      · simp at cursor ⊢
        omega
    have skip := skips step (by simp)
    match step, skip with
    | .sequence b false inner, _ =>
      have items' : itr.mSteps =
          before ++ .step a :: skipped ++ .sequence b false inner :: after := by
        simpa using items
      refine wind_skip more moved (ih items' ?_ fun x member => skips x (by simp [member]))
      simp
      omega

/-- The iterator that goes back is at an item that holds the current step and no other, and is
being gone through; before the item there is a step, or one behind sequences that are not entered.
The iterators above it, which are at their first items, have no steps ahead. -/
structure Behind (wizard : List (WizardStep σ)) (s below : WizardIterator σ) (itr : Itr σ)
    (above : WizardIterator σ) (before skipped after : List (WizardStep σ)) (a : σ)
    (item : WizardStep σ) : Prop where
  stack : s = below ++ itr :: above
  ended : ∀ x ∈ above, x.hasPrevious = false ∧ x.ahead = []
  items : itr.mSteps = before ++ .step a :: skipped ++ item :: after
  cursor : itr.mCursor = before.length + 1 + skipped.length
  skips : ∀ step ∈ skipped, step.Skipped
  one : item.flatten.length = 1
  walked : flattenAll itr.mSteps ++ stepsAhead below <:+ flattenAll wizard

/-- What each call needs to find where it looks: steps, where there are items. -/
def Safe (wizard : List (WizardStep σ)) (s : WizardIterator σ) : Cursor.Call → Prop
  | .hasNext => (∃ itr ∈ s, itr.hasNext = true) → stepsAhead s ≠ []
  | .next => True
  | .hasPrevious => (∃ itr ∈ s, itr.hasPrevious = true) →
      (stepsAhead s).length + 2 ≤ (flattenAll wizard).length
  | .previous => (∃ itr ∈ s, itr.hasPrevious = true) →
      ∃ below itr above before skipped after a item,
        Behind wizard s below itr above before skipped after a item

/-- The iterator and a cursor that has come to as many steps. -/
structure At (wizard : List (WizardStep σ)) (s : WizardIterator σ) (passed : Nat) : Prop where
  valid : Valid wizard s
  ahead : stepsAhead s = (flattenAll wizard).drop passed
  inside : passed ≤ (flattenAll wizard).length

variable {passed : Nat}

theorem hasNext_iff (here : At wizard s passed) (safe : Safe wizard s .hasNext) :
    s.hasNext = decide (passed < (flattenAll wizard).length) := by
  have size := congrArg List.length here.ahead
  rw [List.length_drop] at size
  cases more : s.hasNext with
  | true =>
    have some' := List.length_pos_of_ne_nil (safe (hasMore_iff.mp more))
    symm
    simp
    omega
  | false =>
    have none' : stepsAhead s = [] := congrArg flattenAll (pending_of_not_hasNext more)
    rw [none'] at size
    symm
    simp at size ⊢
    omega

theorem passed_le_of_first (here : At wizard s passed) (first : s.hasPrevious = false) :
    passed ≤ 1 := by
  have most := length_le_of_first here.valid (hasMore_eq_false.mp first)
  have inside := here.inside
  rw [here.ahead, List.length_drop] at most
  omega

theorem hasPrevious_iff (here : At wizard s passed) (safe : Safe wizard s .hasPrevious) :
    s.hasPrevious = decide (2 ≤ passed) := by
  have inside := here.inside
  cases more : s.hasPrevious with
  | true =>
    have two := safe (hasMore_iff.mp more)
    rw [here.ahead, List.length_drop] at two
    symm
    simp
    omega
  | false =>
    have most := passed_le_of_first here more
    symm
    simp
    omega

theorem at_next (here : At wizard s passed) : ∃ s',
    Returns (next · s) ((stepsAhead s).head?, s') ∧
      At wizard s' (if passed < (flattenAll wizard).length then passed + 1 else passed) := by
  obtain ⟨r, s', returns, valid, comes, _⟩ := goesOn here.valid
  obtain ⟨rfl, rest⟩ := comes.flatten
  refine ⟨s', returns, valid, ?_, ?_⟩
  · rw [stepsAhead, rest, ← stepsAhead, here.ahead, List.tail_drop]
    split
    · rfl
    next none' => rw [List.drop_eq_nil_of_le (by omega), List.drop_eq_nil_of_le (by omega)]
  · have inside := here.inside
    split <;> omega

/-- The iterator that goes back returns the step before the current one, which is ahead then. -/
theorem at_previous {before skipped after : List (WizardStep σ)} {a : σ} {item : WizardStep σ}
    (here : At wizard s passed)
    (behind : Behind wizard s below itr above before skipped after a item) : ∃ s',
      Returns (previous · s) (some a, s') ∧
        (Cursor.step (flattenAll wizard) passed .previous) = (.element (some a), passed - 1) ∧
        At wizard s' (passed - 1) := by
  obtain ⟨rfl, ended, items, cursor, skips, one, front, walked⟩ := behind
  obtain ⟨b, one⟩ := List.length_eq_one_iff.mp one
  have top : stepsAhead above = [] := stepsAhead_of_ended fun x member => (ended x member).2
  -- the items after the cursor, before and after the move
  have ahead : itr.ahead = flattenAll after := by
    have items' : itr.mSteps = (before ++ .step a :: skipped ++ [item]) ++ after := by
      simpa using items
    rw [Itr.ahead, Itr.pending_of_items items']
    simp
    omega
  have ahead' : Itr.ahead { itr with mCursor := before.length } = b :: flattenAll after := by
    have items' : itr.mSteps = (before ++ [.step a]) ++ (skipped ++ item :: after) := by
      simpa using items
    have place : ((before.length : Int) + 1) = (before ++ [WizardStep.step a]).length := by simp
    have pending : Itr.pending ⟨itr.mSteps, before.length⟩ = skipped ++ item :: after :=
      Itr.pending_of_items items' place
    simp [Itr.ahead, pending, flattenAll_append, flattenAll_skipped skips, one]
  -- the current step is behind the cursor, the one that is ahead comes next
  have parts : flattenAll wizard = (front ++ flattenAll before) ++ a :: b ::
      stepsAhead (below ++ itr :: above) := by
    rw [← walked, items]
    simp [flattenAll_append, flattenAll_skipped skips, one, ahead, top]
  obtain ⟨stepped, left⟩ := Cursor.step_previous parts here.ahead here.inside
  have more : hasMore .previous (below ++ itr :: above) = true := by
    rw [hasMore_iff]
    refine ⟨itr, by simp, ?_⟩
    simp [Direction.previous, Itr.hasPrevious]
    omega
  have plain : ∀ c mSteps,
      Itr.current { itr with mCursor := before.length } ≠ some (.sequence c true mSteps) := by
    simp [Itr.current, Itr.get, items]
  refine ⟨below ++ { itr with mCursor := before.length } :: above, ?_, stepped, ?_, ?_, ?_⟩
  · -- the iterators above are passed over, and then those sequences that are not entered
    have items' : itr.mSteps = before ++ .step a :: skipped ++ (item :: after) := items
    have loop : Returns (wind .previous · (below ++ itr :: above) (below.length + 1)) _ :=
      wind_previous items' cursor skips
    have rest : Returns (wind .previous · ((below ++ [itr]) ++ above) (below ++ [itr]).length)
        (some a, below ++ { itr with mCursor := before.length } :: above) := by
      simpa using loop
    have down := wind_top (fun x member => (ended x member).1) rest
    exact move_of_wind more (by simpa using down)
  · refine here.valid.replace rfl ?_ plain
    simp [Itr.Inside, items]
    omega
  · rw [← left]
    simp [top, ahead, ahead']
  · have inside := here.inside
    omega

theorem returns_element {call : Nat → Option (Option σ × WizardIterator σ)} {x : Option σ}
    (returns : Returns call (x, s)) :
    Returns (fun fuel => (call fuel).map fun r => (Cursor.Answer.element r.1, r.2))
      (.element x, s) :=
  returns.map _

/-- What a call that is safe answers, and what it leaves. -/
theorem simulates_cursor (c : Cursor.Call) (here : At wizard s passed) (safe : Safe wizard s c) :
    ∃ s', Returns (step · s c) ((Cursor.step (flattenAll wizard) passed c).1, s') ∧
      At wizard s' (Cursor.step (flattenAll wizard) passed c).2 := by
  cases c with
  | hasNext =>
    refine ⟨s, ?_, here⟩
    simp only [step, hasNext_iff here safe, Cursor.step]
    exact .of_some _
  | next =>
    obtain ⟨s', returns, after⟩ := at_next here
    rw [Cursor.step_next here.ahead]
    exact ⟨s', returns_element returns, after⟩
  | hasPrevious =>
    refine ⟨s, ?_, here⟩
    simp only [step, hasPrevious_iff here safe, Cursor.step]
    exact .of_some _
  | previous =>
    cases first : s.hasPrevious with
    | true =>
      obtain ⟨below, itr, above, before, skipped, after, a, item, behind⟩ :=
        safe (hasMore_iff.mp first)
      obtain ⟨s', returns, stepped, later⟩ := at_previous here behind
      rw [stepped]
      exact ⟨s', returns_element returns, later⟩
    | false =>
      -- no step is before the current one, and the call throws
      have most := passed_le_of_first here first
      have none' : Cursor.step (flattenAll wizard) passed .previous = (.element none, passed) := by
        simp only [Cursor.step]
        rw [if_neg (by omega)]
      rw [none']
      exact ⟨s, returns_element (move_of_none first), here⟩

theorem at_iterator : At wizard (iterator wizard) 0 :=
  ⟨valid_iterator wizard, by simp [iterator, ofItr], Nat.zero_le _⟩

end WizardIterator

open WizardIterator in
/-- Calls on the iterator of a wizard that all find what they need where they look are answered as
by a cursor over the steps of the entered sequences. -/
theorem wizard_answers (wizard : List (WizardStep σ)) (calls : List Cursor.Call)
    (safe : AllowedCalls WizardIterator.step (Safe wizard) (iterator wizard) calls) :
    Returns (fun fuel => answers (WizardIterator.step fuel) (iterator wizard) calls)
      (totalAnswers (Cursor.step (flattenAll wizard)) 0 calls) :=
  answers_of_simulates (At wizard) (fun _ _ c here safe => simulates_cursor c here safe)
    at_iterator safe

/-- Into a sequence with one step, back out of it and into it again. -/
theorem wizard_answers_twice :
    Returns (fun fuel => answers (WizardIterator.step fuel)
        (iterator [.step 1, .sequence 0 true [.step 2], .step 3])
        [.next, .next, .previous, .next, .hasNext])
      (totalAnswers (Cursor.step (flattenAll [.step 1, .sequence 0 true [.step 2], .step 3])) 0
        [.next, .next, .previous, .next, .hasNext]) := by
  apply wizard_answers
  let wizard : List (WizardStep Nat) := [.step 1, .sequence 0 true [.step 2], .step 3]
  have first : Returns (WizardIterator.step · (iterator wizard) .next)
      (.element (some 1), [⟨wizard, 0⟩]) := .of_add 20 fun _ => rfl
  have second : Returns (WizardIterator.step · [⟨wizard, 0⟩] .next)
      (.element (some 2), [⟨wizard, 1⟩, ⟨[.step 2], 0⟩]) := .of_add 20 fun _ => rfl
  have third : Returns (WizardIterator.step · [⟨wizard, 1⟩, ⟨[.step 2], 0⟩] .previous)
      (.element (some 1), [⟨wizard, 0⟩, ⟨[.step 2], 0⟩]) := .of_add 20 fun _ => rfl
  have fourth : Returns (WizardIterator.step · [⟨wizard, 0⟩, ⟨[.step 2], 0⟩] .next)
      (.element (some 2), [⟨wizard, 1⟩, ⟨[.step 2], 0⟩, ⟨[.step 2], 0⟩]) :=
    .of_add 20 fun _ => rfl
  have last : Returns
      (WizardIterator.step · [⟨wizard, 1⟩, ⟨[.step 2], 0⟩, ⟨[.step 2], 0⟩] .hasNext)
      (.exists true, [⟨wizard, 1⟩, ⟨[.step 2], 0⟩, ⟨[.step 2], 0⟩]) := .of_add 0 fun _ => rfl
  rw [allowedCalls_cons first, allowedCalls_cons second, allowedCalls_cons third,
    allowedCalls_cons fourth, allowedCalls_cons last]
  refine ⟨trivial, trivial, fun _ => ?_, trivial, fun _ => ?_, trivial⟩
  · refine ⟨[], ⟨wizard, 1⟩, [⟨[.step 2], 0⟩], [], [], [.step 3], 1, .sequence 0 true [.step 2],
      rfl, by simp [Itr.hasPrevious, Itr.ahead, Itr.pending], rfl, rfl, by simp, rfl,
      List.suffix_rfl⟩
  · simp [Itr.ahead, Itr.pending, wizard]

/-- The only step of a sequence is passed over on the way back. -/
theorem previous_passes_over : ¬ ∀ (wizard : List (WizardStep Nat)) (calls : List Cursor.Call),
    Returns (fun fuel => answers (WizardIterator.step fuel) (iterator wizard) calls)
      (totalAnswers (Cursor.step (flattenAll wizard)) 0 calls) := by
  intro claim
  have here := claim [.step 1, .sequence 0 true [.step 2], .step 3] [.next, .next, .next, .previous]
  have there : Returns (fun fuel => answers (WizardIterator.step fuel)
      (iterator [.step 1, .sequence 0 true [.step 2], .step 3]) [.next, .next, .next, .previous])
      [.element (some 1), .element (some 2), .element (some 3), .element (some 1)] :=
    .of_add 20 fun _ => rfl
  exact absurd (here.unique there) (by decide)

end VRJuggler.Tweek
