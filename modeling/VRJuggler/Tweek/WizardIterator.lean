import VRJuggler.Tweek.WizardSteps

/-!
# Going on through a wizard

From every stack that calls can leave, `next` comes to the next step of the entered sequences,
over sequences that are skipped or hold no step, and throws when there is none. What is left of
the stack holds the steps after that one.
-/
namespace VRJuggler.Tweek

variable {σ : Type}

/-! ## What is ahead -/

mutual

/-- A step, and those inside it. -/
def WizardStep.items : WizardStep σ → Nat
  | .step _ => 1
  | .sequence _ _ mSteps => 1 + itemsIn mSteps

def itemsIn : List (WizardStep σ) → Nat
  | [] => 0
  | step :: steps => step.items + itemsIn steps

end

theorem itemsIn_append (front rest : List (WizardStep σ)) :
    itemsIn (front ++ rest) = itemsIn front + itemsIn rest := by
  induction front with
  | nil => simp [itemsIn]
  | cons step front ih => simp [itemsIn, ih, Nat.add_assoc]

theorem WizardStep.items_pos (step : WizardStep σ) : 0 < step.items := by
  cases step with
  | step s => exact Nat.one_pos
  | sequence s shouldEnter mSteps => exact Nat.add_pos_left Nat.one_pos _

namespace Itr

variable {itr : Itr σ}

/-- The items behind the cursor. -/
def pending (itr : Itr σ) : List (WizardStep σ) := itr.mSteps.drop (itr.mCursor + 1).toNat

/-- The steps in them. -/
def ahead (itr : Itr σ) : List σ := flattenAll itr.pending

/-- The cursor is before the first item or on an item. -/
def Inside (itr : Itr σ) : Prop := 0 ≤ itr.mCursor + 1 ∧ itr.mCursor + 1 ≤ itr.mSteps.length

def current (itr : Itr σ) : Option (WizardStep σ) := itr.get itr.mCursor

@[simp] theorem ahead_ofBegin (mSteps : List (WizardStep σ)) :
    (ofBegin mSteps).ahead = flattenAll mSteps := by
  simp [ahead, pending, ofBegin, ofStart]

@[simp] theorem pending_ofBegin (mSteps : List (WizardStep σ)) :
    (ofBegin mSteps).pending = mSteps := by
  simp [pending, ofBegin, ofStart]

theorem inside_ofBegin (mSteps : List (WizardStep σ)) : (ofBegin mSteps).Inside := by
  simp [Inside, ofBegin, ofStart]

@[simp] theorem current_ofBegin (mSteps : List (WizardStep σ)) :
    (ofBegin mSteps).current = none := by
  simp [current, ofBegin, ofStart, get]

@[simp] theorem mSteps_ofBegin (mSteps : List (WizardStep σ)) :
    (ofBegin mSteps).mSteps = mSteps := rfl

theorem pending_of_items {front rest : List (WizardStep σ)}
    (items : itr.mSteps = front ++ rest) (cursor : itr.mCursor + 1 = front.length) :
    itr.pending = rest := by
  simp [pending, items, cursor]

theorem pending_of_not_hasNext (last : itr.hasNext = false) : itr.pending = [] := by
  simp only [hasNext, ne_eq, decide_not, Bool.not_eq_false', decide_eq_true_eq] at last
  simp [pending, last]

/-- What one step forward does. -/
theorem next_spec (inside : itr.Inside) (more : itr.hasNext = true) :
    ∃ step itr', itr.next = (some step, itr') ∧ itr'.mSteps = itr.mSteps ∧
      itr'.current = some step ∧ itr'.Inside ∧ itr.pending = step :: itr'.pending := by
  obtain ⟨low, high⟩ := inside
  simp only [hasNext, ne_eq, decide_not, Bool.not_eq_true', decide_eq_false_iff_not] at more
  obtain ⟨n, place⟩ : ∃ n : Nat, itr.mCursor + 1 = n := Int.eq_ofNat_of_zero_le low
  have more : n < itr.mSteps.length := by omega
  have found : itr.get n = some itr.mSteps[n] := by simp [get, more]
  have up : ((n : Int) + 1).toNat = n + 1 := by omega
  refine ⟨itr.mSteps[n], { itr with mCursor := itr.mCursor + 1 }, ?_, rfl, ?_, ?_, ?_⟩
  · simp [next, place, found]
  · rw [place]
    exact found
  · simp only [Inside]
    omega
  · simp only [pending, place, up, Int.toNat_natCast]
    exact List.drop_eq_getElem_cons more

end Itr

namespace WizardIterator

/-- The items to come, from the top of the stack on. -/
def pending (s : WizardIterator σ) : List (WizardStep σ) := s.reverse.flatMap Itr.pending

/-- The steps to come. -/
def stepsAhead (s : WizardIterator σ) : List σ := flattenAll s.pending

variable {s below above : WizardIterator σ} {itr itr' : Itr σ}

@[simp] theorem pending_nil : pending ([] : WizardIterator σ) = [] := rfl

@[simp] theorem pending_append :
    pending (below ++ above) = pending above ++ pending below := by
  simp [pending]

@[simp] theorem pending_cons : pending (itr :: above) = pending above ++ itr.pending := by
  simp [pending]

theorem pending_eq_nil : pending s = [] ↔ ∀ itr ∈ s, itr.pending = [] := by
  simp [pending]

@[simp] theorem stepsAhead_nil : stepsAhead ([] : WizardIterator σ) = [] := rfl

@[simp] theorem stepsAhead_append :
    stepsAhead (below ++ above) = stepsAhead above ++ stepsAhead below := by
  simp [stepsAhead, flattenAll_append]

@[simp] theorem stepsAhead_cons : stepsAhead (itr :: above) = stepsAhead above ++ itr.ahead := by
  simp [stepsAhead, flattenAll_append, Itr.ahead]

theorem stepsAhead_of_ended (ended : ∀ itr ∈ s, itr.ahead = []) : stepsAhead s = [] := by
  induction s with
  | nil => rfl
  | cons itr s ih =>
    simp only [List.mem_cons, forall_eq_or_imp] at ended
    simp [ended.1, ih ended.2]

theorem hasMore_iff {d : Direction σ} : hasMore d s = true ↔ ∃ itr ∈ s, d.hasMore itr = true := by
  simp [hasMore]

theorem hasMore_eq_false {d : Direction σ} :
    hasMore d s = false ↔ ∀ itr ∈ s, d.hasMore itr = false := by
  simp [hasMore]

theorem pending_of_not_hasNext (last : s.hasNext = false) : s.pending = [] :=
  pending_eq_nil.mpr fun itr member =>
    Itr.pending_of_not_hasNext (hasMore_eq_false.mp last itr member)

/-- The sequences that have been entered are on the stack, the wizard among them. -/
structure Valid (wizard : List (WizardStep σ)) (s : WizardIterator σ) : Prop where
  inside : ∀ itr ∈ s, itr.Inside
  root : wizard ∈ s.map Itr.mSteps
  entered : ∀ itr ∈ s, ∀ a mSteps, itr.current = some (.sequence a true mSteps) →
    mSteps ∈ s.map Itr.mSteps

variable {wizard : List (WizardStep σ)}

theorem pending_of_hasNext (valid : Valid wizard s) (more : s.hasNext = true) : s.pending ≠ [] := by
  obtain ⟨itr, member, more⟩ := hasMore_iff.mp more
  obtain ⟨step, itr', _, _, _, _, parts⟩ := Itr.next_spec (valid.inside itr member) more
  intro none'
  simp [pending_eq_nil.mp none' itr member] at parts

theorem valid_iterator (wizard : List (WizardStep σ)) : Valid wizard (iterator wizard) := by
  refine ⟨?_, ?_, ?_⟩
  all_goals simp [iterator, ofItr, Itr.inside_ofBegin]

/-- One of the iterators is moved. -/
theorem Valid.replace (valid : Valid wizard (below ++ itr :: above))
    (same : itr'.mSteps = itr.mSteps) (inside : itr'.Inside)
    (current : ∀ a mSteps, itr'.current ≠ some (.sequence a true mSteps)) :
    Valid wizard (below ++ itr' :: above) := by
  have sequences : (below ++ itr' :: above).map Itr.mSteps =
      (below ++ itr :: above).map Itr.mSteps := by simp [same]
  refine ⟨fun x member => ?_, sequences ▸ valid.root, fun x member a mSteps here => ?_⟩
  · simp only [List.mem_append, List.mem_cons] at member
    rcases member with member | rfl | member
    · exact valid.inside x (by simp [member])
    · exact inside
    · exact valid.inside x (by simp [member])
  · rw [sequences]
    simp only [List.mem_append, List.mem_cons] at member
    rcases member with member | rfl | member
    · exact valid.entered x (by simp [member]) a mSteps here
    · exact absurd here (current a mSteps)
    · exact valid.entered x (by simp [member]) a mSteps here

/-- One of the iterators is moved onto a sequence, which is entered. -/
theorem Valid.enter {entered : List (WizardStep σ)} {a : σ}
    (valid : Valid wizard (below ++ itr :: above)) (same : itr'.mSteps = itr.mSteps)
    (inside : itr'.Inside) (current : itr'.current = some (.sequence a true entered)) :
    Valid wizard (below ++ itr' :: above ++ [Itr.ofBegin entered]) := by
  have sequences : (below ++ itr' :: above ++ [Itr.ofBegin entered]).map Itr.mSteps =
      (below ++ itr :: above).map Itr.mSteps ++ [entered] := by simp [same]
  refine ⟨fun x member => ?_, ?_, fun x member b mSteps here => ?_⟩
  · simp only [List.mem_append, List.mem_cons, List.not_mem_nil, or_false] at member
    rcases member with (member | rfl | member) | rfl
    · exact valid.inside x (by simp [member])
    · exact inside
    · exact valid.inside x (by simp [member])
    · exact Itr.inside_ofBegin entered
  · rw [sequences]
    exact List.mem_append_left _ valid.root
  · rw [sequences]
    simp only [List.mem_append, List.mem_cons, List.not_mem_nil, or_false] at member
    rcases member with (member | rfl | member) | rfl
    · exact List.mem_append_left _ (valid.entered x (by simp [member]) b mSteps here)
    · -- it is the sequence whose iterator is the new top
      cases current.symm.trans here
      simp
    · exact List.mem_append_left _ (valid.entered x (by simp [member]) b mSteps here)
    · simp at here

/-! ## One round of the loops -/

section Rounds

variable {d : Direction σ} {a : σ} {mSteps : List (WizardStep σ)} {s' : WizardIterator σ}
  {r : Option σ × WizardIterator σ}

theorem move_of_none (none' : s.hasMore d = false) : Returns (move d · s) (none, s) :=
  (Returns.of_some (none, s)).congr fun fuel => by simp [move, none']

theorem move_of_wind (more : s.hasMore d = true) (rest : Returns (wind d · s s.length) r) :
    Returns (move d · s) r :=
  rest.congr fun fuel => by simp [move, more]

theorem wind_zero : Returns (wind d · s 0) (none, s) :=
  (Returns.of_some (none, s)).congr fun fuel => by simp [wind]

theorem wind_of_none (none' : d.hasMore itr = false)
    (rest : Returns (wind d · (below ++ itr :: above) below.length) r) :
    Returns (wind d · (below ++ itr :: above) (below.length + 1)) r :=
  rest.congr fun fuel => by simp [wind, none']

theorem wind_step (more : d.hasMore itr = true) (moved : d.move itr = (some (.step a), itr')) :
    Returns (wind d · (below ++ itr :: above) (below.length + 1))
      (some a, below ++ itr' :: above) :=
  (Returns.of_some (some a, below ++ itr' :: above)).congr fun fuel => by
    simp [wind, more, moved]

theorem wind_skip (more : d.hasMore itr = true)
    (moved : d.move itr = (some (.sequence a false mSteps), itr'))
    (rest : Returns (wind d · (below ++ itr' :: above) (below.length + 1)) r) :
    Returns (wind d · (below ++ itr :: above) (below.length + 1)) r :=
  rest.congr fun fuel => by simp [wind, more, moved]

/-- The call for a sequence that is entered, and what is done with what it returns. -/
theorem wind_enter {first : Option σ × WizardIterator σ} (more : d.hasMore itr = true)
    (moved : d.move itr = (some (.sequence a true mSteps), itr'))
    (called : Returns (move d · (below ++ itr' :: above ++ [d.start mSteps])) first)
    (rest : Returns (fun fuel => match first with
      | (some b, s) => some (some b, s)
      | (none, s) => wind d fuel s (below.length + 1)) r) :
    Returns (wind d · (below ++ itr :: above) (below.length + 1)) r := by
  have both : Returns (fun fuel => (move d fuel (below ++ itr' :: above ++ [d.start mSteps])).bind
      fun
        | (some b, s) => some (some b, s)
        | (none, s) => wind d fuel s (below.length + 1)) r := Returns.bind called rest
  refine both.congr fun fuel => ?_
  -- the call has not returned yet, has thrown, or has returned a step
  generalize result : move d fuel (below ++ itr' :: above ++ [d.start mSteps]) = returned
  simp only [List.append_assoc, List.cons_append] at result
  rcases returned with _ | ⟨_ | b, t⟩
  all_goals simp [wind, more, moved, result]

end Rounds

/-! ## Going on -/

/-- The next step of a list of items, and the items after it. -/
inductive Comes : List (WizardStep σ) → Option σ → List (WizardStep σ) → Prop
  | ended : Comes [] none []
  | step (a : σ) (rest : List (WizardStep σ)) : Comes (.step a :: rest) (some a) rest
  | skip {a : σ} {mSteps rest rest' : List (WizardStep σ)} {r : Option σ} :
      Comes rest r rest' → Comes (.sequence a false mSteps :: rest) r rest'
  | enter {a : σ} {mSteps rest rest' : List (WizardStep σ)} {r : Option σ} :
      Comes (mSteps ++ rest) r rest' → Comes (.sequence a true mSteps :: rest) r rest'

namespace Comes

variable {items items' : List (WizardStep σ)} {r : Option σ}

theorem flatten (comes : Comes items r items') :
    (flattenAll items).head? = r ∧ flattenAll items' = (flattenAll items).tail := by
  induction comes with
  | ended => simp
  | step a rest => simp
  | skip _ ih => simpa using ih
  | enter _ ih => simpa [flattenAll_append] using ih

theorem eq_nil (comes : Comes items none items') : items' = [] := by
  generalize thrown : (none : Option σ) = r at comes
  induction comes with
  | ended => rfl
  | step a rest => cases thrown
  | skip _ ih => exact ih thrown
  | enter _ ih => exact ih thrown

theorem of_nil (comes : Comes [] r items') : r = none ∧ items' = [] := by
  cases comes
  exact ⟨rfl, rfl⟩

end Comes

/-- The call returns the next step, or throws when there is none. -/
def GoesOn (wizard : List (WizardStep σ)) (s : WizardIterator σ)
    (call : Nat → Option (Option σ × WizardIterator σ)) : Prop :=
  ∃ r s', Returns call (r, s') ∧ Valid wizard s' ∧ Comes s.pending r s'.pending ∧
    s.length ≤ s'.length

/-- The call for a sequence that is entered either finds a step or comes to the end of all. -/
theorem goesOn_enter {a : σ} {mSteps : List (WizardStep σ)}
    (valid : Valid wizard (below ++ itr :: above)) (more : itr.hasNext = true)
    (moved : itr.next = (some (.sequence a true mSteps), itr')) (same : itr'.mSteps = itr.mSteps)
    (current : itr'.current = some (.sequence a true mSteps)) (inside : itr'.Inside)
    (parts : itr.pending = .sequence a true mSteps :: itr'.pending) (top : above.pending = [])
    (first : ∀ t, itemsIn t.pending < itemsIn (below ++ itr :: above).pending → Valid wizard t →
      GoesOn wizard t (move .next · t))
    (later : ∀ t, t.pending = [] → Valid wizard t → below.length < t.length →
      GoesOn wizard t (wind .next · t (below.length + 1))) :
    GoesOn wizard (below ++ itr :: above)
      (wind .next · (below ++ itr :: above) (below.length + 1)) := by
  have lower : itemsIn (below ++ itr' :: above ++ [Itr.ofBegin mSteps]).pending <
      itemsIn (below ++ itr :: above).pending := by
    simp [parts, top, itemsIn, itemsIn_append, WizardStep.items]
  obtain ⟨r, s₁, called, valid₁, comes, grows⟩ := first _ lower (valid.enter same inside current)
  have enters : Comes (below ++ itr :: above).pending r s₁.pending := by
    simp only [pending_append, pending_cons, pending_nil, top, parts, List.nil_append,
      List.append_assoc, List.cons_append, Itr.pending_ofBegin] at comes ⊢
    exact .enter comes
  simp only [List.length_append, List.length_cons, List.length_nil] at grows
  cases r with
  | some b =>
    exact ⟨b, s₁, wind_enter more moved called (.of_some _), valid₁, enters, by simp; omega⟩
  | none =>
    obtain ⟨r, s₂, returns, valid₂, comes₂, grows₂⟩ := later s₁ comes.eq_nil valid₁ (by omega)
    have none' := comes.eq_nil
    rw [none'] at comes₂ enters
    obtain ⟨rfl, none₂⟩ := comes₂.of_nil
    exact ⟨none, s₂, wind_enter more moved called returns, valid₂, none₂ ▸ enters,
      by simp; omega⟩

/-- The loops over the iterators, when those above the index have come to their end, and when
calls with less to go through do what they should. -/
theorem goesOn_wind (valid : Valid wizard s)
    (first : ∀ t, itemsIn t.pending < itemsIn s.pending → Valid wizard t →
      GoesOn wizard t (move .next · t))
    (later : ∀ t, itemsIn t.pending < itemsIn s.pending → Valid wizard t → ∀ i ≤ t.length,
      pending (t.drop i) = [] → GoesOn wizard t (wind .next · t i))
    (i : Nat) (bound : i ≤ s.length) (ended : pending (s.drop i) = []) :
    GoesOn wizard s (wind .next · s i) := by
  induction i with
  | zero =>
    rw [List.drop_zero] at ended
    refine ⟨none, s, wind_zero, valid, ?_, Nat.le_refl _⟩
    rw [ended]
    exact .ended
  | succ i ih =>
    -- the stack around the iterator at the index
    obtain ⟨below, itr, above, rfl, rfl⟩ : ∃ (below : WizardIterator σ) (itr : Itr σ)
        (above : WizardIterator σ), s = below ++ itr :: above ∧ i = below.length := by
      refine ⟨s.take i, s[i], s.drop (i + 1), ?_, by rw [List.length_take_of_le (by omega)]⟩
      rw [← List.drop_eq_getElem_cons bound, List.take_append_drop]
    have top : pending above = [] := by simpa using ended
    -- an iterator at its end is passed over, the one below it is the next
    cases more : itr.hasNext with
    | false =>
      have none' := Itr.pending_of_not_hasNext more
      obtain ⟨r, s', returns, after⟩ := ih (by simp) (by simp [top, none'])
      exact ⟨r, s', wind_of_none more returns, after⟩
    | true =>
      obtain ⟨step, itr', moved, same, current, inside, parts⟩ :=
        Itr.next_spec (valid.inside itr (by simp)) more
      have ahead : (below ++ itr :: above).pending = step :: (below ++ itr' :: above).pending := by
        simp [top, parts]
      have positive := step.items_pos
      -- a call from the stack with the moved iterator has less to go through
      have lower : itemsIn (below ++ itr' :: above).pending <
          itemsIn (below ++ itr :: above).pending := by
        rw [ahead, itemsIn]
        omega
      -- a step is returned, a sequence is skipped or entered
      cases step with
      | step a =>
        have plain : ∀ b mSteps, itr'.current ≠ some (.sequence b true mSteps) := by
          simp [current]
        exact ⟨some a, below ++ itr' :: above, wind_step more moved,
          valid.replace same inside plain, ahead ▸ .step a _, by simp⟩
      | sequence a shouldEnter mSteps =>
        cases shouldEnter with
        | false =>
          have plain : ∀ b mSteps, itr'.current ≠ some (.sequence b true mSteps) := by
            simp [current]
          obtain ⟨r, s', returns, valid', comes, grows⟩ := later (below ++ itr' :: above) lower
            (valid.replace same inside plain) (below.length + 1) (by simp) (by simp [top])
          exact ⟨r, s', wind_skip more moved returns, valid', ahead ▸ .skip comes,
            by simpa using grows⟩
        | true =>
          refine goesOn_enter valid more moved same current inside parts top first ?_
          intro t none' valid' long
          have top' : pending (t.drop (below.length + 1)) = [] := by
            rw [pending_eq_nil] at none' ⊢
            exact fun x member => none' x (List.mem_of_mem_drop member)
          refine later t ?_ valid' _ long top'
          rw [none', itemsIn]
          omega

/-- From every stack that is valid, going on comes to the next step. -/
theorem goesOn (valid : Valid wizard s) : GoesOn wizard s (move .next · s) := by
  suffices both : ∀ n t, itemsIn t.pending ≤ n → Valid wizard t →
      GoesOn wizard t (move .next · t) ∧
      ∀ i ≤ t.length, pending (t.drop i) = [] → GoesOn wizard t (wind .next · t i) from
    (both _ s (Nat.le_refl _) valid).1
  intro n
  -- the induction is on the items that are to come
  induction n using Nat.strongRecOn with
  | ind n ih =>
    intro t small valid
    have winds : ∀ i ≤ t.length, pending (t.drop i) = [] →
        GoesOn wizard t (wind .next · t i) := by
      apply goesOn_wind valid
      · intro u less valid
        exact (ih _ (Nat.lt_of_lt_of_le less small) u (Nat.le_refl _) valid).1
      · intro u less valid
        exact (ih _ (Nat.lt_of_lt_of_le less small) u (Nat.le_refl _) valid).2
    refine ⟨?_, winds⟩
    cases more : hasMore .next t with
    | true =>
      obtain ⟨r, t', returns, after⟩ := winds t.length (Nat.le_refl _) (by simp)
      exact ⟨r, t', move_of_wind more returns, after⟩
    | false =>
      have ended := pending_of_not_hasNext more
      exact ⟨none, t, move_of_none more, valid, ended ▸ .ended, Nat.le_refl _⟩

end WizardIterator

end VRJuggler.Tweek
