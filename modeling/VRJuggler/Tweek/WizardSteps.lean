import VRJuggler.Base.Cursor

/-!
# Wizards and their iterator

A wizard is a sequence of steps, some of which are sequences that are entered or not. Each sequence
has iterators that go through its own steps; the iterator over a wizard is a stack of them, onto
which one is pushed for every sequence that it enters. None of them is ever taken off.
-/
namespace VRJuggler.Tweek

/-- `s` is what a step is beside being a sequence or not; the answer of `shouldEnter` is fixed. -/
inductive WizardStep (σ : Type) where
  | step (s : σ)
  | sequence (s : σ) (shouldEnter : Bool) (mSteps : List (WizardStep σ))

variable {σ : Type}

/-! ## The iterators of a sequence -/

/-- The cursor is the index of the last item that was returned. -/
structure Itr (σ : Type) where
  mSteps : List (WizardStep σ)
  mCursor : Int

namespace Itr

def ofStart (mSteps : List (WizardStep σ)) (start : Int) : Itr σ := ⟨mSteps, start - 1⟩

/-- `WizardSequence.begin` -/
def ofBegin (mSteps : List (WizardStep σ)) : Itr σ := ofStart mSteps 0

/-- `WizardSequence.end` -/
def ofEnd (mSteps : List (WizardStep σ)) : Itr σ := ofStart mSteps mSteps.length

variable (itr : Itr σ)

/-- `WizardSequence.get`; `none` is an `IndexOutOfBoundsException`. -/
def get (idx : Int) : Option (WizardStep σ) :=
  if 0 ≤ idx then itr.mSteps[idx.toNat]? else none

def hasNext : Bool := itr.mCursor + 1 ≠ itr.mSteps.length

/-- The cursor stays moved when there is no such element. -/
def next : Option (WizardStep σ) × Itr σ :=
  (itr.get (itr.mCursor + 1), { itr with mCursor := itr.mCursor + 1 })

def hasPrevious : Bool := itr.mCursor ≠ 0

def previous : Option (WizardStep σ) × Itr σ :=
  (itr.get (itr.mCursor - 1), { itr with mCursor := itr.mCursor - 1 })

end Itr

/-! ## The iterator of a wizard -/

/-- What `next` and `previous` use of the iterators on the stack. -/
structure Direction (σ : Type) where
  hasMore : Itr σ → Bool
  move : Itr σ → Option (WizardStep σ) × Itr σ
  start : List (WizardStep σ) → Itr σ

def Direction.next : Direction σ := ⟨Itr.hasNext, Itr.next, Itr.ofBegin⟩

def Direction.previous : Direction σ := ⟨Itr.hasPrevious, Itr.previous, Itr.ofEnd⟩

/-- `mIteratorStack`, whose last element is the top. -/
abbrev WizardIterator (σ : Type) := List (Itr σ)

namespace WizardIterator

def ofItr (itr : Itr σ) : WizardIterator σ := [itr]

def hasMore (d : Direction σ) (s : WizardIterator σ) : Bool := s.reverse.any d.hasMore

mutual

/-- `next` and `previous`: the step, or `none` for a `NoSuchElementException`, and the stack that
is left. The stack of calls is `fuel` deep. -/
def move (d : Direction σ) : Nat → WizardIterator σ → Option (Option σ × WizardIterator σ)
  | 0, _ => none
  | fuel + 1, s => if hasMore d s then wind d fuel s s.length else some (none, s)

/-- The loops over the iterators below the index, and over the items of each. -/
def wind (d : Direction σ) :
    Nat → WizardIterator σ → Nat → Option (Option σ × WizardIterator σ)
  | 0, _, _ => none
  | _ + 1, s, 0 => some (none, s)
  | fuel + 1, s, i + 1 =>
    match s[i]? with
    | none => some (none, s)
    | some itr =>
      if d.hasMore itr then
        match d.move itr with
        | (none, itr) => some (none, s.set i itr)
        | (some (.step a), itr) => some (some a, s.set i itr)
        | (some (.sequence _ shouldEnter mSteps), itr) =>
          if shouldEnter then
            (move d fuel (s.set i itr ++ [d.start mSteps])).bind fun
              | (some a, s) => some (some a, s)
              -- the exception is caught, and what the call has done to the stack stays
              | (none, s) => wind d fuel s (i + 1)
          else wind d fuel (s.set i itr) (i + 1)
      else wind d fuel s i

end

def hasNext (s : WizardIterator σ) : Bool := s.hasMore .next

def next (fuel : Nat) (s : WizardIterator σ) : Option (Option σ × WizardIterator σ) :=
  move .next fuel s

def hasPrevious (s : WizardIterator σ) : Bool := s.hasMore .previous

def previous (fuel : Nat) (s : WizardIterator σ) : Option (Option σ × WizardIterator σ) :=
  move .previous fuel s

def step (fuel : Nat) (s : WizardIterator σ) :
    Cursor.Call → Option (Cursor.Answer σ × WizardIterator σ)
  | .hasNext => some (.exists s.hasNext, s)
  | .next => (s.next fuel).map fun r => (.element r.1, r.2)
  | .hasPrevious => some (.exists s.hasPrevious, s)
  | .previous => (s.previous fuel).map fun r => (.element r.1, r.2)

end WizardIterator

/-- `Wizard.iterator` -/
def iterator (wizard : List (WizardStep σ)) : WizardIterator σ :=
  .ofItr (.ofBegin wizard)

/-! ## The steps of a wizard -/

mutual

/-- The steps that are to be stopped on. -/
def WizardStep.flatten : WizardStep σ → List σ
  | .step s => [s]
  | .sequence _ shouldEnter mSteps => if shouldEnter then flattenAll mSteps else []

def flattenAll : List (WizardStep σ) → List σ
  | [] => []
  | step :: steps => step.flatten ++ flattenAll steps

end

@[simp] theorem flatten_step (s : σ) : (WizardStep.step s).flatten = [s] := rfl

@[simp] theorem flatten_entered (s : σ) (mSteps : List (WizardStep σ)) :
    (WizardStep.sequence s true mSteps).flatten = flattenAll mSteps := rfl

@[simp] theorem flatten_skipped (s : σ) (mSteps : List (WizardStep σ)) :
    (WizardStep.sequence s false mSteps).flatten = [] := rfl

@[simp] theorem flattenAll_nil : flattenAll ([] : List (WizardStep σ)) = [] := rfl

@[simp] theorem flattenAll_cons (step : WizardStep σ) (steps : List (WizardStep σ)) :
    flattenAll (step :: steps) = step.flatten ++ flattenAll steps := rfl

theorem flattenAll_append (front rest : List (WizardStep σ)) :
    flattenAll (front ++ rest) = flattenAll front ++ flattenAll rest := by
  induction front with
  | nil => rfl
  | cons step front ih => rw [List.cons_append, flattenAll_cons, ih, flattenAll_cons,
      List.append_assoc]

end VRJuggler.Tweek
