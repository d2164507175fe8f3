import Mathlib.Data.List.Chain
import VRJuggler.Base.Run
import VRJuggler.Gadget.InputArea

/-!
# The lock of the mouse

What the comments in `handleEvent` document is a machine of three states, and with each change
between free and locked goes a call of `lockMouse` or `unlockMouse`. The area keeps in step with
it until the escape key is pressed while the mouse is locked.
-/
namespace VRJuggler.Gadget

/-- A key is pressed or released. -/
inductive KeyInput (KeySym : Type) where
  | press (xkey : XKeyEvent KeySym)
  | release (xkey : XKeyEvent KeySym)

def KeyInput.toXEvent {KeySym : Type} : KeyInput KeySym → XEvent KeySym
  | press xkey => .keyPress xkey
  | release xkey => .keyRelease xkey

/-! ## The documented machine -/

/-- The lock machine, with the modifier key whose release unlocks. -/
inductive LockMachine where
  | unlocked
  | lockKeyDown (storedKey : Key)
  | lockKeyLock
  deriving DecidableEq

namespace LockMachine

def IsModifier (key : Key) : Prop := KEY_ALT = key ∨ KEY_CTRL = key ∨ KEY_SHIFT = key

instance (key : Key) : Decidable (IsModifier key) :=
  inferInstanceAs (Decidable (_ ∨ _ ∨ _))

/-- Any[key == ESC] goes first. -/
def press (lockKey : Int) (key : Key) (m : LockMachine) : LockMachine :=
  if key = KEY_ESC then unlocked
  else
    match m with
    | unlocked =>
      if (key.val : Int) = lockKey then lockKeyLock
      else if IsModifier key then lockKeyDown key else unlocked
    | lockKeyDown storedKey =>
      if (key.val : Int) = lockKey then lockKeyLock else lockKeyDown storedKey
    | lockKeyLock => if (key.val : Int) = lockKey then unlocked else lockKeyLock

def release (key : Key) : LockMachine → LockMachine
  | lockKeyDown storedKey => if key = storedKey then unlocked else lockKeyDown storedKey
  | m => m

variable {KeySym : Type} (xKeyToKey : KeySym → Key)

/-- Nothing happens where locking is not allowed. -/
def next (allowed : Bool) (lockKey : Int) (m : LockMachine) : KeyInput KeySym → LockMachine
  | .press xkey => if allowed then m.press lockKey (xKeyToKey xkey.keySym) else m
  | .release xkey => if allowed then m.release (xKeyToKey xkey.keySym) else m

/-- The state of an area that the machine describes. -/
def Describes (m : LockMachine) (a : InputArea) : Prop :=
  match m with
  | unlocked => a.mLockState = .unlocked
  | lockKeyDown storedKey => a.mLockState = .lockKeyDown ∧ a.mLockStoredKey = storedKey.val
  | lockKeyLock => a.mLockState = .lockLockKey

end LockMachine

/-! ## What should hold after each event -/

namespace InputArea

/-- `lockMouse` has been done and not yet been undone by `unlockMouse`. -/
def Grabbed (a : InputArea) : Prop := a.grabCalls.getLast? = some .lockMouse

/-- The calls alternate, from `lockMouse` on. -/
def Alternates (calls : List GrabCall) : Prop :=
  (GrabCall.unlockMouse :: calls).IsChain (· ≠ ·)

/-- The grab, the lock state and the documented machine agree. -/
structure InStep (m : LockMachine) (a : InputArea) : Prop where
  described : m.Describes a
  grabbed_iff : a.Grabbed ↔ a.mLockState ≠ .unlocked
  alternates : Alternates a.grabCalls

variable {KeySym : Type} (xKeyToKey : KeySym → Key)

def handleKey (a : InputArea) (input : KeyInput KeySym) : InputArea :=
  a.handleEvent xKeyToKey input.toXEvent

/-- The area after the inputs, and the documented machine beside it. -/
def handleKeys (a : InputArea) (inputs : List (KeyInput KeySym)) : InputArea :=
  inputs.foldl (handleKey xKeyToKey) a

def documented (a : InputArea) (inputs : List (KeyInput KeySym)) : LockMachine :=
  inputs.foldl (LockMachine.next xKeyToKey a.mAllowMouseLocking a.mLockToggleKey) .unlocked

/-- The input does not press the escape key while the mouse is locked. -/
def NoEscape (a : InputArea) : KeyInput KeySym → Prop
  | .press xkey => a.mAllowMouseLocking = true → a.mLockState ≠ .unlocked →
      xKeyToKey xkey.keySym ≠ KEY_ESC
  | .release _ => True

instance (a : InputArea) : DecidablePred (a.NoEscape xKeyToKey)
  | .press xkey => inferInstanceAs (Decidable (_ → _ → xKeyToKey xkey.keySym ≠ KEY_ESC))
  | .release _ => inferInstanceAs (Decidable True)

/-! ## One event -/

theorem alternates_nil : Alternates [] := by simp [Alternates]

theorem alternates_lock {calls : List GrabCall} (alternates : Alternates calls)
    (free : calls.getLast? ≠ some .lockMouse) : Alternates (calls ++ [.lockMouse]) := by
  unfold Alternates at alternates ⊢
  rw [← List.cons_append]
  refine alternates.append (List.isChain_singleton _) ?_
  intro last isLast call isCall
  obtain rfl : GrabCall.lockMouse = call := by simpa using isCall
  rintro rfl
  -- the new call differs from the last one, or comes first of all
  rw [List.getLast?_cons] at isLast
  cases found : calls.getLast? with
  | none => simp [found] at isLast
  | some c =>
    refine free ?_
    simpa [found] using isLast

theorem alternates_unlock {calls : List GrabCall} (alternates : Alternates calls)
    (grabbed : calls.getLast? = some .lockMouse) : Alternates (calls ++ [.unlockMouse]) := by
  unfold Alternates at alternates ⊢
  rw [← List.cons_append]
  refine alternates.append (List.isChain_singleton _) ?_
  intro last isLast call isCall
  obtain rfl : GrabCall.unlockMouse = call := by simpa using isCall
  rw [List.getLast?_cons, grabbed] at isLast
  obtain rfl : GrabCall.lockMouse = last := by simpa using isLast
  decide

variable {a b : InputArea} {m : LockMachine}

/-- Only the lock state, the stored key and the calls matter. -/
theorem InStep.congr (inStep : InStep m a) (state : b.mLockState = a.mLockState)
    (stored : b.mLockStoredKey = a.mLockStoredKey) (calls : b.grabCalls = a.grabCalls) :
    InStep m b := by
  obtain ⟨described, grabbed_iff, alternates⟩ := inStep
  refine ⟨?_, ?_, calls ▸ alternates⟩
  · cases m <;> simpa [LockMachine.Describes, state, stored] using described
  · rw [Grabbed, calls, state]
    exact grabbed_iff

/-- A step that leaves the mouse locked, or leaves it free, calls nothing. -/
theorem InStep.stays {m' : LockMachine} (inStep : InStep m a) (described : m'.Describes b)
    (calls : b.grabCalls = a.grabCalls)
    (same : b.mLockState = .unlocked ↔ a.mLockState = .unlocked) : InStep m' b where
  described := described
  grabbed_iff := by
    rw [Grabbed, calls, Ne, same]
    exact inStep.grabbed_iff
  alternates := calls ▸ inStep.alternates

theorem InStep.locks {m' : LockMachine} (inStep : InStep m a) (described : m'.Describes b)
    (calls : b.grabCalls = a.grabCalls ++ [.lockMouse]) (free : a.mLockState = .unlocked)
    (locked : b.mLockState ≠ .unlocked) : InStep m' b where
  described := described
  grabbed_iff := by simp [Grabbed, calls, locked]
  alternates := by
    rw [calls]
    refine alternates_lock inStep.alternates fun grabbed => ?_
    exact inStep.grabbed_iff.mp grabbed free

theorem InStep.unlocks {m' : LockMachine} (inStep : InStep m a) (described : m'.Describes b)
    (calls : b.grabCalls = a.grabCalls ++ [.unlockMouse]) (locked : a.mLockState ≠ .unlocked)
    (free : b.mLockState = .unlocked) : InStep m' b where
  described := described
  grabbed_iff := by simp [Grabbed, calls, free]
  alternates := calls ▸ alternates_unlock inStep.alternates (inStep.grabbed_iff.mpr locked)

/-- A key other than escape. -/
theorem InStep.lockOnPress (inStep : InStep m a) (allowed : a.mAllowMouseLocking = true)
    (key : Key) (event : XKeyEvent KeySym) (noEscape : key ≠ KEY_ESC) :
    InStep (m.press a.mLockToggleKey key) (a.lockOnPress key event) := by
  have described := inStep.described
  unfold InputArea.lockOnPress LockMachine.press
  simp only [allowed, if_true, if_neg noEscape]
  cases m with
  | unlocked =>
    have free : a.mLockState = .unlocked := described
    simp only [free, if_true]
    by_cases toggles : (key.val : Int) = a.mLockToggleKey
    · -- also when the lock key is a modifier
      simp only [toggles, ne_eq, not_true_eq_false, false_and, if_false, if_true]
      exact inStep.locks rfl rfl free (by simp [InputArea.lockMouse])
    · by_cases modifier : LockMachine.IsModifier key
      · rw [if_neg toggles, if_pos modifier, if_pos ⟨toggles, modifier⟩]
        exact inStep.locks ⟨rfl, rfl⟩ rfl free (by simp [InputArea.lockMouse])
      · rw [if_neg toggles, if_neg modifier, if_neg fun both => modifier both.2, if_neg toggles]
        exact inStep
  | lockKeyDown storedKey =>
    -- pressing another modifier does not change which release unlocks
    obtain ⟨down, stored⟩ := described
    by_cases toggles : (key.val : Int) = a.mLockToggleKey
    · simp only [down, toggles, reduceCtorEq, if_false, and_self, if_true]
      exact inStep.stays rfl rfl (by simp [down])
    · simp only [down, toggles, reduceCtorEq, if_false, and_false]
      exact inStep
  | lockKeyLock =>
    have lock : a.mLockState = .lockLockKey := described
    by_cases toggles : (key.val : Int) = a.mLockToggleKey
    · simp only [lock, toggles, reduceCtorEq, if_false, and_true, if_true]
      exact inStep.unlocks rfl rfl (by simp [lock]) rfl
    · simp only [lock, toggles, reduceCtorEq, if_false, and_false]
      exact inStep

/-- The escape key leads to the state that is documented, and the calls stay as they are. -/
theorem InStep.escape_iff (inStep : InStep m a) (allowed : a.mAllowMouseLocking = true)
    (event : XKeyEvent KeySym) :
    InStep (m.press a.mLockToggleKey KEY_ESC) (a.lockOnPress KEY_ESC event) ↔
      a.mLockState = .unlocked := by
  unfold InputArea.lockOnPress LockMachine.press
  simp only [allowed, if_true]
  by_cases free : a.mLockState = .unlocked
  · simp only [free, ne_eq, not_true_eq_false, if_false, iff_true]
    exact inStep.stays free rfl Iff.rfl
  · simp only [free, ne_eq, not_false_eq_true, if_true, iff_false]
    intro after
    -- still grabbed, but no longer locked
    exact after.grabbed_iff.mp (inStep.grabbed_iff.mpr free) rfl

theorem InStep.lockOnRelease (inStep : InStep m a) (allowed : a.mAllowMouseLocking = true)
    (key : Key) : InStep (m.release key) (a.lockOnRelease key) := by
  have described := inStep.described
  unfold InputArea.lockOnRelease
  cases m with
  | unlocked =>
    have free : a.mLockState = .unlocked := described
    simpa [free, LockMachine.release] using inStep
  | lockKeyDown storedKey =>
    obtain ⟨down, stored⟩ := described
    unfold LockMachine.release
    -- only the key that locked the mouse unlocks it
    by_cases same : key = storedKey
    · subst same
      simp only [allowed, down, stored, and_self, if_true]
      exact inStep.unlocks rfl rfl (by simp [down]) rfl
    · have other : ¬ (key.val : Int) = a.mLockStoredKey := by
        rw [stored]
        exact fun equal => same (Fin.ext (by exact_mod_cast equal))
      simpa [other, same] using inStep
  | lockKeyLock =>
    have lock : a.mLockState = .lockLockKey := described
    simpa [lock, LockMachine.release] using inStep

/-- What an area is configured to does not change. -/
structure SameConfig (a b : InputArea) : Prop where
  allowed : b.mAllowMouseLocking = a.mAllowMouseLocking
  toggles : b.mLockToggleKey = a.mLockToggleKey

theorem sameConfig_lockOnPress (a : InputArea) (key : Key) (event : XKeyEvent KeySym) :
    SameConfig a (a.lockOnPress key event) := by
  unfold lockOnPress
  repeat' split
  all_goals exact ⟨rfl, rfl⟩

theorem sameConfig_lockOnRelease (a : InputArea) (key : Key) :
    SameConfig a (a.lockOnRelease key) := by
  unfold lockOnRelease
  split
  all_goals exact ⟨rfl, rfl⟩

theorem sameConfig_handleKey (a : InputArea) (input : KeyInput KeySym) :
    SameConfig a (a.handleKey xKeyToKey input) := by
  cases input with
  | press xkey =>
    obtain ⟨allowed, toggles⟩ := sameConfig_lockOnPress (a.device fun d =>
      (d.press (xKeyToKey xkey.keySym)).addEvent
        (keyEvent .keyPressEvent EventType.isKey_keyPressEvent (xKeyToKey xkey.keySym) xkey))
      (xKeyToKey xkey.keySym) xkey
    exact ⟨allowed, toggles⟩
  | release xkey =>
    obtain ⟨allowed, toggles⟩ := sameConfig_lockOnRelease (a.device fun d =>
      (d.release (xKeyToKey xkey.keySym)).addEvent
        (keyEvent .keyReleaseEvent EventType.isKey_keyReleaseEvent (xKeyToKey xkey.keySym) xkey))
      (xKeyToKey xkey.keySym)
    exact ⟨allowed, toggles⟩

/-- After one input the area keeps in step exactly when it did not escape. -/
theorem InStep.handleKey_iff (inStep : InStep m a) (input : KeyInput KeySym) :
    InStep (m.next xKeyToKey a.mAllowMouseLocking a.mLockToggleKey input)
        (a.handleKey xKeyToKey input) ↔ a.NoEscape xKeyToKey input := by
  cases allowed : a.mAllowMouseLocking with
  | false =>
    cases input with
    | press xkey =>
      have kept : InStep m (a.handleKey xKeyToKey (.press xkey)) := by
        refine inStep.congr ?_ ?_ ?_ <;>
          simp [handleKey, KeyInput.toXEvent, handleEvent, handleKeyPress, device, allowed,
            InputArea.lockOnPress]
      simpa [LockMachine.next, NoEscape, allowed] using kept
    | release xkey =>
      have kept : InStep m (a.handleKey xKeyToKey (.release xkey)) := by
        refine inStep.congr ?_ ?_ ?_ <;>
          simp [handleKey, KeyInput.toXEvent, handleEvent, handleKeyRelease, device, allowed,
            InputArea.lockOnRelease]
      simpa [LockMachine.next, NoEscape] using kept
  | true =>
    cases input with
    | press xkey =>
      -- what happens to the device does not concern the lock
      have pressed : InStep m (a.device fun d => (d.press (xKeyToKey xkey.keySym)).addEvent
          (keyEvent .keyPressEvent EventType.isKey_keyPressEvent (xKeyToKey xkey.keySym) xkey)) :=
        inStep.congr rfl rfl rfl
      by_cases escape : xKeyToKey xkey.keySym = KEY_ESC
      · have iff := pressed.escape_iff allowed xkey
        simp only [LockMachine.next, if_true, NoEscape, allowed, escape, ne_eq,
          not_true_eq_false, imp_false, not_not, true_implies]
        rw [escape] at iff
        simp only [handleKey, KeyInput.toXEvent, handleEvent, handleKeyPress, escape]
        exact iff
      · have after := pressed.lockOnPress allowed (xKeyToKey xkey.keySym) xkey escape
        simp only [LockMachine.next, if_true, NoEscape, escape, ne_eq, not_false_eq_true,
          implies_true, iff_true]
        exact after
    | release xkey =>
      have released : InStep m (a.device fun d => (d.release (xKeyToKey xkey.keySym)).addEvent
          (keyEvent .keyReleaseEvent EventType.isKey_keyReleaseEvent (xKeyToKey xkey.keySym)
            xkey)) :=
        inStep.congr rfl rfl rfl
      have after := released.lockOnRelease allowed (xKeyToKey xkey.keySym)
      simp only [LockMachine.next, if_true, NoEscape, iff_true]
      exact after

/-! ## Runs -/

/-- Every input is possible. -/
def step (a : InputArea) (input : KeyInput KeySym) : Option InputArea :=
  some (a.handleKey xKeyToKey input)

/-- The area with the documented machine beside it. -/
def watch (s : LockMachine × InputArea) (input : KeyInput KeySym) :
    Option (LockMachine × InputArea) :=
  some (s.1.next xKeyToKey s.2.mAllowMouseLocking s.2.mLockToggleKey input,
    s.2.handleKey xKeyToKey input)

theorem run_watch (inputs : List (KeyInput KeySym)) (m : LockMachine) (a : InputArea) :
    run (watch xKeyToKey) (m, a) inputs =
      some (inputs.foldl (LockMachine.next xKeyToKey a.mAllowMouseLocking a.mLockToggleKey) m,
        a.handleKeys xKeyToKey inputs) := by
  induction inputs generalizing m a with
  | nil => rfl
  | cons input inputs ih =>
    obtain ⟨allowed, toggles⟩ := sameConfig_handleKey xKeyToKey a input
    rw [run_cons, watch, Option.bind_some, ih, allowed, toggles]
    rfl

/-- Beside a machine or not, the same inputs escape. -/
theorem meets_watch_noEscape (m : LockMachine) (a : InputArea)
    (inputs : List (KeyInput KeySym)) :
    Meets (watch xKeyToKey) (fun s input => s.2.NoEscape xKeyToKey input) (m, a) inputs ↔
      Meets (step xKeyToKey) (NoEscape xKeyToKey) a inputs := by
  have same : ∀ s input, (watch xKeyToKey s input).map Prod.snd = step xKeyToKey s.2 input :=
    fun _ _ => rfl
  show Meets (watch xKeyToKey) (fun s => NoEscape xKeyToKey s.2) (m, a) inputs ↔ _
  exact meets_watch Prod.snd same

/-- From an unlocked area, the grab, the lock state and the documented machine agree after each
of the inputs exactly when none of them escapes while the mouse is locked. -/
theorem in_step_iff_no_escape (a : InputArea) (inputs : List (KeyInput KeySym))
    (free : a.mLockState = .unlocked) (quiet : a.grabCalls = []) :
    (∀ front, front <+: inputs →
        InStep (a.documented xKeyToKey front) (a.handleKeys xKeyToKey front)) ↔
      Meets (step xKeyToKey) (NoEscape xKeyToKey) a inputs := by
  have start : InStep .unlocked a :=
    ⟨free, by simp [Grabbed, quiet, free], quiet ▸ alternates_nil⟩
  rw [← meets_watch_noEscape xKeyToKey .unlocked a]
  -- one input keeps the documented lock and the code in step unless it is the escape
  have keeps : ∀ (s : LockMachine × InputArea) input t, True → InStep s.1 s.2 →
      watch xKeyToKey s input = some t →
        (InStep t.1 t.2 ↔ s.2.NoEscape xKeyToKey input) ∧ (InStep t.1 t.2 → True) := by
    rintro s input t - good stepped
    obtain rfl := Option.some.inj stepped
    exact ⟨good.handleKey_iff xKeyToKey input, fun _ => trivial⟩
  have always := run_always_iff_meets (fun _ => True) (fun s => InStep s.1 s.2)
    (fun s input => s.2.NoEscape xKeyToKey input) keeps trivial start
    (run_watch xKeyToKey inputs .unlocked a)
  rw [← always]
  constructor
  · intro all front s part here
    rw [run_watch] at here
    obtain rfl := Option.some.inj here
    exact all front part
  · intro all front part
    exact all front _ part (run_watch xKeyToKey front .unlocked a)

/-- Two of the key symbols of X: the left Alt key and the escape key. -/
def altOrEscape (keySym : Nat) : Key :=
  if keySym = 0xFFE9 then KEY_ALT else if keySym = 0xFF1B then KEY_ESC else KEY_UNKNOWN

def keyOf (keySym : Nat) : XKeyEvent Nat :=
  { keySym, state := 0, time := 0, x := 0, y := 0, buffer := 0 }

/-- An area of which the key 1 is the lock key. -/
def lockable : InputArea where
  mAllowMouseLocking := true
  mLockToggleKey := 9
  displayHeight := 1024
  mKeyboardMouseDevice := .configured false

theorem in_step_iff_no_escape_alt :
    InStep (lockable.documented altOrEscape [.press (keyOf 0xFFE9), .release (keyOf 0xFFE9)])
      (lockable.handleKeys altOrEscape [.press (keyOf 0xFFE9), .release (keyOf 0xFFE9)]) :=
  (in_step_iff_no_escape altOrEscape lockable
    [.press (keyOf 0xFFE9), .release (keyOf 0xFFE9)] rfl rfl).mpr (by decide) _
    (List.prefix_refl _)

/-- The escape key while the Alt key is held: the pointer stays grabbed, and the state says that
it is free. -/
theorem escape_keeps_grab :
    (lockable.handleKeys altOrEscape [.press (keyOf 0xFFE9), .press (keyOf 0xFF1B)]).Grabbed ∧
      (lockable.handleKeys altOrEscape
        [.press (keyOf 0xFFE9), .press (keyOf 0xFF1B)]).mLockState = .unlocked := by
  unfold Grabbed
  decide

end InputArea

end VRJuggler.Gadget
