import Mathlib.Data.List.Induction
import VRJuggler.Gadget.InputArea

/-!
# Frames of a keyboard

Between two updates of a keyboard and mouse device events are handled; an update publishes the
counts and the events of its frame, and starts the next frame with a count of one for each key
that is still down. A key is down when its last press or release was a press.
-/
namespace VRJuggler.Gadget

namespace InputArea

variable {KeySym : Type} (xKeyToKey : KeySym → Key)

/-! ## What the events say -/

/-- The key that a mouse button stands for, if Gadgeteer has one. -/
def buttonKey (scroll_as_buttons : Bool) (button : UInt32) : Option Key :=
  let key :=
    if 4 ≤ button.toNat ∧ button.toNat ≤ 7 then
      if scroll_as_buttons then mouseButton button else (scrolling button).1
    else mouseButton button
  if KEY_UNKNOWN = key then none else some key

def pressedKey (scroll_as_buttons : Bool) : XEvent KeySym → Option Key
  | .keyPress xkey => some (xKeyToKey xkey.keySym)
  | .buttonPress xbutton => buttonKey scroll_as_buttons xbutton.button
  | _ => none

def releasedKey (scroll_as_buttons : Bool) : XEvent KeySym → Option Key
  | .keyRelease xkey => some (xKeyToKey xkey.keySym)
  | .buttonRelease xbutton => buttonKey scroll_as_buttons xbutton.button
  | _ => none

/-- How often the key is pressed. -/
def presses (scroll_as_buttons : Bool) (key : Key) (events : List (XEvent KeySym)) : Nat :=
  events.countP fun e => pressedKey xKeyToKey scroll_as_buttons e = some key

/-- Whether the key is down after an event, and before it. -/
def downAfter (scroll_as_buttons : Bool) (key : Key) (down : Bool) (e : XEvent KeySym) : Bool :=
  if pressedKey xKeyToKey scroll_as_buttons e = some key then true
  else if releasedKey xKeyToKey scroll_as_buttons e = some key then false
  else down

/-- Whether the key is held after the events. The key that stands for none has been pressed by
the constructor. -/
def held (scroll_as_buttons : Bool) (key : Key) (events : List (XEvent KeySym)) : Bool :=
  events.foldl (downAfter xKeyToKey scroll_as_buttons key) (key = KEY_NONE)

/-- The size of the window after an event. -/
def resized (a : InputArea) : XEvent KeySym → InputArea
  | .configureNotify width height => { a with mWidth := width, mHeight := height }
  | _ => a

/-- The event of a button, if Gadgeteer has a key for it. -/
def buttonEvent (a : InputArea) (isPress : Bool) (event : XButtonEvent) : Option InputEvent :=
  let asButton : Option InputEvent :=
    if KEY_UNKNOWN = mouseButton event.button then none
    else
      let button_mask := getButtonMask event.button ||| getMask event.state
      if isPress then
        some (a.mouseEvent .mouseButtonPressEvent EventType.isMouse_mouseButtonPressEvent
          (mouseButton event.button).toKeys (0, 0) button_mask event.toXMotionEvent)
      else
        some (a.mouseEvent .mouseButtonReleaseEvent EventType.isMouse_mouseButtonReleaseEvent
          (mouseButton event.button).toKeys (0, 0) button_mask event.toXMotionEvent)
  if 4 ≤ event.button.toNat ∧ event.button.toNat ≤ 7 then
    if a.mKeyboardMouseDevice.mUseButtonsForScrolling then asButton
    else
      if KEY_UNKNOWN = (scrolling event.button).1 then none
      else
        some (a.mouseEvent .mouseScrollEvent EventType.isMouse_mouseScrollEvent NO_MBUTTON
          (scrolling event.button).2 (getMask event.state) event.toXMotionEvent)
  else asButton

/-- The event of Gadgeteer that tells of an event of the window system. -/
def eventOf (a : InputArea) : XEvent KeySym → Option InputEvent
  | .keyPress xkey =>
    some (keyEvent .keyPressEvent EventType.isKey_keyPressEvent (xKeyToKey xkey.keySym) xkey)
  | .keyRelease xkey =>
    some (keyEvent .keyReleaseEvent EventType.isKey_keyReleaseEvent (xKeyToKey xkey.keySym) xkey)
  | .motionNotify xmotion =>
    some (a.mouseEvent .mouseMoveEvent EventType.isMouse_mouseMoveEvent NO_MBUTTON (0, 0)
      (getMask xmotion.state) xmotion)
  | .buttonPress xbutton => a.buttonEvent true xbutton
  | .buttonRelease xbutton => a.buttonEvent false xbutton
  | .configureNotify _ _ => none

/-- The events of Gadgeteer for what arrives at an area, in the order of arrival. -/
def reported (a : InputArea) : List (XEvent KeySym) → List InputEvent
  | [] => []
  | e :: events => (a.eventOf xKeyToKey e).toList ++ reported (a.resized e) events

/-! ## One event -/

/-- What the events of Gadgeteer are made from, beside the event itself. -/
structure SameView (a b : InputArea) : Prop where
  height : b.mHeight = a.mHeight
  display : b.displayHeight = a.displayHeight
  scrolls : b.mKeyboardMouseDevice.mUseButtonsForScrolling =
    a.mKeyboardMouseDevice.mUseButtonsForScrolling

/-- What handling an event does. -/
structure Handled (a : InputArea) (e : XEvent KeySym) (b : InputArea) : Prop where
  down : ∀ key, b.mKeyboardMouseDevice.mRealkeys key =
    if pressedKey xKeyToKey a.mKeyboardMouseDevice.mUseButtonsForScrolling e = some key then 1
    else if releasedKey xKeyToKey a.mKeyboardMouseDevice.mUseButtonsForScrolling e = some key
      then 0
    else a.mKeyboardMouseDevice.mRealkeys key
  count : ∀ key, key ∉ KeyboardMouseDevice.motionKeys → b.mKeyboardMouseDevice.mKeys key =
    a.mKeyboardMouseDevice.mKeys key +
      if pressedKey xKeyToKey a.mKeyboardMouseDevice.mUseButtonsForScrolling e = some key then 1
      else 0
  queue : b.mKeyboardMouseDevice.mWorkingEventQueue =
    a.mKeyboardMouseDevice.mWorkingEventQueue ++ (a.eventOf xKeyToKey e).toList
  view : SameView (a.resized e) b

theorem SameView.refl (a : InputArea) : SameView a a := ⟨rfl, rfl, rfl⟩

/-- The sizes of an area that an event leaves. -/
def SameSizes (a : InputArea) (e : XEvent KeySym) (b : InputArea) : Prop :=
  b.mHeight = (a.resized e).mHeight ∧ b.displayHeight = (a.resized e).displayHeight

theorem SameSizes.view {a b : InputArea} {e : XEvent KeySym} (sizes : SameSizes a e b)
    (scrolls : b.mKeyboardMouseDevice.mUseButtonsForScrolling =
      a.mKeyboardMouseDevice.mUseButtonsForScrolling) : SameView (a.resized e) b := by
  refine ⟨sizes.1, sizes.2, scrolls.trans ?_⟩
  cases e <;> rfl

/-- The lock does not concern the device. -/
theorem device_lockOnPress (a : InputArea) (key : Key) (event : XKeyEvent KeySym) :
    (a.lockOnPress key event).mKeyboardMouseDevice = a.mKeyboardMouseDevice ∧
      SameView a (a.lockOnPress key event) := by
  unfold lockOnPress
  -- whichever branch is taken, only the lock state and the recorded calls change
  repeat' split
  all_goals exact ⟨rfl, rfl, rfl, rfl⟩

theorem device_lockOnRelease (a : InputArea) (key : Key) :
    (a.lockOnRelease key).mKeyboardMouseDevice = a.mKeyboardMouseDevice ∧
      SameView a (a.lockOnRelease key) := by
  unfold lockOnRelease
  split
  all_goals exact ⟨rfl, rfl, rfl, rfl⟩

variable {xKeyToKey} {a b : InputArea} {e : XEvent KeySym} {key : Key} {made : InputEvent}

/-- A key goes down and an event tells of it. -/
theorem handled_press (sizes : SameSizes a e b)
    (device : b.mKeyboardMouseDevice = (a.mKeyboardMouseDevice.press key).addEvent made)
    (pressed : pressedKey xKeyToKey a.mKeyboardMouseDevice.mUseButtonsForScrolling e = some key)
    (tells : a.eventOf xKeyToKey e = some made) : Handled xKeyToKey a e b where
  down other := by
    -- the key of the event, and each other key, which stays as it was
    by_cases same : key = other
    · subst same
      simp [device, pressed, KeyboardMouseDevice.addEvent, KeyboardMouseDevice.press]
    · have apart : other ≠ key := fun equal => same equal.symm
      have released : releasedKey xKeyToKey a.mKeyboardMouseDevice.mUseButtonsForScrolling e =
          none := by
        cases e <;> simp_all [pressedKey, releasedKey]
      simp [device, pressed, released, same, apart, KeyboardMouseDevice.addEvent,
        KeyboardMouseDevice.press]
  count other _ := by
    by_cases same : key = other
    · subst same
      simp [device, pressed, KeyboardMouseDevice.addEvent, KeyboardMouseDevice.press]
    · have apart : other ≠ key := fun equal => same equal.symm
      simp [device, pressed, same, apart, KeyboardMouseDevice.addEvent, KeyboardMouseDevice.press]
  queue := by
    rw [device, tells]
    rfl
  view := sizes.view (by rw [device]; rfl)

/-- A key goes up and an event tells of it. -/
theorem handled_release (sizes : SameSizes a e b)
    (device : b.mKeyboardMouseDevice = (a.mKeyboardMouseDevice.release key).addEvent made)
    (pressed : pressedKey xKeyToKey a.mKeyboardMouseDevice.mUseButtonsForScrolling e = none)
    (released : releasedKey xKeyToKey a.mKeyboardMouseDevice.mUseButtonsForScrolling e = some key)
    (tells : a.eventOf xKeyToKey e = some made) : Handled xKeyToKey a e b where
  down other := by
    by_cases same : key = other
    · subst same
      simp [device, pressed, released, KeyboardMouseDevice.addEvent, KeyboardMouseDevice.release]
    · have apart : other ≠ key := fun equal => same equal.symm
      simp [device, pressed, released, same, apart, KeyboardMouseDevice.addEvent,
        KeyboardMouseDevice.release]
  count other _ := by
    -- a release leaves the counts of the frame
    simp [device, pressed, KeyboardMouseDevice.addEvent, KeyboardMouseDevice.release]
  queue := by
    rw [device, tells]
    rfl
  view := sizes.view (by rw [device]; rfl)

/-- Nothing that counts happens. -/
theorem handled_nothing (sizes : SameSizes a e b)
    (device : b.mKeyboardMouseDevice = a.mKeyboardMouseDevice)
    (pressed : pressedKey xKeyToKey a.mKeyboardMouseDevice.mUseButtonsForScrolling e = none)
    (released : releasedKey xKeyToKey a.mKeyboardMouseDevice.mUseButtonsForScrolling e = none)
    (tells : a.eventOf xKeyToKey e = none) : Handled xKeyToKey a e b where
  down other := by simp [device, pressed, released]
  count other _ := by simp [device, pressed]
  queue := by simp [device, tells]
  view := sizes.view (by rw [device])

/-- An event that only counts for the keys of the movements. -/
theorem handled_move {keys : Key → UInt32} (sizes : SameSizes a e b)
    (device : b.mKeyboardMouseDevice =
      { a.mKeyboardMouseDevice.addEvent made with mKeys := keys })
    (others : ∀ other, other ∉ KeyboardMouseDevice.motionKeys →
      keys other = a.mKeyboardMouseDevice.mKeys other)
    (pressed : pressedKey xKeyToKey a.mKeyboardMouseDevice.mUseButtonsForScrolling e = none)
    (released : releasedKey xKeyToKey a.mKeyboardMouseDevice.mUseButtonsForScrolling e = none)
    (tells : a.eventOf xKeyToKey e = some made) : Handled xKeyToKey a e b where
  down other := by simp [device, pressed, released, KeyboardMouseDevice.addEvent]
  count other still := by simp [device, pressed, others other still]
  queue := by
    rw [device, tells]
    rfl
  view := sizes.view (by rw [device]; rfl)

/-- A movement along one axis counts for the keys of the axis only. -/
theorem moveKeys_spec {pos neg : Key} (posMoves : pos ∈ KeyboardMouseDevice.motionKeys)
    (negMoves : neg ∈ KeyboardMouseDevice.motionKeys) (delta : Int32) (d : KeyboardMouseDevice) :
    ∃ keys, moveKeys pos neg delta d = { d with mKeys := keys } ∧
      ∀ other, other ∉ KeyboardMouseDevice.motionKeys → keys other = d.mKeys other := by
  have apart : ∀ {moving other : Key}, moving ∈ KeyboardMouseDevice.motionKeys →
      other ∉ KeyboardMouseDevice.motionKeys → other ≠ moving := by
    rintro moving other moves still rfl
    exact still moves
  unfold moveKeys KeyboardMouseDevice.addKeys
  -- one of the two keys of the axis is counted, by the sign of the distance
  split
  · exact ⟨_, rfl, fun other still => Function.update_of_ne (apart posMoves still) _ _⟩
  · exact ⟨_, rfl, fun other still => Function.update_of_ne (apart negMoves still) _ _⟩

theorem moveBoth_spec (dx dy : Int32) (d : KeyboardMouseDevice) :
    ∃ keys, moveKeys MOUSE_POSY MOUSE_NEGY dy (moveKeys MOUSE_POSX MOUSE_NEGX dx d) =
        { d with mKeys := keys } ∧
      ∀ other, other ∉ KeyboardMouseDevice.motionKeys → keys other = d.mKeys other := by
  obtain ⟨across, first, acrossSame⟩ := moveKeys_spec
    (show MOUSE_POSX ∈ KeyboardMouseDevice.motionKeys by decide)
    (show MOUSE_NEGX ∈ KeyboardMouseDevice.motionKeys by decide) dx d
  obtain ⟨along, second, alongSame⟩ := moveKeys_spec
    (show MOUSE_POSY ∈ KeyboardMouseDevice.motionKeys by decide)
    (show MOUSE_NEGY ∈ KeyboardMouseDevice.motionKeys by decide) dy { d with mKeys := across }
  refine ⟨along, by rw [first, second], fun other still => ?_⟩
  exact (alongSame other still).trans (acrossSame other still)

theorem handled_motion (a : InputArea) (event : XMotionEvent) :
    Handled xKeyToKey a (.motionNotify event) (a.handleMotion event) := by
  unfold handleMotion
  split
  · obtain ⟨keys, moved, others⟩ := moveBoth_spec (event.x - a.mPrevX) (event.y - a.mPrevY)
      (a.mKeyboardMouseDevice.addEvent (a.mouseEvent .mouseMoveEvent
        EventType.isMouse_mouseMoveEvent NO_MBUTTON (0, 0) (getMask event.state) event))
    exact handled_move ⟨rfl, rfl⟩ moved others rfl rfl rfl
  · obtain ⟨keys, moved, others⟩ := moveBoth_spec (event.x - a.mLockXCenter)
      (event.y - a.mLockYCenter)
      (a.mKeyboardMouseDevice.addEvent (a.mouseEvent .mouseMoveEvent
        EventType.isMouse_mouseMoveEvent NO_MBUTTON (0, 0) (getMask event.state) event))
    exact handled_move ⟨rfl, rfl⟩ moved others rfl rfl rfl

/-- A button of the mouse is pressed or released. -/
def buttonXEvent (isPress : Bool) (event : XButtonEvent) : XEvent KeySym :=
  if isPress then .buttonPress event else .buttonRelease event

/-- One that Gadgeteer has no key for is passed over. -/
theorem handled_unknownButton {isPress : Bool} {event : XButtonEvent}
    (unknown : buttonKey a.mKeyboardMouseDevice.mUseButtonsForScrolling event.button = none)
    (silent : a.buttonEvent isPress event = none) :
    Handled xKeyToKey a (buttonXEvent isPress event) a := by
  cases isPress with
  | true => exact handled_nothing ⟨rfl, rfl⟩ rfl unknown rfl silent
  | false => exact handled_nothing ⟨rfl, rfl⟩ rfl rfl unknown silent

theorem handled_knownButton {isPress : Bool} {event : XButtonEvent}
    (sizes : b.mHeight = a.mHeight ∧ b.displayHeight = a.displayHeight)
    (device : b.mKeyboardMouseDevice = (if isPress then a.mKeyboardMouseDevice.press key
      else a.mKeyboardMouseDevice.release key).addEvent made)
    (known : buttonKey a.mKeyboardMouseDevice.mUseButtonsForScrolling event.button = some key)
    (tells : a.buttonEvent isPress event = some made) :
    Handled xKeyToKey a (buttonXEvent isPress event) b := by
  cases isPress with
  | true => exact handled_press sizes device known tells
  | false => exact handled_release sizes device rfl known tells

/-- Whether a button of some number scrolls. -/
theorem choose_button {α : Type} {inside : Prop} [Decidable inside] {asButton : Bool}
    {button scroll : α} (chosen : ¬ (inside ∧ asButton = false)) :
    (if inside then if asButton then button else scroll else button) = button := by
  -- inside the range the configuration decides, outside it is a button anyway
  by_cases among : inside
  · have on : asButton = true := by
      cases asButton with
      | true => rfl
      | false => exact absurd ⟨among, rfl⟩ chosen
    rw [if_pos among, if_pos on]
  · rw [if_neg among]

theorem handled_button (a : InputArea) (isPress : Bool) (event : XButtonEvent) :
    Handled xKeyToKey a (buttonXEvent isPress event) (a.handleButton isPress event) := by
  unfold handleButton
  -- X reports the wheel as buttons 4 to 7
  by_cases scrolls : (4 ≤ event.button.toNat ∧ event.button.toNat ≤ 7) ∧
      a.mKeyboardMouseDevice.mUseButtonsForScrolling = false
  · obtain ⟨inside, asScroll⟩ := scrolls
    simp only [inside, asScroll, and_self, if_true, Bool.false_eq_true, if_false]
    unfold handleMouseScrollEvent
    by_cases unknown : KEY_UNKNOWN = (scrolling event.button).1
    · simp only [unknown, if_true]
      refine handled_unknownButton ?_ ?_
      · simp [buttonKey, inside, asScroll, unknown]
      · simp [buttonEvent, inside, asScroll, unknown]
    · simp only [unknown, if_false]
      refine handled_knownButton ⟨rfl, rfl⟩ rfl ?_ ?_
      · simp [buttonKey, inside, asScroll, unknown]
      · simp [buttonEvent, inside, asScroll, unknown]
  · rw [choose_button scrolls]
    unfold handleMouseButtonEvent
    -- a button the table does not know makes no event
    by_cases unknown : KEY_UNKNOWN = mouseButton event.button
    · rw [if_pos unknown]
      refine handled_unknownButton ?_ ?_
      · rw [buttonKey, choose_button scrolls]
        exact if_pos unknown
      · rw [buttonEvent, choose_button scrolls]
        exact if_pos unknown
    · have known : buttonKey a.mKeyboardMouseDevice.mUseButtonsForScrolling event.button =
          some (mouseButton event.button) := by
        rw [buttonKey, choose_button scrolls]
        exact if_neg unknown
      rw [if_neg unknown]
      cases isPress with
      | true =>
        refine handled_knownButton ⟨rfl, rfl⟩ rfl known ?_
        rw [buttonEvent, choose_button scrolls]
        exact if_neg unknown
      | false =>
        refine handled_knownButton ⟨rfl, rfl⟩ rfl known ?_
        rw [buttonEvent, choose_button scrolls]
        exact if_neg unknown

theorem handled_handleEvent (xKeyToKey : KeySym → Key) (a : InputArea) (e : XEvent KeySym) :
    Handled xKeyToKey a e (a.handleEvent xKeyToKey e) := by
  cases e with
  | keyPress xkey =>
    -- the lock is looked after once the device has been told
    obtain ⟨device, sizes⟩ := device_lockOnPress (a.device fun d =>
      (d.press (xKeyToKey xkey.keySym)).addEvent
        (keyEvent .keyPressEvent EventType.isKey_keyPressEvent (xKeyToKey xkey.keySym) xkey))
      (xKeyToKey xkey.keySym) xkey
    exact handled_press ⟨sizes.height, sizes.display⟩ device rfl rfl
  | keyRelease xkey =>
    obtain ⟨device, sizes⟩ := device_lockOnRelease (a.device fun d =>
      (d.release (xKeyToKey xkey.keySym)).addEvent
        (keyEvent .keyReleaseEvent EventType.isKey_keyReleaseEvent (xKeyToKey xkey.keySym) xkey))
      (xKeyToKey xkey.keySym)
    exact handled_release ⟨sizes.height, sizes.display⟩ device rfl rfl rfl
  | motionNotify xmotion => exact handled_motion a xmotion
  | buttonPress xbutton => exact handled_button a true xbutton
  | buttonRelease xbutton => exact handled_button a false xbutton
  | configureNotify width height => exact handled_nothing ⟨rfl, rfl⟩ rfl rfl rfl rfl

/-! ## Frames -/

/-- The events of a frame, and the time of the update that ends it. -/
structure Frame (KeySym : Type) where
  events : List (XEvent KeySym)
  now : UInt64

/-- All the events of frames, in their order. -/
def allEvents (frames : List (Frame KeySym)) : List (XEvent KeySym) := frames.flatMap Frame.events

variable (xKeyToKey) (sensitive : UInt32 → UInt32)

def frame (a : InputArea) (f : Frame KeySym) : InputArea :=
  (a.handleEvents xKeyToKey f.events).device (KeyboardMouseDevice.updateData sensitive f.now)

def runFrames (a : InputArea) (frames : List (Frame KeySym)) : InputArea :=
  frames.foldl (frame xKeyToKey sensitive) a

/-- The queues that the updates publish. -/
def queues (a : InputArea) : List (Frame KeySym) → List (List InputEvent)
  | [] => []
  | f :: frames =>
    let after := a.frame xKeyToKey sensitive f
    after.mKeyboardMouseDevice.mCurEventQueue :: queues after frames

/-- The size of the window after events. -/
def resizes (a : InputArea) (events : List (XEvent KeySym)) : InputArea := events.foldl resized a

variable {xKeyToKey sensitive}

/-! ## What has arrived so far -/

theorem SameView.resized {a b : InputArea} (view : SameView a b) (e : XEvent KeySym) :
    SameView (a.resized e) (b.resized e) := by
  cases e with
  | configureNotify width height => exact ⟨rfl, view.display, view.scrolls⟩
  | _ => exact view

theorem SameView.mouseEvent {a b : InputArea} (view : SameView a b) :
    @InputArea.mouseEvent b = @InputArea.mouseEvent a := by
  funext type isMouse button scrollDelta mState event
  simp [InputArea.mouseEvent, view.height, view.display]

theorem SameView.eventOf {a b : InputArea} (view : SameView a b) (e : XEvent KeySym) :
    b.eventOf xKeyToKey e = a.eventOf xKeyToKey e := by
  cases e <;>
    simp [InputArea.eventOf, InputArea.buttonEvent, view.mouseEvent, view.scrolls]

theorem SameView.reported {a b : InputArea} (view : SameView a b)
    (events : List (XEvent KeySym)) :
    b.reported xKeyToKey events = a.reported xKeyToKey events := by
  induction events generalizing a b with
  | nil => rfl
  | cons e events ih =>
    rw [InputArea.reported, InputArea.reported, view.eventOf e, ih (view.resized e)]

theorem resizes_append (a : InputArea) (earlier events : List (XEvent KeySym)) :
    a.resizes (earlier ++ events) = (a.resizes earlier).resizes events :=
  List.foldl_append

theorem reported_append (a : InputArea) (earlier events : List (XEvent KeySym)) :
    a.reported xKeyToKey (earlier ++ events) =
      a.reported xKeyToKey earlier ++ (a.resizes earlier).reported xKeyToKey events := by
  induction earlier generalizing a with
  | nil => rfl
  | cons e earlier ih =>
    rw [List.cons_append, reported, reported, ih, List.append_assoc]
    rfl

theorem held_snoc (scroll_as_buttons : Bool) (key : Key) (events : List (XEvent KeySym))
    (e : XEvent KeySym) :
    held xKeyToKey scroll_as_buttons key (events ++ [e]) =
      downAfter xKeyToKey scroll_as_buttons key
        (held xKeyToKey scroll_as_buttons key events) e := by
  simp [held]

theorem presses_snoc (scroll_as_buttons : Bool) (key : Key) (events : List (XEvent KeySym))
    (e : XEvent KeySym) :
    presses xKeyToKey scroll_as_buttons key (events ++ [e]) =
      presses xKeyToKey scroll_as_buttons key events +
        if pressedKey xKeyToKey scroll_as_buttons e = some key then 1 else 0 := by
  simp [presses, List.countP_cons]

/-- What a device has, by the events until the last update and those since then. -/
structure Tracks (xKeyToKey : KeySym → Key) (scroll_as_buttons : Bool) (start : InputArea)
    (earlier events : List (XEvent KeySym)) (a : InputArea) : Prop where
  down : ∀ key, a.mKeyboardMouseDevice.mRealkeys key =
    if held xKeyToKey scroll_as_buttons key (earlier ++ events) then 1 else 0
  count : ∀ key, key ∉ KeyboardMouseDevice.motionKeys → a.mKeyboardMouseDevice.mKeys key =
    UInt32.ofNat (presses xKeyToKey scroll_as_buttons key events +
      (held xKeyToKey scroll_as_buttons key earlier).toNat)
  queue : a.mKeyboardMouseDevice.mWorkingEventQueue =
    (start.resizes earlier).reported xKeyToKey events
  view : SameView (start.resizes (earlier ++ events)) a
  scrolls : a.mKeyboardMouseDevice.mUseButtonsForScrolling = scroll_as_buttons

section Tracked

variable {scroll_as_buttons : Bool} {start : InputArea} {earlier events : List (XEvent KeySym)}

theorem Tracks.handleEvent (tracks : Tracks xKeyToKey scroll_as_buttons start earlier events a)
    (e : XEvent KeySym) :
    Tracks xKeyToKey scroll_as_buttons start earlier (events ++ [e])
      (a.handleEvent xKeyToKey e) := by
  obtain ⟨down, count, queue, view⟩ := handled_handleEvent xKeyToKey a e
  rw [tracks.scrolls] at down count
  constructor
  · intro key
    rw [down key, tracks.down key, ← List.append_assoc, held_snoc, downAfter]
    split
    · rfl
    · split
      · rfl
      · rfl
  · intro key still
    rw [count key still, tracks.count key still, presses_snoc, Nat.add_right_comm]
    by_cases pressed : pressedKey xKeyToKey scroll_as_buttons e = some key
    · rw [if_pos pressed, if_pos pressed]
      exact (UInt32.ofNat_add _ 1).symm
    · rw [if_neg pressed, if_neg pressed]
      exact UInt32.add_zero _
  · rw [queue, tracks.queue, reported_append, tracks.view.eventOf, resizes_append]
    simp [reported]
  · rw [← List.append_assoc, resizes_append]
    exact ⟨view.height.trans (tracks.view.resized e).height,
      view.display.trans (tracks.view.resized e).display,
      view.scrolls.trans (tracks.view.resized e).scrolls⟩
  · rw [view.scrolls, ← tracks.scrolls]
    cases e <;> rfl

theorem Tracks.handleEvents (tracks : Tracks xKeyToKey scroll_as_buttons start earlier [] a)
    (events : List (XEvent KeySym)) :
    Tracks xKeyToKey scroll_as_buttons start earlier events (a.handleEvents xKeyToKey events) := by
  induction events using List.reverseRecOn with
  | nil => exact tracks
  | append_singleton events e ih =>
    rw [InputArea.handleEvents, List.foldl_append]
    exact ih.handleEvent e

/-- An update starts a frame in which nothing has been pressed yet. -/
theorem Tracks.updateData (tracks : Tracks xKeyToKey scroll_as_buttons start earlier events a)
    (now : UInt64) :
    Tracks xKeyToKey scroll_as_buttons start (earlier ++ events) []
      (a.device (KeyboardMouseDevice.updateData sensitive now)) := by
  constructor
  · intro key
    rw [List.append_nil]
    exact tracks.down key
  · intro key _
    refine (tracks.down key).trans ?_
    cases held xKeyToKey scroll_as_buttons key (earlier ++ events) <;> rfl
  · rfl
  · rw [List.append_nil]
    exact ⟨tracks.view.height, tracks.view.display, tracks.view.scrolls⟩
  · exact tracks.scrolls

/-- What an update publishes. -/
theorem Tracks.published (tracks : Tracks xKeyToKey scroll_as_buttons start earlier events a)
    (sensitive : UInt32 → UInt32) (now : UInt64) :
    let d := (a.device (KeyboardMouseDevice.updateData sensitive now)).mKeyboardMouseDevice
    (∀ key, key ∉ KeyboardMouseDevice.motionKeys → d.mCurKeys key =
        UInt32.ofNat (presses xKeyToKey scroll_as_buttons key events +
          (held xKeyToKey scroll_as_buttons key earlier).toNat)) ∧
      d.mCurEventQueue = (start.resizes earlier).reported xKeyToKey events := by
  refine ⟨fun key still => ?_, tracks.queue⟩
  rw [← tracks.count key still]
  exact if_neg still

theorem Tracks.frame (tracks : Tracks xKeyToKey scroll_as_buttons start earlier [] a)
    (f : Frame KeySym) :
    Tracks xKeyToKey scroll_as_buttons start (earlier ++ f.events) []
      (a.frame xKeyToKey sensitive f) :=
  (tracks.handleEvents f.events).updateData f.now

theorem Tracks.runFrames (tracks : Tracks xKeyToKey scroll_as_buttons start [] [] a)
    (frames : List (Frame KeySym)) :
    Tracks xKeyToKey scroll_as_buttons start (allEvents frames) []
      (a.runFrames xKeyToKey sensitive frames) := by
  induction frames using List.reverseRecOn with
  | nil => exact tracks
  | append_singleton frames f ih =>
    rw [InputArea.runFrames, List.foldl_append, allEvents, List.flatMap_append,
      List.flatMap_singleton]
    exact ih.frame f

/-- The queues of frames hold the events of the frames, in their order. -/
theorem Tracks.queues (tracks : Tracks xKeyToKey scroll_as_buttons start earlier [] a)
    (frames : List (Frame KeySym)) :
    (a.queues xKeyToKey sensitive frames).flatten =
      (start.resizes earlier).reported xKeyToKey (allEvents frames) := by
  induction frames generalizing a earlier with
  | nil => rfl
  | cons f frames ih =>
    have here := ((tracks.handleEvents f.events).published sensitive f.now).2
    have all : allEvents (f :: frames) = f.events ++ allEvents frames := List.flatMap_cons
    rw [InputArea.queues, List.flatten_cons, ih (tracks.frame f), all, reported_append,
      ← resizes_append]
    exact congrArg (· ++ _) here

end Tracked

/-! ## Every update -/

/-- The area with a device that has just been configured. -/
def withDevice (a : InputArea) (scroll_as_buttons : Bool) : InputArea :=
  { a with mKeyboardMouseDevice := .configured scroll_as_buttons }

theorem tracks_withDevice (a : InputArea) (scroll_as_buttons : Bool) :
    Tracks xKeyToKey scroll_as_buttons (a.withDevice scroll_as_buttons) [] []
      (a.withDevice scroll_as_buttons) where
  down key := by
    by_cases none : key = KEY_NONE
    · subst none
      rfl
    · have nonzero : ¬ key.val = 0 := fun zero => none (Fin.ext zero)
      simp [withDevice, KeyboardMouseDevice.configured, KeyboardMouse.create, held, none, nonzero]
  count key _ := by
    by_cases none : key = KEY_NONE
    · subst none
      rfl
    · have nonzero : ¬ key.val = 0 := fun zero => none (Fin.ext zero)
      simp [withDevice, KeyboardMouseDevice.configured, KeyboardMouse.create, held, presses, none,
        nonzero]
  queue := rfl
  view := .refl _
  scrolls := rfl

/-- After every update a key counts its presses in the frame, and one more if it was held at the
update before; the queue is that of the events of the frame, and the queues of all frames hold
each event once. -/
theorem key_frames (xKeyToKey : KeySym → Key) (sensitive : UInt32 → UInt32) (a : InputArea)
    (scroll_as_buttons : Bool) (frames : List (Frame KeySym)) (last : Frame KeySym) :
    let start := a.withDevice scroll_as_buttons
    let d := ((start.runFrames xKeyToKey sensitive frames).frame xKeyToKey sensitive
      last).mKeyboardMouseDevice
    (∀ key, key ∉ KeyboardMouseDevice.motionKeys → d.mCurKeys key =
        UInt32.ofNat (presses xKeyToKey scroll_as_buttons key last.events +
          (held xKeyToKey scroll_as_buttons key (allEvents frames)).toNat)) ∧
      d.mCurEventQueue =
        (start.resizes (allEvents frames)).reported xKeyToKey last.events ∧
      (start.queues xKeyToKey sensitive (frames ++ [last])).flatten =
        start.reported xKeyToKey (allEvents (frames ++ [last])) := by
  intro start d
  have first : Tracks xKeyToKey scroll_as_buttons start [] [] start :=
    tracks_withDevice a scroll_as_buttons
  have before : Tracks xKeyToKey scroll_as_buttons start (allEvents frames) []
      (start.runFrames xKeyToKey sensitive frames) := first.runFrames frames
  obtain ⟨counts, queue⟩ := (before.handleEvents last.events).published sensitive last.now
  exact ⟨counts, queue, first.queues (frames ++ [last])⟩

/-- An event of the keyboard or the mouse. -/
def IsInput : XEvent KeySym → Prop
  | .configureNotify _ _ => False
  | _ => True

instance (e : XEvent KeySym) : Decidable (IsInput e) :=
  match e with
  | .configureNotify _ _ => inferInstanceAs (Decidable False)
  | .keyPress _ | .keyRelease _ | .motionNotify _ | .buttonPress _ | .buttonRelease _ =>
    inferInstanceAs (Decidable True)

def window : InputArea where
  mAllowMouseLocking := false
  mLockToggleKey := -1
  displayHeight := 1024
  mKeyboardMouseDevice := .configured false

/-- A press of the tenth button of a mouse arrives and is in no queue. -/
theorem tenth_button_dropped :
    ¬ ∀ events : List (XEvent Nat),
      ((window.withDevice false).frame (fun _ => KEY_UNKNOWN) id
          ⟨events, 0⟩).mKeyboardMouseDevice.mCurEventQueue.length =
        (events.filter fun e => IsInput e).length := by
  intro all
  have one := all [.buttonPress
    { x := 0, y := 0, x_root := 0, y_root := 0, state := 0, time := 0, button := 10 }]
  exact absurd one (by decide)

end InputArea

end VRJuggler.Gadget
