import Mathlib.Logic.Function.Basic
import VRJuggler.Gadget.KeyboardMouse

/-!
# Input areas

A window of the X window system that takes keyboard and mouse input, and the device that it
reports to. The table from key symbols to keys is a parameter. What the window system is told
(grabbing for a pressed button, moving the pointer back to the centre) is left out, except that
the calls of `lockMouse` and `unlockMouse` are recorded.
-/
namespace VRJuggler.Gadget

/-! ## Keys -/

/-- A `gadget::Keys` that is an index of the arrays of keys. -/
abbrev Key := Fin LAST_KEY

def Key.toKeys (key : Key) : Keys := UInt32.ofNat key.val

def KEY_NONE : Key := ⟨0, by decide⟩
def KEY_SHIFT : Key := ⟨5, by decide⟩
def KEY_CTRL : Key := ⟨6, by decide⟩
def KEY_ALT : Key := ⟨7, by decide⟩
def KEY_ESC : Key := ⟨45, by decide⟩
def MOUSE_POSX : Key := ⟨46, by decide⟩
def MOUSE_NEGX : Key := ⟨47, by decide⟩
def MOUSE_POSY : Key := ⟨48, by decide⟩
def MOUSE_NEGY : Key := ⟨49, by decide⟩
def MBUTTON1 : Key := ⟨50, by decide⟩
def MBUTTON2 : Key := ⟨51, by decide⟩
def MBUTTON3 : Key := ⟨52, by decide⟩
def MBUTTON4 : Key := ⟨53, by decide⟩
def MBUTTON5 : Key := ⟨54, by decide⟩
def MBUTTON6 : Key := ⟨55, by decide⟩
def MBUTTON7 : Key := ⟨56, by decide⟩
def MBUTTON8 : Key := ⟨57, by decide⟩
def MBUTTON9 : Key := ⟨58, by decide⟩
def MOUSE_SCROLL_UP : Key := ⟨60, by decide⟩
def MOUSE_SCROLL_DOWN : Key := ⟨61, by decide⟩
def MOUSE_SCROLL_LEFT : Key := ⟨62, by decide⟩
def MOUSE_SCROLL_RIGHT : Key := ⟨63, by decide⟩
def KEY_UNKNOWN : Key := ⟨156, by decide⟩

/-! ## The device -/

structure KeyboardMouseDevice extends KeyboardMouse where
  mKeys : Key → UInt32
  mRealkeys : Key → UInt32
  mUseButtonsForScrolling : Bool

namespace KeyboardMouseDevice

/-- A device that has been configured. -/
def configured (scroll_as_buttons : Bool) : KeyboardMouseDevice where
  toKeyboardMouse := .create
  mKeys := KeyboardMouse.create.mCurKeys
  mRealkeys := KeyboardMouse.create.mCurKeys
  mUseButtonsForScrolling := scroll_as_buttons

def press (d : KeyboardMouseDevice) (key : Key) : KeyboardMouseDevice :=
  { d with
    mRealkeys := Function.update d.mRealkeys key 1
    mKeys := Function.update d.mKeys key (d.mKeys key + 1) }

def release (d : KeyboardMouseDevice) (key : Key) : KeyboardMouseDevice :=
  { d with mRealkeys := Function.update d.mRealkeys key 0 }

/-- `mKeys[key] += amount`. -/
def addKeys (d : KeyboardMouseDevice) (key : Key) (amount : UInt32) : KeyboardMouseDevice :=
  { d with mKeys := Function.update d.mKeys key (d.mKeys key + amount) }

def addEvent (d : KeyboardMouseDevice) (e : InputEvent) : KeyboardMouseDevice :=
  { d with toKeyboardMouse := d.toKeyboardMouse.addEvent e }

/-- The keys that stand for movements of the mouse. -/
def motionKeys : List Key := [MOUSE_POSX, MOUSE_NEGX, MOUSE_POSY, MOUSE_NEGY]

/-- `sensitive`: the product with `mMouseSensitivity`, a `float`, as an `int` again. -/
def updateData (sensitive : UInt32 → UInt32) (now : UInt64) (d : KeyboardMouseDevice) :
    KeyboardMouseDevice :=
  -- the published counts are scaled, those of the device are not
  let scaled (key : Key) : UInt32 :=
    if key ∈ motionKeys then sensitive (d.mKeys key) else d.mKeys key
  let copied : KeyboardMouse := { d.toKeyboardMouse with mCurKeys := scaled }
  { d with
    toKeyboardMouse := copied.updateEventQueue now
    -- the next frame starts with a count of one for each key still down
    mKeys := d.mRealkeys }

end KeyboardMouseDevice

/-! ## Events of the window system -/

structure XKeyEvent (KeySym : Type) where
  keySym : KeySym
  state : UInt32
  time : UInt64
  x : Int32
  y : Int32
  /-- The first character that `XLookupString` gives. -/
  buffer : UInt8

structure XMotionEvent where
  x : Int32
  y : Int32
  x_root : Int32
  y_root : Int32
  state : UInt32
  time : UInt64

structure XButtonEvent extends XMotionEvent where
  button : UInt32

inductive XEvent (KeySym : Type) where
  | keyPress (xkey : XKeyEvent KeySym)
  | keyRelease (xkey : XKeyEvent KeySym)
  | motionNotify (xmotion : XMotionEvent)
  | buttonPress (xbutton : XButtonEvent)
  | buttonRelease (xbutton : XButtonEvent)
  | configureNotify (width height : UInt32)

def SHIFT_MASK : UInt32 := 1
def ALT_MASK : UInt32 := 2
def CTRL_MASK : UInt32 := 4
def BUTTON1_MASK : UInt32 := 16
def BUTTON2_MASK : UInt32 := 32
def BUTTON3_MASK : UInt32 := 64
def BUTTON4_MASK : UInt32 := 128
def BUTTON5_MASK : UInt32 := 256

/-- The masks of X and those of Gadgeteer. -/
def masks : List (UInt32 × UInt32) :=
  [(1, SHIFT_MASK), (4, CTRL_MASK), (8, ALT_MASK), (256, BUTTON1_MASK), (512, BUTTON2_MASK),
    (1024, BUTTON3_MASK), (2048, BUTTON4_MASK), (4096, BUTTON5_MASK)]

def getMask (state : UInt32) : UInt32 :=
  masks.foldl (fun mask m => if state &&& m.1 = 0 then mask else mask ||| m.2) 0

/-- The mask of a button. -/
def getButtonMask (button : UInt32) : UInt32 :=
  match button.toNat with
  | 1 => BUTTON1_MASK
  | 2 => BUTTON2_MASK
  | 3 => BUTTON3_MASK
  | 4 => BUTTON4_MASK
  | 5 => BUTTON5_MASK
  | _ => 0

/-- The key of a mouse button. -/
def mouseButton (button : UInt32) : Key :=
  match button.toNat with
  | 1 => MBUTTON1
  | 2 => MBUTTON2
  | 3 => MBUTTON3
  | 4 => MBUTTON4
  | 5 => MBUTTON5
  | 6 => MBUTTON6
  | 7 => MBUTTON7
  | 8 => MBUTTON8
  | 9 => MBUTTON9
  | _ => KEY_UNKNOWN

/-- The bits of the floats 1 and -1. -/
def one : UInt32 := 0x3F800000
def minusOne : UInt32 := 0xBF800000

/-- The key of a button that scrolls, and how far it does. -/
def scrolling (button : UInt32) : Key × UInt32 × UInt32 :=
  match button.toNat with
  | 4 => (MOUSE_SCROLL_UP, 0, one)
  | 5 => (MOUSE_SCROLL_DOWN, 0, minusOne)
  | 6 => (MOUSE_SCROLL_LEFT, minusOne, 0)
  | 7 => (MOUSE_SCROLL_RIGHT, one, 0)
  | _ => (KEY_UNKNOWN, 0, 0)

/-! ## The area -/

inductive LockState where
  | unlocked
  | lockLockKey
  | lockKeyDown
  | lockAPI
  deriving DecidableEq

inductive GrabCall where
  | lockMouse
  | unlockMouse
  deriving DecidableEq

/-- `displayHeight`: the height that `getDisplayAttributes` gives. -/
structure InputArea where
  mAllowMouseLocking : Bool
  mLockState : LockState := .unlocked
  mLockStoredKey : Int := -1
  mLockToggleKey : Int
  mLockXCenter : Int32 := 0
  mLockYCenter : Int32 := 0
  mPrevX : Int32 := 0
  mPrevY : Int32 := 0
  mWidth : UInt32 := 0
  mHeight : UInt32 := 0
  displayHeight : UInt32
  grabCalls : List GrabCall := []
  mKeyboardMouseDevice : KeyboardMouseDevice

namespace InputArea

variable {KeySym : Type} (xKeyToKey : KeySym → Key) (a : InputArea)

/-- The device is changed by `f`. -/
def device (f : KeyboardMouseDevice → KeyboardMouseDevice) : InputArea :=
  { a with mKeyboardMouseDevice := f a.mKeyboardMouseDevice }

def lockMouse (ev : XKeyEvent KeySym) : InputArea :=
  { a with mLockXCenter := ev.x, mLockYCenter := ev.y, grabCalls := a.grabCalls ++ [.lockMouse] }

def unlockMouse : InputArea := { a with grabCalls := a.grabCalls ++ [.unlockMouse] }

/-- The lock state after a key was pressed. -/
def lockOnPress (vj_key : Key) (event : XKeyEvent KeySym) : InputArea :=
  if a.mAllowMouseLocking then
    if vj_key = KEY_ESC then
      -- the mouse is not unlocked here
      if a.mLockState ≠ .unlocked then { a with mLockState := .unlocked } else a
    else if a.mLockState = .unlocked then
      -- a modifier locks while it is held, the toggle key until it is pressed again
      if (vj_key.val : Int) ≠ a.mLockToggleKey ∧
          (KEY_ALT = vj_key ∨ KEY_CTRL = vj_key ∨ KEY_SHIFT = vj_key) then
        { a with mLockState := .lockKeyDown, mLockStoredKey := vj_key.val }.lockMouse event
      else if (vj_key.val : Int) = a.mLockToggleKey then
        { a with mLockState := .lockLockKey }.lockMouse event
      else a
    -- held by a modifier: the toggle key makes the lock stay
    else if a.mLockState = .lockKeyDown ∧ (vj_key.val : Int) = a.mLockToggleKey then
      { a with mLockState := .lockLockKey }
    else if a.mLockState = .lockLockKey ∧ (vj_key.val : Int) = a.mLockToggleKey then
      { a with mLockState := .unlocked }.unlockMouse
    else a
  else a

/-- The lock state after a key was released. -/
def lockOnRelease (vj_key : Key) : InputArea :=
  if a.mAllowMouseLocking ∧ a.mLockState = .lockKeyDown ∧
      (vj_key.val : Int) = a.mLockStoredKey then
    { a with mLockState := .unlocked }.unlockMouse
  else a

/-- A `char` is signed. -/
def keyEvent (type : EventType) (isKey : type.IsKey) (key : Key) (event : XKeyEvent KeySym) :
    InputEvent :=
  .key { mType := type, isKey := isKey, mKey := key.toKeys, mModifierMask := getMask event.state,
         mTime := event.time, mAsciiKey := event.buffer,
         mUnicodeKey := event.buffer.toInt8.toInt32.toUInt32 }

/-- An event of the mouse; coordinates have their origin at the bottom. -/
def mouseEvent (type : EventType) (isMouse : type.IsMouse) (button : Keys)
    (scrollDelta : UInt32 × UInt32) (mState : UInt32) (event : XMotionEvent) : InputEvent :=
  .mouse { mType := type, isMouse := isMouse, mButton := button,
           mRelativeX := event.x.toUInt32, mRelativeY := a.mHeight - event.y.toUInt32,
           mGlobalX := event.x_root.toUInt32,
           mGlobalY := a.displayHeight - event.y_root.toUInt32,
           mScrollDeltaX := scrollDelta.1, mScrollDeltaY := scrollDelta.2,
           mState := mState, mTime := event.time }

def handleKeyPress (event : XKeyEvent KeySym) : InputArea :=
  let vj_key := xKeyToKey event.keySym
  let pressed := a.device fun d =>
    (d.press vj_key).addEvent (keyEvent .keyPressEvent EventType.isKey_keyPressEvent vj_key event)
  pressed.lockOnPress vj_key event

def handleKeyRelease (event : XKeyEvent KeySym) : InputArea :=
  let vj_key := xKeyToKey event.keySym
  let released := a.device fun d =>
    (d.release vj_key).addEvent
      (keyEvent .keyReleaseEvent EventType.isKey_keyReleaseEvent vj_key event)
  released.lockOnRelease vj_key

/-- How far the pointer went along one axis, as counts of the two keys of the axis. -/
def moveKeys (pos neg : Key) (delta : Int32) (d : KeyboardMouseDevice) : KeyboardMouseDevice :=
  if 0 < delta then d.addKeys pos delta.toUInt32 else d.addKeys neg (-delta).toUInt32

def handleMotion (event : XMotionEvent) : InputArea :=
  let added := a.device fun d => d.addEvent
    (a.mouseEvent .mouseMoveEvent EventType.isMouse_mouseMoveEvent NO_MBUTTON (0, 0)
      (getMask event.state) event)
  let move (dx dy : Int32) (d : KeyboardMouseDevice) : KeyboardMouseDevice :=
    moveKeys MOUSE_POSY MOUSE_NEGY dy (moveKeys MOUSE_POSX MOUSE_NEGX dx d)
  -- a locked pointer is put back to the centre, so that the distance is counted from there
  if a.mLockState = .unlocked then
    { added with mPrevX := event.x, mPrevY := event.y }.device
      (move (event.x - a.mPrevX) (event.y - a.mPrevY))
  else
    { added with mPrevX := a.mLockXCenter, mPrevY := a.mLockYCenter }.device
      (move (event.x - a.mLockXCenter) (event.y - a.mLockYCenter))

def handleMouseButtonEvent (isPress : Bool) (event : XButtonEvent) : InputArea :=
  let gadget_button := mouseButton event.button
  -- a button without a key is ignored
  if KEY_UNKNOWN = gadget_button then a
  else
    let button_mask := getButtonMask event.button ||| getMask event.state
    if isPress then
      a.device fun d => (d.press gadget_button).addEvent
        (a.mouseEvent .mouseButtonPressEvent EventType.isMouse_mouseButtonPressEvent
          gadget_button.toKeys (0, 0) button_mask event.toXMotionEvent)
    else
      a.device fun d => (d.release gadget_button).addEvent
        (a.mouseEvent .mouseButtonReleaseEvent EventType.isMouse_mouseButtonReleaseEvent
          gadget_button.toKeys (0, 0) button_mask event.toXMotionEvent)

def handleMouseScrollEvent (isPress : Bool) (event : XButtonEvent) : InputArea :=
  let (scroll_key, scrollDelta) := scrolling event.button
  if KEY_UNKNOWN = scroll_key then a
  else
    let mouse_event := a.mouseEvent .mouseScrollEvent EventType.isMouse_mouseScrollEvent NO_MBUTTON
      scrollDelta (getMask event.state) event.toXMotionEvent
    a.device fun d => (if isPress then d.press scroll_key else d.release scroll_key).addEvent
      mouse_event

/-- The buttons 4 to 7 scroll, unless the device is configured to take them as buttons. -/
def handleButton (isPress : Bool) (event : XButtonEvent) : InputArea :=
  if 4 ≤ event.button.toNat ∧ event.button.toNat ≤ 7 then
    if a.mKeyboardMouseDevice.mUseButtonsForScrolling then a.handleMouseButtonEvent isPress event
    else a.handleMouseScrollEvent isPress event
  else a.handleMouseButtonEvent isPress event

def handleEvent : XEvent KeySym → InputArea
  | .keyPress xkey => a.handleKeyPress xKeyToKey xkey
  | .keyRelease xkey => a.handleKeyRelease xKeyToKey xkey
  | .motionNotify xmotion => a.handleMotion xmotion
  | .buttonPress xbutton => a.handleButton true xbutton
  | .buttonRelease xbutton => a.handleButton false xbutton
  | .configureNotify width height => { a with mWidth := width, mHeight := height }

/-- All the events that have arrived, under one lock. -/
def handleEvents (events : List (XEvent KeySym)) : InputArea :=
  events.foldl (handleEvent xKeyToKey) a

end InputArea

end VRJuggler.Gadget
