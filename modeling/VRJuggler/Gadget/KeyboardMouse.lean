import Mathlib.Data.List.OfFn
import VRJuggler.Io.ObjectStream

/-!
# Keyboard and mouse devices

The keys and the events of a frame, and how they are written to an `ObjectWriter` and read from
an `ObjectReader`. The type of an event selects the class of the object that reads the rest of
it. The source of an event, a pointer, is left out: it is neither written nor read.
-/
namespace VRJuggler.Gadget

open VRJuggler.Io

/-! ## Events -/

inductive EventType where
  | noEvent
  | keyPressEvent
  | keyReleaseEvent
  | mouseButtonPressEvent
  | mouseButtonReleaseEvent
  | mouseMoveEvent
  | mouseScrollEvent
  deriving DecidableEq

namespace EventType

def toUint16 : EventType → UInt16
  | noEvent => 0
  | keyPressEvent => 1
  | keyReleaseEvent => 2
  | mouseButtonPressEvent => 3
  | mouseButtonReleaseEvent => 4
  | mouseMoveEvent => 5
  | mouseScrollEvent => 6

/-- The types for which a creator of key events is registered. -/
def IsKey (type : EventType) : Prop := type = keyPressEvent ∨ type = keyReleaseEvent

def IsMouse (type : EventType) : Prop :=
  type = mouseButtonPressEvent ∨ type = mouseButtonReleaseEvent ∨ type = mouseMoveEvent ∨
    type = mouseScrollEvent

theorem isKey_keyPressEvent : keyPressEvent.IsKey := Or.inl rfl

theorem isKey_keyReleaseEvent : keyReleaseEvent.IsKey := Or.inr rfl

theorem isMouse_mouseButtonPressEvent : mouseButtonPressEvent.IsMouse := Or.inl rfl

theorem isMouse_mouseButtonReleaseEvent : mouseButtonReleaseEvent.IsMouse := Or.inr (Or.inl rfl)

theorem isMouse_mouseMoveEvent : mouseMoveEvent.IsMouse := Or.inr (Or.inr (Or.inl rfl))

theorem isMouse_mouseScrollEvent : mouseScrollEvent.IsMouse := Or.inr (Or.inr (Or.inr rfl))

end EventType

/-- The number of a `gadget::Keys`. -/
abbrev Keys := UInt32

def KEY_SPACE : Keys := 122

def NO_MBUTTON : Keys := 59

/-- An `int`, a `char` and a `wchar_t` are given by their conversions to unsigned integers. -/
@[ext]
structure KeyEvent where
  mType : EventType
  isKey : mType.IsKey
  mTime : UInt64
  mKey : Keys
  mModifierMask : UInt32
  mAsciiKey : UInt8
  mUnicodeKey : UInt32
  deriving DecidableEq

@[ext]
structure MouseEvent where
  mType : EventType
  isMouse : mType.IsMouse
  mTime : UInt64
  mButton : Keys
  mRelativeX : UInt32
  mRelativeY : UInt32
  mGlobalX : UInt32
  mGlobalY : UInt32
  mScrollDeltaX : Kind.Carrier .float
  mScrollDeltaY : Kind.Carrier .float
  mState : UInt32
  deriving DecidableEq

inductive InputEvent where
  | key (e : KeyEvent)
  | mouse (e : MouseEvent)
  deriving DecidableEq

/-- The blank of the default constructor. -/
def blankKey : UInt8 := 32

namespace KeyEvent

/-- What the factory makes for the type. -/
def create (mType : EventType) (isKey : mType.IsKey) : KeyEvent where
  mType := mType
  isKey := isKey
  mTime := 0
  mKey := KEY_SPACE
  mModifierMask := 0
  mAsciiKey := blankKey
  mUnicodeKey := blankKey.toUInt32

def writeObject (e : KeyEvent) : List Call :=
  [.write .uint16 e.mType.toUint16, .write .uint32 e.mKey, .write .uint32 e.mModifierMask,
    .write .uint64 e.mTime, .write .uint8 e.mAsciiKey]

/-- The type has been read before. -/
def readObject {σ : Type} (rd : ObjectReader σ) (e : KeyEvent) : Reading σ KeyEvent := do
  let mKey ← rd.read .uint32
  let mModifierMask ← rd.read .uint32
  let mTime ← rd.read .uint64
  let mAsciiKey ← rd.read .uint8
  pure { e with mKey, mModifierMask, mTime, mAsciiKey }

end KeyEvent

namespace MouseEvent

def create (mType : EventType) (isMouse : mType.IsMouse) : MouseEvent where
  mType := mType
  isMouse := isMouse
  mTime := 0
  mButton := NO_MBUTTON
  mRelativeX := 0
  mRelativeY := 0
  mGlobalX := 0
  mGlobalY := 0
  mScrollDeltaX := (0 : UInt32)
  mScrollDeltaY := (0 : UInt32)
  mState := 0

/-- The time is not written. -/
def writeObject (e : MouseEvent) : List Call :=
  [.write .uint16 e.mType.toUint16, .write .uint32 e.mButton, .write .uint32 e.mRelativeX,
    .write .uint32 e.mRelativeY, .write .uint32 e.mGlobalX, .write .uint32 e.mGlobalY,
    .write .float e.mScrollDeltaX, .write .float e.mScrollDeltaY, .write .uint32 e.mState]

def readObject {σ : Type} (rd : ObjectReader σ) (e : MouseEvent) : Reading σ MouseEvent := do
  let mButton ← rd.read .uint32
  let mRelativeX ← rd.read .uint32
  let mRelativeY ← rd.read .uint32
  let mGlobalX ← rd.read .uint32
  let mGlobalY ← rd.read .uint32
  let mScrollDeltaX ← rd.read .float
  let mScrollDeltaY ← rd.read .float
  let mState ← rd.read .uint32
  pure { e with mButton, mRelativeX, mRelativeY, mGlobalX, mGlobalY, mScrollDeltaX,
                mScrollDeltaY, mState }

end MouseEvent

/-- `EventFactory::createObject` and `setType`; `none`: no creator is registered. -/
def createObject (event_type : UInt16) : Option InputEvent :=
  if event_type = 1 then some (.key (.create .keyPressEvent EventType.isKey_keyPressEvent))
  else if event_type = 2 then some (.key (.create .keyReleaseEvent (.inr rfl)))
  else if event_type = 3 then some (.mouse (.create .mouseButtonPressEvent (.inl rfl)))
  else if event_type = 4 then
    some (.mouse (.create .mouseButtonReleaseEvent (.inr (.inl rfl))))
  else if event_type = 5 then
    some (.mouse (.create .mouseMoveEvent EventType.isMouse_mouseMoveEvent))
  else if event_type = 6 then some (.mouse (.create .mouseScrollEvent (.inr (.inr (.inr rfl)))))
  else none

namespace InputEvent

def writeObject : InputEvent → List Call
  | key e => e.writeObject
  | mouse e => e.writeObject

def readObject {σ : Type} (rd : ObjectReader σ) : InputEvent → Reading σ InputEvent
  | key e => do let e ← e.readObject rd; pure (key e)
  | mouse e => do let e ← e.readObject rd; pure (mouse e)

end InputEvent

/-! ## The device -/

def LAST_KEY : Nat := 157

structure KeyboardMouse where
  mCurKeys : Fin LAST_KEY → UInt32
  mCurEventQueue : List InputEvent
  mWorkingEventQueue : List InputEvent
  mSyncTime : UInt64

namespace KeyboardMouse

/-- The constructor: the key that stands for none has been pressed. -/
def create : KeyboardMouse where
  mCurKeys i := if i.val = 0 then 1 else 0
  mCurEventQueue := []
  mWorkingEventQueue := []
  mSyncTime := 0

def addEvent (d : KeyboardMouse) (e : InputEvent) : KeyboardMouse :=
  { d with mWorkingEventQueue := d.mWorkingEventQueue ++ [e] }

/-- `now`: the time of the clock. -/
def updateEventQueue (now : UInt64) (d : KeyboardMouse) : KeyboardMouse :=
  { d with mSyncTime := now, mCurEventQueue := d.mWorkingEventQueue, mWorkingEventQueue := [] }

def MSG_DATA_EVENT_WINDOW : UInt16 := 420

def writeObject (d : KeyboardMouse) : List Call :=
  .write .uint16 MSG_DATA_EVENT_WINDOW :: .write .uint64 d.mSyncTime ::
    .write .uint16 (UInt16.ofNat LAST_KEY) :: ((List.ofFn d.mCurKeys).map (Call.write .uint32) ++
      .write .uint16 (UInt16.ofNat d.mCurEventQueue.length) ::
        d.mCurEventQueue.flatMap InputEvent.writeObject)

/-- The element of a device: an `InputMixer` begins it, and XML values stand in elements only. -/
def writeElement (tagName : String) (d : KeyboardMouse) : List Call :=
  .beginTag tagName :: (d.writeObject ++ [.endTag])

variable {σ : Type} (rd : ObjectReader σ)

/-- The loop over the keys, from `i` on. A key behind the array is written to memory. -/
def readKeys (keys : Fin LAST_KEY → UInt32) (i : Nat) :
    (left : Nat) → Reading σ (Fin LAST_KEY → UInt32)
  | 0 => pure keys
  | left + 1 => do
    let val ← rd.read .uint32
    if inside : i < LAST_KEY then
      readKeys (Function.update keys ⟨i, inside⟩ val) (i + 1) left
    else Reading.throw .undefined

/-- An event without a class is a null pointer. -/
def readEvent : Reading σ InputEvent := do
  let event_type ← rd.read .uint16
  match createObject event_type with
  | none => Reading.throw .undefined
  | some temp_event => temp_event.readObject rd

/-- The type of the data and the number of the keys are only asserted. -/
def readObject (now : UInt64) (d : KeyboardMouse) : Reading σ KeyboardMouse := do
  let _data_type ← rd.read .uint16
  let temp_sync ← rd.read .uint64
  let num_keys ← rd.read .uint16
  let mCurKeys ← readKeys rd d.mCurKeys 0 num_keys.toNat
  let num_events ← rd.read .uint16
  let events ← Reading.times (readEvent rd) num_events.toNat
  let read := (events.foldl addEvent { d with mCurKeys }).updateEventQueue now
  pure { read with mSyncTime := temp_sync }

def readElement (now : UInt64) (tagName : String) (d : KeyboardMouse) :
    Reading σ KeyboardMouse := do
  rd.beginTag tagName
  let read ← readObject rd now d
  rd.endTag
  pure read

end KeyboardMouse

end VRJuggler.Gadget
