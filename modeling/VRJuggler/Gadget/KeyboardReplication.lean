import VRJuggler.Base.Lists
import VRJuggler.Gadget.KeyboardMouse
import VRJuggler.Io.BufferRoundTrip
import VRJuggler.Io.DecimalText
import VRJuggler.Io.ReadBack
import VRJuggler.Io.XmlElements

/-!
# Replication of keyboard and mouse devices

What a receiving device has when it has read what the device of the sender wrote. Neither the
Unicode character of a key event nor the time of a mouse event is written, and the number of
events is written in 16 bits.
-/
namespace VRJuggler.Gadget

open VRJuggler (ByteOrder)
open VRJuggler.Io

/-! ## Events -/

namespace InputEvent

/-- The event that is read. -/
def received : InputEvent → InputEvent
  | key e => key { e with mUnicodeKey := blankKey.toUInt32 }
  | mouse e => mouse { e with mTime := 0 }

/-- What is not written is as the factory makes it. -/
def Whole : InputEvent → Prop
  | key e => e.mUnicodeKey = blankKey.toUInt32
  | mouse e => e.mTime = 0

instance : DecidablePred Whole
  | key e => inferInstanceAs (Decidable (e.mUnicodeKey = blankKey.toUInt32))
  | mouse e => inferInstanceAs (Decidable (e.mTime = 0))

theorem received_eq_iff {e : InputEvent} : e.received = e ↔ e.Whole := by
  cases e with
  | key e =>
    simp only [received, Whole, key.injEq, KeyEvent.ext_iff]
    simp only [true_and]
    exact eq_comm
  | mouse e =>
    simp only [received, Whole, mouse.injEq, MouseEvent.ext_iff]
    simp only [true_and, and_true]
    exact eq_comm

end InputEvent

namespace KeyboardMouse

section Reading

variable {σ : Type} (rd : ObjectReader σ)

theorem createObject_key (e : KeyEvent) :
    createObject e.mType.toUint16 = some (.key (.create e.mType e.isKey)) := by
  cases e with
  | mk mType isKey =>
    rcases isKey with rfl | rfl
    · rfl
    · rfl

theorem createObject_mouse (e : MouseEvent) :
    createObject e.mType.toUint16 = some (.mouse (.create e.mType e.isMouse)) := by
  cases e with
  | mk mType isMouse =>
    rcases isMouse with rfl | rfl | rfl | rfl
    · rfl
    · rfl
    · rfl
    · rfl

/-- The class of each event is found by its type. -/
theorem readsBack_event (e : InputEvent) :
    ReadsBack rd (readEvent rd) e.writeObject e.received := by
  cases e with
  | key e =>
    have fields (e' : KeyEvent) : ReadsBack rd (e'.readObject rd)
        [.write .uint32 e.mKey, .write .uint32 e.mModifierMask, .write .uint64 e.mTime,
          .write .uint8 e.mAsciiKey]
        { e' with
          mKey := e.mKey
          mModifierMask := e.mModifierMask
          mTime := e.mTime
          mAsciiKey := e.mAsciiKey } :=
      (readsBack_read .uint32 _).bind ((readsBack_read .uint32 _).bind
        ((readsBack_read .uint64 _).bind ((readsBack_read .uint8 _).bind (readsBack_pure _))))
    have made : ReadsBack rd ((InputEvent.key (.create e.mType e.isKey)).readObject rd)
        (_ ++ []) (.key { e with mUnicodeKey := blankKey.toUInt32 }) :=
      (fields (.create e.mType e.isKey)).bind (readsBack_pure _)
    refine (readsBack_read .uint16 e.mType.toUint16).bind ?_
    rw [createObject_key]
    exact made
  | mouse e =>
    have fields (e' : MouseEvent) : ReadsBack rd (e'.readObject rd)
        [.write .uint32 e.mButton, .write .uint32 e.mRelativeX, .write .uint32 e.mRelativeY,
          .write .uint32 e.mGlobalX, .write .uint32 e.mGlobalY, .write .float e.mScrollDeltaX,
          .write .float e.mScrollDeltaY, .write .uint32 e.mState]
        { e' with
          mButton := e.mButton
          mRelativeX := e.mRelativeX
          mRelativeY := e.mRelativeY
          mGlobalX := e.mGlobalX
          mGlobalY := e.mGlobalY
          mScrollDeltaX := e.mScrollDeltaX
          mScrollDeltaY := e.mScrollDeltaY
          mState := e.mState } :=
      (readsBack_read .uint32 _).bind ((readsBack_read .uint32 _).bind
        ((readsBack_read .uint32 _).bind ((readsBack_read .uint32 _).bind
          ((readsBack_read .uint32 _).bind ((readsBack_read .float _).bind
            ((readsBack_read .float _).bind ((readsBack_read .uint32 _).bind
              (readsBack_pure _))))))))
    have made : ReadsBack rd ((InputEvent.mouse (.create e.mType e.isMouse)).readObject rd)
        (_ ++ []) (.mouse { e with mTime := 0 }) :=
      (fields (.create e.mType e.isMouse)).bind (readsBack_pure _)
    refine (readsBack_read .uint16 e.mType.toUint16).bind ?_
    rw [createObject_mouse]
    exact made

/-- The keys before `i` are as they were. -/
theorem readsBack_keys (sent keys : Fin LAST_KEY → UInt32) {i left : Nat}
    (all : i + left = LAST_KEY) :
    ReadsBack rd (readKeys rd keys i left) (((List.ofFn sent).drop i).map (Call.write .uint32))
      fun k => if k.val < i then keys k else sent k := by
  induction left generalizing i keys with
  | zero =>
    have kept : (fun k : Fin LAST_KEY => if k.val < i then keys k else sent k) = keys := by
      funext k
      exact if_pos (by omega)
    rw [kept, List.drop_eq_nil_of_le (by rw [List.length_ofFn]; omega)]
    exact readsBack_pure keys
  | succ left ih =>
    have inside : i < LAST_KEY := by omega
    have next : (fun k : Fin LAST_KEY => if k.val < i then keys k else sent k) =
        fun k => if k.val < i + 1 then Function.update keys ⟨i, inside⟩ (sent ⟨i, inside⟩) k
          else sent k := by
      funext k
      by_cases here : k = ⟨i, inside⟩
      · subst here
        simp
      · have other : k.val ≠ i := fun same => here (Fin.ext same)
        rw [Function.update_of_ne here]
        by_cases before : k.val < i
        · rw [if_pos before, if_pos (Nat.lt_succ_of_lt before)]
        · rw [if_neg before, if_neg (by omega)]
    have bound : i < (List.ofFn sent).length := by rwa [List.length_ofFn]
    rw [List.drop_eq_getElem_cons bound, List.getElem_ofFn, next]
    refine (readsBack_read .uint32 (sent ⟨i, inside⟩)).bind ?_
    rw [dif_pos inside]
    exact ih _ (by omega)

theorem foldl_addEvent (events : List InputEvent) (d : KeyboardMouse) :
    events.foldl addEvent d = { d with mWorkingEventQueue := d.mWorkingEventQueue ++ events } := by
  induction events generalizing d with
  | nil => simp
  | cons e events ih => simp [ih, addEvent]

/-- What stands before the events. -/
def front (d : KeyboardMouse) : List Call :=
  .write .uint16 MSG_DATA_EVENT_WINDOW :: .write .uint64 d.mSyncTime ::
    .write .uint16 (UInt16.ofNat LAST_KEY) :: ((List.ofFn d.mCurKeys).map (Call.write .uint32) ++
      [.write .uint16 (UInt16.ofNat d.mCurEventQueue.length)])

theorem writeObject_eq (d : KeyboardMouse) :
    d.writeObject = d.front ++ d.mCurEventQueue.flatMap InputEvent.writeObject := by
  simp [writeObject, front]

/-- As many events are read as the count says. -/
theorem readsBack_object (now : UInt64) (receiver sender : KeyboardMouse) {events : List InputEvent}
    (count : events.length = sender.mCurEventQueue.length % 65536) :
    ReadsBack rd (readObject rd now receiver)
      (sender.front ++ events.flatMap InputEvent.writeObject)
      { mCurKeys := sender.mCurKeys
        mCurEventQueue := receiver.mWorkingEventQueue ++ events.map InputEvent.received
        mWorkingEventQueue := []
        mSyncTime := sender.mSyncTime } := by
  have keys : ReadsBack rd (readKeys rd receiver.mCurKeys 0 (UInt16.ofNat LAST_KEY).toNat)
      ((List.ofFn sender.mCurKeys).map (Call.write .uint32)) sender.mCurKeys := by
    have all := readsBack_keys rd sender.mCurKeys receiver.mCurKeys (Nat.zero_add LAST_KEY)
    have size : LAST_KEY % 65536 = LAST_KEY := rfl
    simpa [size] using all
  have size : (UInt16.ofNat sender.mCurEventQueue.length).toNat = events.length := by
    rw [count]
    rfl
  have loop := readsBack_times events fun e _ => readsBack_event rd e
  rw [← size] at loop
  have result : { (events.map InputEvent.received).foldl addEvent
      { receiver with mCurKeys := sender.mCurKeys } |>.updateEventQueue now with
      mSyncTime := sender.mSyncTime } = KeyboardMouse.mk sender.mCurKeys
        (receiver.mWorkingEventQueue ++ events.map InputEvent.received) [] sender.mSyncTime := by
    rw [foldl_addEvent]
    rfl
  rw [← result, front, ← List.append_nil (events.flatMap InputEvent.writeObject)]
  simp only [List.cons_append, List.append_assoc, List.nil_append]
  exact (readsBack_read .uint16 _).bind ((readsBack_read .uint64 _).bind
    ((readsBack_read .uint16 _).bind (keys.bind ((readsBack_read .uint16 _).bind
      (loop.bind (readsBack_pure _))))))

end Reading

/-! ## The calls -/

/-- What holds of the calls that write numbers, and of those that write the scrolling, holds of
all. -/
theorem forall_writeObject {d : KeyboardMouse} {p : Call → Prop}
    (number : ∀ k val, k ≠ .string → k ≠ .float → k ≠ .double → p (.write k val))
    (scroll : ∀ e, .mouse e ∈ d.mCurEventQueue →
      p (.write .float e.mScrollDeltaX) ∧ p (.write .float e.mScrollDeltaY)) :
    ∀ call ∈ d.writeObject, p call := by
  have uint16 (val : UInt16) := number .uint16 val (by decide) (by decide) (by decide)
  have uint32 (val : UInt32) := number .uint32 val (by decide) (by decide) (by decide)
  have uint64 (val : UInt64) := number .uint64 val (by decide) (by decide) (by decide)
  have uint8 (val : UInt8) := number .uint8 val (by decide) (by decide) (by decide)
  have keys : ∀ call ∈ (List.ofFn d.mCurKeys).map (Call.write .uint32), p call :=
    List.forall_mem_map.mpr fun val _ => uint32 val
  have event : ∀ e ∈ d.mCurEventQueue, ∀ call ∈ e.writeObject, p call := by
    intro e here
    cases e with
    | key e =>
      simp only [InputEvent.writeObject, KeyEvent.writeObject, List.forall_mem_cons]
      exact ⟨uint16 _, uint32 _, uint32 _, uint64 _, uint8 _, List.forall_mem_nil _⟩
    | mouse e =>
      obtain ⟨x, y⟩ := scroll e here
      simp only [InputEvent.writeObject, MouseEvent.writeObject, List.forall_mem_cons]
      exact ⟨uint16 _, uint32 _, uint32 _, uint32 _, uint32 _, uint32 _, x, y, uint32 _,
        List.forall_mem_nil _⟩
  have events : ∀ call ∈ d.mCurEventQueue.flatMap InputEvent.writeObject, p call := by
    intro call member
    obtain ⟨e, here, member⟩ := List.mem_flatMap.mp member
    exact event e here call member
  rw [writeObject]
  simp only [List.forall_mem_cons, List.forall_mem_append]
  exact ⟨uint16 _, uint64 _, uint16 _, keys, uint16 _, events⟩

theorem fits_writeObject (d : KeyboardMouse) : ∀ call ∈ d.writeObject, call.Fits := by
  apply forall_writeObject
  · intro k val notString _ _
    cases k with
    | string => exact absurd rfl notString
    | _ => trivial
  · exact fun e _ => ⟨trivial, trivial⟩

/-- No event is written with no bytes. -/
theorem length_event_pos (e : InputEvent) : 0 < (encodeAll e.writeObject).length := by
  cases e with
  | key e => simp [InputEvent.writeObject, KeyEvent.writeObject, Call.encode, encode]
  | mouse e => simp [InputEvent.writeObject, MouseEvent.writeObject, Call.encode, encode]

/-! ## Over the binary reader -/

/-- The receiver has the keys and the events of the sender. -/
def Replica (received sender : KeyboardMouse) : Prop :=
  received.mCurKeys = sender.mCurKeys ∧ received.mCurEventQueue = sender.mCurEventQueue

/-- A device that is written with a `BufferObjectWriter` on one host is replicated by a
`BufferObjectReader` on another, wherever the bytes stand in a buffer, and just these bytes
are taken. -/
def ReplicatesBinary (writerHost readerHost : ByteOrder) (before after : List UInt8)
    (now : UInt64) (receiver sender : KeyboardMouse) : Prop :=
  ∃ w, run (BufferObjectWriter.perform writerHost) .empty sender.writeObject = some w ∧
    ∀ behind s, s.mData = before ++ w.mData ++ after → s.mCurHeadPos.toNat = before.length →
      ∃ received t, readObject (BufferObjectReader.reader behind readerHost) now receiver s =
          (.ok received, t) ∧
        Replica received sender ∧ t.mCurHeadPos.toNat = before.length + w.mData.length

/-- No event waits in the receiver, the number of events fits its 16 bits, and the events have
nothing that is not written. -/
structure Kept (receiver sender : KeyboardMouse) : Prop where
  idle : receiver.mWorkingEventQueue = []
  count : sender.mCurEventQueue.length < 65536
  events : ∀ e ∈ sender.mCurEventQueue, e.Whole

/-- The events that are read are those of the sender just when these are kept. -/
theorem events_eq_iff {receiver sender : KeyboardMouse} :
    receiver.mWorkingEventQueue ++ sender.mCurEventQueue.map InputEvent.received =
      sender.mCurEventQueue ↔
      receiver.mWorkingEventQueue = [] ∧ ∀ e ∈ sender.mCurEventQueue, e.Whole := by
  constructor
  · intro same
    have idle : receiver.mWorkingEventQueue = [] := by
      have sizes := congrArg List.length same
      rw [List.length_append, List.length_map] at sizes
      exact List.eq_nil_of_length_eq_zero (by omega)
    rw [idle, List.nil_append] at same
    have whole := fun e member => InputEvent.received_eq_iff.mp (eq_map_iff.mp same.symm e member)
    exact ⟨idle, whole⟩
  · rintro ⟨idle, whole⟩
    rw [idle, List.nil_append]
    exact (eq_map_iff.mpr fun e member => InputEvent.received_eq_iff.mpr (whole e member)).symm

theorem data_written (sender : KeyboardMouse) :
    (BufferObjectWriter.empty.writeRaw (encodeAll sender.writeObject)).mData =
      encodeAll sender.writeObject := by
  simp [BufferObjectWriter.writeRaw, BufferObjectWriter.empty]

/-- What the reader does with the events that it counts, if all positions can be counted. -/
theorem readObject_counted (readerHost : ByteOrder) {before after : List UInt8} (now : UInt64)
    (receiver : KeyboardMouse) {sender : KeyboardMouse}
    (small : before.length + (encodeAll sender.writeObject).length < 2 ^ 32)
    {events left : List InputEvent} (parts : sender.mCurEventQueue = events ++ left)
    (count : events.length = sender.mCurEventQueue.length % 65536) (behind : Nat → UInt8)
    {s : BufferObjectReader} (data : s.mData = before ++ encodeAll sender.writeObject ++ after)
    (position : s.mCurHeadPos.toNat = before.length) :
    ∃ t, readObject (BufferObjectReader.reader behind readerHost) now receiver s =
        (.ok ⟨sender.mCurKeys,
          receiver.mWorkingEventQueue ++ events.map InputEvent.received, [],
          sender.mSyncTime⟩, t) ∧
      t.mCurHeadPos.toNat + (encodeAll (left.flatMap InputEvent.writeObject)).length =
        before.length + (encodeAll sender.writeObject).length := by
  have whole : encodeAll sender.writeObject =
      encodeAll (sender.front ++ events.flatMap InputEvent.writeObject) ++
        encodeAll (left.flatMap InputEvent.writeObject) := by
    rw [writeObject_eq, parts, List.flatMap_append, ← List.append_assoc, encodeAll_append]
  have fits : ∀ call ∈ sender.front ++ events.flatMap InputEvent.writeObject, call.Fits := by
    intro call member
    apply fits_writeObject sender
    rw [writeObject_eq, parts, List.flatMap_append, ← List.append_assoc]
    exact List.mem_append_left _ member
  have sizes := congrArg List.length whole
  rw [List.length_append] at sizes
  have replays := BufferObjectReader.replays_middle readerHost behind fits before
    (encodeAll (left.flatMap InputEvent.writeObject) ++ after)
    (by rw [data, whole]; simp only [List.append_assoc]) position (by omega)
  refine ⟨_, readsBack_object _ now receiver sender count _ _ replays, ?_⟩
  rw [BufferObjectReader.advance_toNat _ (by omega), position, sizes]
  omega

/-- If the events that are counted take all bytes, they are all events. -/
theorem counted_of_taken {events : List InputEvent} {size taken : Nat} (whole : taken = size)
    (parts : taken + (encodeAll ((events.drop (events.length % 65536)).flatMap
      InputEvent.writeObject)).length = size) : events.length < 65536 := by
  have none : events.drop (events.length % 65536) = [] := by
    cases left : events.drop (events.length % 65536) with
    | nil => rfl
    | cons e rest =>
      rw [left, List.flatMap_cons, encodeAll_append, List.length_append] at parts
      have bytes := length_event_pos e
      omega
  have bound := List.drop_eq_nil_iff.mp none
  have remainder := Nat.mod_lt events.length (by decide : 0 < 65536)
  omega

theorem replicatesBinary_iff (writerHost readerHost : ByteOrder) {before : List UInt8}
    (after : List UInt8) (now : UInt64) (receiver sender : KeyboardMouse)
    (start : before.length < 2 ^ 32) :
    ReplicatesBinary writerHost readerHost before after now receiver sender ↔
      before.length + (encodeAll sender.writeObject).length < 2 ^ 32 ∧ Kept receiver sender := by
  have wrote := BufferObjectWriter.run_perform writerHost (fits_writeObject sender)
    BufferObjectWriter.empty
  constructor
  · rintro ⟨w, ran, all⟩
    rw [wrote] at ran
    obtain rfl := Option.some.inj ran
    rw [data_written] at all
    have position : (UInt32.ofNat before.length).toNat = before.length :=
      UInt32.toNat_ofNat_of_lt' start
    let s := BufferObjectReader.at' (before ++ encodeAll sender.writeObject ++ after)
      (UInt32.ofNat before.length)
    have there : s.mCurHeadPos.toNat = before.length := position
    obtain ⟨received, t, ended, ⟨-, queue⟩, consumed⟩ := all (fun _ => 0) s rfl there
    have small : before.length + (encodeAll sender.writeObject).length < 2 ^ 32 := by
      rw [← consumed]
      exact t.mCurHeadPos.toNat_lt
    refine ⟨small, ?_⟩
    obtain ⟨t', ended', taken⟩ := readObject_counted readerHost now receiver small
      (List.take_append_drop (sender.mCurEventQueue.length % 65536) _).symm
      (by rw [List.length_take]; exact min_eq_left (Nat.mod_le ..)) (fun _ => 0)
      (rfl : s.mData = _) there
    rw [ended'] at ended
    obtain ⟨same, rfl⟩ := Prod.mk.inj ended
    obtain rfl := Except.ok.inj same
    -- no event was left behind
    have count := counted_of_taken consumed taken
    have events : sender.mCurEventQueue.take (sender.mCurEventQueue.length % 65536) =
        sender.mCurEventQueue := by
      rw [Nat.mod_eq_of_lt count]
      exact List.take_length
    rw [events] at queue
    obtain ⟨idle, whole⟩ := events_eq_iff.mp queue
    exact ⟨idle, count, whole⟩
  · rintro ⟨small, kept⟩
    refine ⟨_, wrote, fun behind s data position => ?_⟩
    rw [data_written] at data ⊢
    obtain ⟨t, ended, taken⟩ := readObject_counted readerHost now receiver small
      (List.append_nil _).symm (Nat.mod_eq_of_lt kept.count).symm behind data position
    exact ⟨_, t, ended, ⟨rfl, events_eq_iff.mpr ⟨kept.idle, kept.events⟩⟩, taken⟩

/-! ## Over the XML reader -/

/-- The text of each scrolling is read back. -/
def Legible (nt : NumberText) (d : KeyboardMouse) : Prop :=
  ∀ e, .mouse e ∈ d.mCurEventQueue →
    nt.Survives .float e.mScrollDeltaX ∧ nt.Survives .float e.mScrollDeltaY

/-- The values are those of one element. -/
def content (d : KeyboardMouse) : Content := .ofValues (values d.writeObject)

theorem calls_content (d : KeyboardMouse) : d.content.calls = d.writeObject := by
  have writes : ∀ call ∈ d.writeObject, ∃ v : Value, v.write = call := by
    apply forall_writeObject
    · exact fun k val _ _ _ => ⟨⟨k, val⟩, rfl⟩
    · exact fun e _ => ⟨⟨⟨.float, _⟩, rfl⟩, ⟨⟨.float, _⟩, rfl⟩⟩
  rw [content, Content.calls_ofValues]
  revert writes
  generalize d.writeObject = calls
  intro writes
  induction calls with
  | nil => rfl
  | cons call calls ih =>
    rw [List.forall_mem_cons] at writes
    obtain ⟨⟨v, rfl⟩, rest⟩ := writes
    exact congrArg (List.cons v.write) (ih rest)

theorem legible_content {nt : NumberText} {d : KeyboardMouse} (legible : d.Legible nt) :
    d.content.Legible nt := by
  have each : ∀ call ∈ d.writeObject, ∀ v, call.value? = some v → ValueLegible nt v.kind v.val := by
    apply forall_writeObject
    · intro k val notString notFloat notDouble v same
      obtain rfl := Option.some.inj same
      cases k with
      | string => exact absurd rfl notString
      | float => exact absurd rfl notFloat
      | double => exact absurd rfl notDouble
      | _ => trivial
    · intro e member
      obtain ⟨x, y⟩ := legible e member
      constructor
      · intro v same
        obtain rfl := Option.some.inj same
        exact x
      · intro v same
        obtain rfl := Option.some.inj same
        exact y
  apply Content.legible_ofValues
  intro v member
  obtain ⟨call, here, same⟩ := List.mem_filterMap.mp member
  exact each call here v same

/-- A device that is written with an `XMLObjectWriter` into an element is replicated by an
`XMLObjectReader`, and the document is read to its end. -/
def ReplicatesXml (grow : Nat → Nat) (nt : NumberText) (now : UInt64) (tagName : String)
    (receiver sender : KeyboardMouse) : Prop :=
  ∃ w root, run (XMLObjectWriter.perform nt) .empty (sender.writeElement tagName) = some w ∧
    w.mRootNode = some root ∧
    ∃ received t, readElement (XMLObjectReader.reader grow nt) now tagName receiver
        (.ofRoot root) = (.ok received, t) ∧
      Replica received sender ∧ t.mCurNodeStack.items = []

theorem readsBack_element {σ : Type} (rd : ObjectReader σ) (now : UInt64) (tagName : String)
    (receiver : KeyboardMouse) {sender : KeyboardMouse}
    (count : sender.mCurEventQueue.length < 65536) :
    ReadsBack rd (readElement rd now tagName receiver) (sender.writeElement tagName)
      { mCurKeys := sender.mCurKeys
        mCurEventQueue :=
          receiver.mWorkingEventQueue ++ sender.mCurEventQueue.map InputEvent.received
        mWorkingEventQueue := []
        mSyncTime := sender.mSyncTime } := by
  rw [writeElement, writeObject_eq]
  exact (readsBack_beginTag tagName).bind
    ((readsBack_object rd now receiver sender (Nat.mod_eq_of_lt count).symm).bind
      (readsBack_endTag.bind (readsBack_pure _)))

theorem replicatesXml_iff (grow : Nat → Nat) {nt : NumberText} (integers : nt.Integers)
    (now : UInt64) (tagName : String) {receiver sender : KeyboardMouse}
    (legible : sender.Legible nt) (count : sender.mCurEventQueue.length < 65536) :
    ReplicatesXml grow nt now tagName receiver sender ↔ Kept receiver sender := by
  have readable := legible_content legible
  have layered := Content.layered_of_childless
    (Content.childless_ofValues (values sender.writeObject))
  have wrote := XMLObjectWriter.run_document integers readable tagName
  obtain ⟨t, replays, ended⟩ := XMLObjectReader.replays_document grow integers readable
    (Content.steady_of_layered grow layered _ _) tagName
  have calls : sender.content.document tagName = sender.writeElement tagName := by
    rw [Content.document, calls_content]
    rfl
  rw [calls] at replays wrote
  have read := readsBack_element (XMLObjectReader.reader grow nt) now tagName receiver count _ _
    replays
  constructor
  · rintro ⟨w, root, ran, rooted, received, t', returned, ⟨-, queue⟩, -⟩
    rw [wrote] at ran
    obtain rfl := Option.some.inj ran
    obtain rfl := Option.some.inj rooted
    rw [read] at returned
    obtain ⟨same, -⟩ := Prod.mk.inj returned
    obtain rfl := Except.ok.inj same
    obtain ⟨idle, whole⟩ := events_eq_iff.mp queue
    exact ⟨idle, count, whole⟩
  · intro kept
    exact ⟨_, _, wrote, rfl, _, t, read, ⟨rfl, events_eq_iff.mpr ⟨kept.idle, kept.events⟩⟩, ended⟩

/-! ## Replication -/

/-- Over the binary reader a device is replicated just when its events are kept, and their bytes
have positions. Over the XML reader the same holds of devices whose numbers can be read. -/
theorem keyboard_replication (writerHost readerHost : ByteOrder) (before after : List UInt8)
    (start : before.length < 2 ^ 32) (grow : Nat → Nat) (nt : NumberText)
    (integers : nt.Integers) (now : UInt64) (tagName : String)
    (receiver sender : KeyboardMouse) :
    (ReplicatesBinary writerHost readerHost before after now receiver sender ↔
      before.length + (encodeAll sender.writeObject).length < 2 ^ 32 ∧ Kept receiver sender) ∧
    (sender.Legible nt → sender.mCurEventQueue.length < 65536 →
      (ReplicatesXml grow nt now tagName receiver sender ↔ Kept receiver sender)) := by
  constructor
  · exact replicatesBinary_iff writerHost readerHost after now receiver sender start
  · exact fun legible count => replicatesXml_iff grow integers now tagName legible count

/-- A key that is pressed, with its character. -/
def keyPressed (mAsciiKey : UInt8) (mUnicodeKey : UInt32) : InputEvent :=
  .key { KeyEvent.create .keyPressEvent EventType.isKey_keyPressEvent with
    mTime := 1000
    mAsciiKey := mAsciiKey
    mUnicodeKey := mUnicodeKey }

def mouseMoved (mTime : UInt64) : InputEvent :=
  .mouse { MouseEvent.create .mouseMoveEvent EventType.isMouse_mouseMoveEvent with
    mTime := mTime
    mRelativeX := 320
    mRelativeY := 200 }

/-- A device with these events. -/
def withEvents (mCurEventQueue : List InputEvent) : KeyboardMouse := { create with mCurEventQueue }

/-- The blank is the character of the default constructor. -/
theorem keyboard_replication_blank :
    ReplicatesBinary .littleEndian .bigEndian [7] [] 0 create
        (withEvents [keyPressed 32 32, mouseMoved 0]) ∧
      ReplicatesXml double decimalText 0 "Inputkeyboard_mouse" create
        (withEvents [keyPressed 32 32]) := by
  have binary := (keyboard_replication .littleEndian .bigEndian [7] [] (by decide) double
    decimalText integers_decimalText 0 "Inputkeyboard_mouse" create
    (withEvents [keyPressed 32 32, mouseMoved 0])).1
  have xml := (keyboard_replication .littleEndian .bigEndian [7] [] (by decide) double
    decimalText integers_decimalText 0 "Inputkeyboard_mouse" create
    (withEvents [keyPressed 32 32])).2
  refine ⟨binary.mpr ⟨by decide +kernel, rfl, by decide, by decide⟩, ?_⟩
  have legible : (withEvents [keyPressed 32 32]).Legible decimalText := by
    intro e member
    cases List.mem_singleton.mp member
  exact (xml legible (by decide)).mpr ⟨rfl, by decide, by decide⟩

/-- The letter a, a mouse that moves at a time, and more events than 16 bits count. -/
theorem keyboard_replication_fails :
    ¬ ReplicatesBinary .littleEndian .littleEndian [] [] 0 create
        (withEvents [keyPressed 97 97]) ∧
      ¬ ReplicatesXml double decimalText 0 "Inputkeyboard_mouse" create
        (withEvents [keyPressed 97 97]) ∧
      ¬ ReplicatesBinary .littleEndian .littleEndian [] [] 0 create
        (withEvents [mouseMoved 1000]) ∧
      ¬ ReplicatesBinary .littleEndian .littleEndian [] [] 0 create
        (withEvents (List.replicate 65536 (mouseMoved 0))) := by
  have kept {sender : KeyboardMouse}
      (replicates : ReplicatesBinary .littleEndian .littleEndian [] [] 0 create sender) :
      Kept create sender :=
    ((replicatesBinary_iff _ _ [] 0 create sender (by decide)).mp replicates).2
  have unicode : ¬ Kept create (withEvents [keyPressed 97 97]) := by
    intro kept
    have whole := kept.events _ (List.mem_singleton_self _)
    revert whole
    decide
  refine ⟨fun replicates => unicode (kept replicates), fun replicates => ?_, fun replicates => ?_,
    fun replicates => ?_⟩
  · have legible : (withEvents [keyPressed 97 97]).Legible decimalText := by
      intro e member
      cases List.mem_singleton.mp member
    exact unicode ((replicatesXml_iff double integers_decimalText 0 _ legible (by decide)).mp
      replicates)
  · have whole := (kept replicates).events _ (List.mem_singleton_self _)
    revert whole
    decide
  · have count := (kept replicates).count
    rw [withEvents, List.length_replicate] at count
    exact absurd count (lt_irrefl _)

end KeyboardMouse

end VRJuggler.Gadget
