import Mathlib.Data.List.Forall2
import Mathlib.Data.String.Basic
import Mathlib.Logic.Function.Basic
import VRJuggler.Base.SortedMap

/-!
# The input logger

A log is a document of samples and stamps. A sample has the data of every device, as the device
writes itself, under the name that the device gives for itself; it is played back into the devices
that the input manager finds under these names.
-/
namespace VRJuggler.Gadget

/-- The code of the devices. Whether `readObject` raises an exception is up to the document that is
read, and what it does otherwise is an effect on the content of the device. -/
structure DeviceCode (δ κ σ : Type) where
  getInstanceName : δ → String
  writeObject : δ → κ → σ
  readObject : δ → σ → Option (κ → κ)

/-- The children of a log: a sample with the name and the data of each device, or a stamp. -/
inductive LogNode (σ : Type) where
  | sample (devices : List (String × σ))
  | stamp (id : String)
  deriving DecidableEq

/-- The comparison of nodes, without what is to be ignored. -/
structure NodeEquality (σ : Type) where
  isEqual : LogNode σ → LogNode σ → Bool
  equivalence : Equivalence fun a b => isEqual a b = true
  apart : ∀ devices id, isEqual (.sample devices) (.stamp id) = false

/-- The device table of the input manager at a frame, and what the devices hold. -/
structure InputDevices (δ κ : Type) where
  mDevTable : SortedMap String (Option δ)
  contents : δ → κ

def InputDevices.getDevice {δ κ : Type} (devices : InputDevices δ κ) (deviceName : String) :
    Option δ :=
  match devices.mDevTable.find deviceName with
  | some dev => dev
  | none => none

inductive LoggerState where
  | inactive
  | recording
  | playing
  | paused
  deriving DecidableEq

/-- `mNextSample` is what there is from the iterator to the end. -/
structure InputLogger (σ : Type) where
  mCurState : LoggerState := .inactive
  mSleepFramesLeft : Nat := 0
  mActiveStamp : String := ""
  mRootNode : Option (List (LogNode σ)) := none
  mNextSample : List (LogNode σ) := []

/-- A document that a device was given to read, with the name that it was found under. -/
structure DeviceRead (δ σ : Type) where
  name : String
  device : δ
  serial : σ

/-- After a sample was played. -/
structure PlayedSample (δ κ σ : Type) where
  logger : InputLogger σ
  contents : δ → κ
  reads : List (DeviceRead δ σ)

variable {δ κ σ : Type} [DecidableEq δ]

namespace InputLogger

variable (code : DeviceCode δ κ σ) (s : InputLogger σ)

def startRecording : InputLogger σ := { s with mRootNode := some [], mCurState := .recording }

def stampRecord (stamp_id : String) : Option (InputLogger σ) :=
  s.mRootNode.map fun nodes => { s with mRootNode := some (nodes ++ [.stamp stamp_id]) }

/-- The nodes of the devices; a null pointer is not expected in the table. -/
def deviceNodes (contents : δ → κ) : List (String × Option δ) → Option (List (String × σ))
  | [] => some []
  | (_, none) :: _ => none
  | (_, some cur_dev) :: rest =>
    (deviceNodes contents rest).map
      ((code.getInstanceName cur_dev, code.writeObject cur_dev (contents cur_dev)) :: ·)

def addRecordingSample (devices : InputDevices δ κ) : Option (InputLogger σ) :=
  s.mRootNode.bind fun nodes =>
    (deviceNodes code devices.contents devices.mDevTable.entries).map fun sample_node =>
      { s with mRootNode := some (nodes ++ [.sample sample_node]) }

/-- The loop of `compressSamples`: `dup` is the node before `cur`, of those that are left. -/
def eraseDuplicates (equality : NodeEquality σ) (dup : LogNode σ) :
    List (LogNode σ) → List (LogNode σ)
  | [] => []
  | cur :: rest =>
    -- each node is compared with the one before it that was kept
    if equality.isEqual cur dup then eraseDuplicates equality dup rest
    else cur :: eraseDuplicates equality cur rest

def compressSamples (equality : NodeEquality σ) : List (LogNode σ) → List (LogNode σ)
  | [] => []
  | first :: rest => first :: eraseDuplicates equality first rest

/-- The document that is saved stays with the logger. -/
def stopRecording (equality : NodeEquality σ) : Option (InputLogger σ) :=
  s.mRootNode.map fun nodes =>
    { s with
      mRootNode := some (compressSamples equality nodes)
      mCurState := .inactive
      mSleepFramesLeft := 10 }

def play : InputLogger σ :=
  match s.mRootNode with
  | none => s
  | some nodes =>
    -- an empty document leaves the state as it was
    let t := { s with mNextSample := nodes, mActiveStamp := "" }
    if nodes.isEmpty then t else { t with mCurState := .playing }

def getStamp : String := s.mActiveStamp

/-- The loop over the device nodes of a sample. -/
def readDevices (devices : InputDevices δ κ) :
    List (String × σ) → (δ → κ) → Option ((δ → κ) × List (DeviceRead δ σ))
  | [], contents => some (contents, [])
  | (dev_name, serial_dev_node) :: rest, contents =>
    match devices.getDevice dev_name with
    | some dev =>
      (code.readObject dev serial_dev_node).bind fun effect =>
        (readDevices devices rest (Function.update contents dev (effect (contents dev)))).map
          fun later => (later.1, ⟨dev_name, dev, serial_dev_node⟩ :: later.2)
    -- a device that is no longer configured is skipped
    | none => readDevices devices rest contents

/-- The device nodes of a node. A stamp has none, and that it is no sample is only asserted. -/
def devNodes : LogNode σ → List (String × σ)
  | .sample devices => devices
  | .stamp _ => []

/-- The iterator is moved on, also over a stamp. -/
def advance (rest : List (LogNode σ)) : InputLogger σ :=
  let t :=
    match rest with
    -- a stamp belongs to the sample before it
    | .stamp id :: rest => { s with mActiveStamp := id, mNextSample := rest }
    | rest => { s with mActiveStamp := "", mNextSample := rest }
  if t.mNextSample.isEmpty then { t with mCurState := .inactive, mSleepFramesLeft := 10 } else t

/-- `none` at the end of the samples, and where the exception of a device ends the call. -/
def playNextSample (devices : InputDevices δ κ) : Option (PlayedSample δ κ σ) :=
  match s.mNextSample with
  | [] => none
  | next_node :: rest =>
    (readDevices code devices (devNodes next_node) devices.contents).map fun after =>
      { logger := s.advance rest, contents := after.1, reads := after.2 }

/-- The control keys, with the text that is typed for a stamp. They are ignored during
playback. -/
def controlKeys (equality : NodeEquality σ) (start_stop_triggered : Bool)
    (stamp_triggered : Option String) : Option (InputLogger σ) :=
  if s.mCurState = .playing then some s
  else if start_stop_triggered then
    -- one button both starts and stops
    if s.mCurState = .recording then s.stopRecording equality else some s.startRecording
  else
    match stamp_triggered with
    | some stamp_id => if s.mCurState = .recording then s.stampRecord stamp_id else some s
    | none => some s

/-- One frame, which may change what the devices hold. -/
def process (equality : NodeEquality σ) (start_stop_triggered : Bool)
    (stamp_triggered : Option String) (devices : InputDevices δ κ) :
    Option (InputLogger σ × (δ → κ)) :=
  if s.mSleepFramesLeft = 0 then
    (s.controlKeys equality start_stop_triggered stamp_triggered).bind fun t =>
      if t.mCurState = .recording then
        (t.addRecordingSample code devices).map fun u => (u, devices.contents)
      else if t.mCurState = .playing then
        (t.playNextSample code devices).map fun played => (played.logger, played.contents)
      else some (t, devices.contents)
  -- asleep: nothing is recorded or played, but the frame counts
  else some ({ s with mSleepFramesLeft := s.mSleepFramesLeft - 1 }, devices.contents)

end InputLogger

/-! ## Sessions -/

/-- What happens between the start and the end of a recording: a frame, perhaps with the button
for a stamp, or a call of `stampRecord` by the application. -/
inductive SessionCall (δ κ : Type) where
  | frame (stamp_triggered : Option String) (devices : InputDevices δ κ)
  | stampRecord (stamp_id : String)

namespace InputLogger

variable (code : DeviceCode δ κ σ) (equality : NodeEquality σ)

def sessionCall (s : InputLogger σ) : SessionCall δ κ → Option (InputLogger σ)
  | .frame stamp_triggered devices =>
    (s.process code equality false stamp_triggered devices).map Prod.fst
  | .stampRecord stamp_id => s.stampRecord stamp_id

/-- The calls of a session in turn. -/
def sessionCalls : InputLogger σ → List (SessionCall δ κ) → Option (InputLogger σ)
  | s, [] => some s
  | s, call :: calls => (s.sessionCall code equality call).bind fun t => sessionCalls t calls

def session (s : InputLogger σ) (calls : List (SessionCall δ κ)) : Option (InputLogger σ) :=
  (sessionCalls code equality s.startRecording calls).bind fun t => t.stopRecording equality

/-- The button starts a recording with the sample of the frame. -/
theorem process_start (s : InputLogger σ) (awake : s.mSleepFramesLeft = 0)
    (inactive : s.mCurState = .inactive) (stamp_triggered : Option String)
    (devices : InputDevices δ κ) :
    s.process code equality true stamp_triggered devices =
      s.startRecording.process code equality false none devices := by
  simp [process, controlKeys, startRecording, awake, inactive]

/-- The button ends a recording without another sample. -/
theorem process_stop (s : InputLogger σ) (awake : s.mSleepFramesLeft = 0)
    (recording : s.mCurState = .recording) (stamp_triggered : Option String)
    (devices : InputDevices δ κ) :
    (s.process code equality true stamp_triggered devices).map Prod.fst =
      s.stopRecording equality := by
  unfold process controlKeys stopRecording
  cases s.mRootNode <;> simp [awake, recording]

end InputLogger

/-! ## What a session records -/

/-- A sample of the devices, or a stamp. -/
inductive Recorded (δ κ : Type) where
  | sample (devices : InputDevices δ κ)
  | stamp (id : String)

/-- The frames in which the logger sleeps are not recorded. -/
def recorded : Nat → List (SessionCall δ κ) → List (Recorded δ κ)
  | _, [] => []
  | sleep, .stampRecord stamp_id :: calls => .stamp stamp_id :: recorded sleep calls
  | sleep + 1, .frame _ _ :: calls => recorded sleep calls
  | 0, .frame stamp_triggered devices :: calls =>
    stamp_triggered.toList.map .stamp ++ .sample devices :: recorded 0 calls

/-- The data of a sample as the logger writes it. -/
def sampleOf (code : DeviceCode δ κ σ) (devices : InputDevices δ κ) : List (String × σ) :=
  devices.mDevTable.entries.filterMap fun entry =>
    entry.2.map fun dev =>
      (code.getInstanceName dev, code.writeObject dev (devices.contents dev))

def nodeOf (code : DeviceCode δ κ σ) : Recorded δ κ → LogNode σ
  | .sample devices => .sample (sampleOf code devices)
  | .stamp id => .stamp id

section Playback

variable (code : DeviceCode δ κ σ) (equality : NodeEquality σ)

/-- The two samples are equal. -/
def SameSample (a b : InputDevices δ κ) : Bool :=
  equality.isEqual (.sample (sampleOf code a)) (.sample (sampleOf code b))

/-- The stamp directly after a sample, or after the equal samples that follow it. -/
def stampAfter : InputDevices δ κ → List (Recorded δ κ) → Option String
  | _, [] => none
  | _, .stamp id :: _ => some id
  | before, .sample devices :: rest =>
    if SameSample code equality devices before then stampAfter devices rest else none

/-- The samples that are to be shown, with their stamps: those that are not equal to the sample
directly before them, if there is one. -/
def shown : Option (InputDevices δ κ) → List (Recorded δ κ) →
    List (InputDevices δ κ × Option String)
  | _, [] => []
  | _, .stamp _ :: rest => shown none rest
  | none, .sample devices :: rest =>
    (devices, stampAfter code equality devices rest) :: shown (some devices) rest
  | some before, .sample devices :: rest =>
    if SameSample code equality devices before then shown (some devices) rest
    else (devices, stampAfter code equality devices rest) :: shown (some devices) rest

/-- What the devices at playback are to read of a sample: the device that is found under a recorded
name, what was recorded of this name. -/
def offered (sample devices : InputDevices δ κ) : List (DeviceRead δ σ) :=
  sample.mDevTable.entries.filterMap fun entry =>
    entry.2.bind fun dev =>
      (devices.getDevice entry.1).map fun found =>
        ⟨entry.1, found, code.writeObject dev (sample.contents dev)⟩

/-- A sample is presented with its stamp to the devices that there are. -/
structure Presents (s : InputLogger σ) (sample : InputDevices δ κ) (stamp : Option String)
    (devices : InputDevices δ κ) (after : PlayedSample δ κ σ) : Prop where
  playing : s.mCurState = .playing
  node : s.mNextSample.head? = some (.sample (sampleOf code sample))
  played : s.playNextSample code devices = some after
  reads : after.reads = offered code sample devices
  restored : ∀ name dev, sample.getDevice name = some dev → devices.getDevice name = some dev →
    ∃ effect before, code.readObject dev (code.writeObject dev (sample.contents dev)) =
      some effect ∧ after.contents dev = effect before
  stamped : after.logger.getStamp = stamp.getD ""

/-- The samples are presented one after the other, and then the logger is inactive. -/
def PlaysBack : InputLogger σ → List (InputDevices δ κ × Option String) →
    List (InputDevices δ κ) → Prop
  | s, [], _ => s.mCurState = .inactive
  | _, _ :: _, [] => False
  | s, (sample, stamp) :: samples, devices :: frames =>
    ∃ after, Presents code s sample stamp devices after ∧ PlaysBack after.logger samples frames

/-- A recorded device is still in the table, or gone from it; others may be there as well. -/
def StillThere (sample : InputDevices δ κ × Option String) (devices : InputDevices δ κ) : Prop :=
  ∀ name dev found, sample.1.getDevice name = some dev → devices.getDevice name = some found →
    found = dev

end Playback

end VRJuggler.Gadget
