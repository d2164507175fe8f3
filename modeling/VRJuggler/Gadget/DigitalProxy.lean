import Mathlib.Data.List.Induction
import VRJuggler.Gadget.DeviceData

/-!
# Digital proxies

A proxy for one button of a digital device. At every update it compares what it showed before
with the newest sample of the device, and shows whether the button is pressed and whether that is
new. The names of the device and of the proxy are left out.
-/
namespace VRJuggler.Gadget

/-! ## Digital devices -/

structure Digital where
  mDigitalSamples : SampleBuffer UInt32
  mDefaultValue : DigitalData

namespace Digital

inductive State where
  | off
  | on
  | toggleOn
  | toggleOff
  deriving DecidableEq

def State.toInt : State → UInt32
  | off => 0
  | on => 1
  | toggleOn => 2
  | toggleOff => 3

/-- The newest sample of a unit; `devNum` is an `int` and compared as an `unsigned`. -/
def getDigitalData (d : Digital) (devNum : UInt32) : DigitalData :=
  match d.mDigitalSamples.mStableBuffer.getLast? with
  -- no sample has been swapped in yet
  | none => d.mDefaultValue
  | some back =>
    if inside : devNum.toNat < back.length then back.get ⟨devNum.toNat, inside⟩
    else d.mDefaultValue

end Digital

/-- `operator=(const int data)`. -/
def DigitalData.assignInt (self : DigitalData) (data : UInt32) : DigitalData :=
  { self with value := data }

/-! ## The proxy -/

structure DigitalProxy where
  mStupefied : Bool
  mUnitNum : UInt32
  mData : DigitalData

namespace DigitalProxy

/-- `mTimeStamp` is 0 in a new `InputData`. -/
def create (unitNum : UInt32) : DigitalProxy where
  mStupefied := true
  mUnitNum := unitNum
  mData := { mTimeStamp := 0, value := 0 }

/-- What `refresh` makes of a proxy when its device is there. -/
def bind (p : DigitalProxy) : DigitalProxy := { p with mStupefied := false }

/-- What a proxy shows that is not stupefied; `mTypedDevice` has been updated. -/
def updateState (old_state : UInt32) (mData : DigitalData) : DigitalData :=
  let new_state := mData.value
  if Digital.State.off.toInt = old_state then
    -- any value but 0 counts as pressed
    if new_state ≠ 0 then mData.assignInt Digital.State.toggleOn.toInt
    -- where the state was none of the four, the sample is shown as it is
    else mData.assignInt Digital.State.off.toInt
  else if Digital.State.on.toInt = old_state then
    if new_state ≠ 0 then mData.assignInt Digital.State.on.toInt
    else mData.assignInt Digital.State.toggleOff.toInt
  else if Digital.State.toggleOn.toInt = old_state then
    if new_state ≠ 0 then mData.assignInt Digital.State.on.toInt
    else mData.assignInt Digital.State.toggleOff.toInt
  else if Digital.State.toggleOff.toInt = old_state then
    if new_state ≠ 0 then mData.assignInt Digital.State.toggleOn.toInt
    else mData.assignInt Digital.State.off.toInt
  else mData

def updateData (p : DigitalProxy) (mTypedDevice : Digital) : DigitalProxy :=
  if p.mStupefied then p
  else { p with mData := updateState p.mData.value (mTypedDevice.getDigitalData p.mUnitNum) }

def getData (p : DigitalProxy) : UInt32 :=
  if p.mStupefied then Digital.State.off.toInt else p.mData.value

def getTimeStamp (p : DigitalProxy) : UInt64 := p.mData.mTimeStamp

/-- The proxy after an update for each of the devices in turn. -/
def updates (p : DigitalProxy) (devices : List Digital) : DigitalProxy :=
  devices.foldl updateData p

end DigitalProxy

/-! ## What the proxy should show -/

namespace Digital

/-- The state of a button, from what it was before and what it is now. -/
def edge (before now : Bool) : State :=
  match before, now with
  | false, false => .off
  | false, true => .toggleOn
  | true, true => .on
  | true, false => .toggleOff

def pressed (unit : UInt32) (d : Digital) : Bool := (d.getDigitalData unit).value != 0

/-- Whether the button was pressed at the last of the updates, and not before the first. -/
def lastPressed (unit : UInt32) (devices : List Digital) : Bool :=
  match devices.getLast? with
  | none => false
  | some d => d.pressed unit

end Digital

open Digital

/-- From the state that `edge` gives, an update leads to the next one and takes the time stamp
of the sample. -/
theorem updateState_edge (earlier before : Bool) (data : DigitalData) :
    DigitalProxy.updateState (edge earlier before).toInt data =
      { mTimeStamp := data.mTimeStamp, value := (edge before (data.value != 0)).toInt } := by
  -- only whether the value is zero matters to the branches
  cases pressed : data.value != 0 with
  | true =>
    have nonzero : data.value ≠ 0 := by simpa using pressed
    cases earlier <;> cases before <;>
      simp [DigitalProxy.updateState, edge, State.toInt, DigitalData.assignInt, nonzero]
  | false =>
    have zero : data.value = 0 := by simpa using pressed
    cases earlier <;> cases before <;>
      simp [DigitalProxy.updateState, edge, State.toInt, DigitalData.assignInt, zero]

/-- A bound proxy that shows the last edge. -/
structure Shows (unit : UInt32) (earlier before : Bool) (p : DigitalProxy) : Prop where
  awake : p.mStupefied = false
  unit : p.mUnitNum = unit
  state : p.mData.value = (edge earlier before).toInt

theorem Shows.updateData {unit : UInt32} {earlier before : Bool} {p : DigitalProxy}
    (shows : Shows unit earlier before p) (d : Digital) :
    Shows unit before (d.pressed unit) (p.updateData d) := by
  obtain ⟨awake, rfl, state⟩ := shows
  have updated : p.updateData d = { p with
      mData := DigitalProxy.updateState p.mData.value (d.getDigitalData p.mUnitNum) } := by
    simp [DigitalProxy.updateData, awake]
  rw [updated, state, updateState_edge]
  exact ⟨awake, rfl, rfl⟩

/-- One more update, by what the run before it left. -/
theorem updates_snoc (p : DigitalProxy) (devices : List Digital) (d : Digital) :
    p.updates (devices ++ [d]) = (p.updates devices).updateData d := by
  simp [DigitalProxy.updates]

/-- After any updates the proxy shows whether the button is pressed, beside something earlier. -/
theorem shows_updates (unit : UInt32) (devices : List Digital) :
    ∃ earlier, Shows unit earlier (lastPressed unit devices)
      ((DigitalProxy.create unit).bind.updates devices) := by
  induction devices using List.reverseRecOn with
  -- a new proxy shows a button that was never pressed
  | nil => exact ⟨false, rfl, rfl, rfl⟩
  | append_singleton devices d ih =>
    obtain ⟨earlier, shows⟩ := ih
    refine ⟨lastPressed unit devices, ?_⟩
    rw [updates_snoc]
    simpa [lastPressed] using shows.updateData d

/-- After every update of a bound proxy, its state tells whether the button was pressed at the
update before and whether it is now, and its time is that of the newest sample. -/
theorem digital_proxy_edges (unit : UInt32) (devices : List Digital) (d : Digital) :
    let p := (DigitalProxy.create unit).bind.updates (devices ++ [d])
    p.getData = (edge (lastPressed unit devices) (d.pressed unit)).toInt ∧
      p.getTimeStamp = (d.getDigitalData unit).mTimeStamp := by
  obtain ⟨earlier, shows⟩ := shows_updates unit devices
  have after := shows.updateData d
  rw [updates_snoc]
  constructor
  · simpa [DigitalProxy.getData, after.awake] using after.state
  · -- the time stamp is that of the sample in every branch
    simp [DigitalProxy.getTimeStamp, DigitalProxy.updateData, shows.awake, shows.state, shows.unit,
      updateState_edge]

end VRJuggler.Gadget
