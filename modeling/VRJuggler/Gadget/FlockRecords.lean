import Mathlib.Data.List.Range
import Mathlib.Data.List.TakeWhile
import VRJuggler.Base.Lists

/-!
# The records of the Flock of Birds

The flock reports the status of each unit on its bus. From that the driver counts the sensors and
gives each of them a slot, by the address of its unit. A record of the stream has one sensor record
for each sensor; in group mode its last byte is the address of the unit. The first byte of a sensor
record has the phase bit, no other byte has it.

What the serial port returns is given, read by read; what a flush discards is not part of it. The
commands by which the driver changes the report rate are taken to succeed.
-/
namespace VRJuggler.Gadget.Flock

/-! ## The configuration -/

inductive AddressingMode where
  | NormalAddressing
  | ExpandedAddressing
  | SuperExpandedAddressing
  | UnknownAddressing
  deriving DecidableEq

inductive TransmitterType where
  | Ert0
  | Ert1
  | Ert2
  | Ert3
  | Standard
  | None
  deriving DecidableEq

inductive FlockMode where
  | Standalone
  | Standard
  | ExtendedRange
  deriving DecidableEq

namespace SystemStatus

def isAccessible (bstatus : UInt8) : Bool := bstatus &&& 0x80 ≠ 0

def isRunning (bstatus : UInt8) : Bool := bstatus &&& 0x40 ≠ 0

def hasSensor (bstatus : UInt8) : Bool := bstatus &&& 0x20 ≠ 0

def isErt (bstatus : UInt8) : Bool := bstatus &&& 0x10 ≠ 0

def hasStandardTransmitter (bstatus : UInt8) : Bool := bstatus &&& 0x01 ≠ 0 && !isErt bstatus

def hasTransmitter (bstatus : UInt8) : Bool := isErt bstatus || hasStandardTransmitter bstatus

/-- `held`: what the variable held, which is not set for an ERT without a number. -/
def getTransmitterType (held : TransmitterType) (bstatus : UInt8) : TransmitterType :=
  if !hasTransmitter bstatus then .None
  else if hasStandardTransmitter bstatus then .Standard
  else if bstatus &&& 0x02 ≠ 0 then .Ert1
  else if bstatus &&& 0x04 ≠ 0 then .Ert2
  else if bstatus &&& 0x08 ≠ 0 then .Ert3
  else if bstatus &&& 0x01 ≠ 0 then .Ert0
  else held

end SystemStatus

namespace AddressingMode

def getMaxBirdAddr : AddressingMode → Nat
  | .NormalAddressing => 14
  | .ExpandedAddressing => 30
  | .SuperExpandedAddressing => 127
  | .UnknownAddressing => 0

/-- The number of the addresses that the flock reports. -/
def num_addrs : AddressingMode → Nat
  | .ExpandedAddressing => 30
  | .SuperExpandedAddressing => 126
  | _ => 14

end AddressingMode

structure FlockUnit where
  mAddr : Nat := 0
  mAccessible : Bool := false
  mIsRunning : Bool := false
  mHasSensor : Bool := false
  mTransmitterType : TransmitterType := .None

/-- What the flock answers to the queries. -/
structure FlockReport where
  mAddrMode : AddressingMode
  mMasterAddr : Nat
  sysStatus : List UInt8
  complete : sysStatus.length = mAddrMode.num_addrs := by decide
  held : TransmitterType := .None

namespace FlockReport

variable (report : FlockReport)

/-- The mode before it is known if there are ERTs. -/
def mode : FlockMode := if report.mMasterAddr = 0 then .Standalone else .Standard

def unit (i : Nat) (status : UInt8) : FlockUnit where
  mAddr := i + 1
  mAccessible := SystemStatus.isAccessible status
  mIsRunning := SystemStatus.isRunning status
  mHasSensor := SystemStatus.hasSensor status
  mTransmitterType := SystemStatus.getTransmitterType report.held status

/-- The units with the statuses; all of them must have a place. -/
def queriedUnits : Option (List FlockUnit) :=
  let max_units := report.mAddrMode.getMaxBirdAddr
  if report.sysStatus.length ≤ max_units then
    some (report.sysStatus.mapIdx report.unit ++
      List.replicate (max_units - report.sysStatus.length) ({} : FlockUnit))
  else none

/-- `mFlockUnits` and `mActiveUnitEndIndex`. -/
def setupFlockUnitsDataStructure : Option (List FlockUnit × Nat) := do
  let units ← report.queriedUnits
  if report.mode = .Standalone then
    match units with
    | [] => none
    | first :: others =>
      some ({ first with
        mAddr := 0, mAccessible := true, mIsRunning := true, mHasSensor := true
        mTransmitterType := .Standard } :: others, 1)
  else some (units, (units.takeWhile FlockUnit.mAccessible).length)

end FlockReport

/-! ## The flock -/

inductive OutputFormat where
  | Position
  | Angle
  | Matrix
  | PositionAngle
  | PositionMatrix
  | Quaternion
  | PositionQuaternion
  deriving DecidableEq

def OutputFormat.getDataSize : OutputFormat → Nat
  | .Position => 6
  | .Angle => 6
  | .Matrix => 18
  | .PositionAngle => 12
  | .PositionMatrix => 24
  | .Quaternion => 8
  | .PositionQuaternion => 14

structure FlockStandalone where
  mMode : FlockMode
  mOutputFormat : OutputFormat
  mNumSensors : Nat := 0
  mAddrToSensorIdMap : List Int
  deriving DecidableEq

namespace FlockStandalone

/-- With an ERT the flock has the extended range. -/
def noteTransmitter (flock : FlockStandalone) (unit : FlockUnit) : FlockStandalone :=
  if unit.mTransmitterType = .Ert0 then { flock with mMode := .ExtendedRange } else flock

/-- A sensor is entered into the map. -/
def noteSensor (flock : FlockStandalone) (unit : FlockUnit) : Option FlockStandalone :=
  if unit.mHasSensor then
    if unit.mAddr < flock.mAddrToSensorIdMap.length then
      some { flock with
        mAddrToSensorIdMap := flock.mAddrToSensorIdMap.set unit.mAddr flock.mNumSensors
        mNumSensors := flock.mNumSensors + 1 }
    else none
  else some flock

def addUnit (flock : FlockStandalone) (unit : FlockUnit) : Option FlockStandalone :=
  (flock.noteTransmitter unit).noteSensor unit

def readInitialFlockConfiguration (report : FlockReport) (format : OutputFormat) :
    Option FlockStandalone := do
  let (mFlockUnits, mActiveUnitEndIndex) ← report.setupFlockUnitsDataStructure
  (mFlockUnits.take mActiveUnitEndIndex).foldlM addUnit {
    mMode := report.mode
    mOutputFormat := format
    mAddrToSensorIdMap := List.replicate report.mAddrMode.getMaxBirdAddr (-1) }

variable (flock : FlockStandalone)

/-- With the address of the unit in group mode. -/
def single_bird_data_size : Nat :=
  if flock.mMode = .Standalone then flock.mOutputFormat.getDataSize
  else flock.mOutputFormat.getDataSize + 1

def data_record_size : Nat := flock.mNumSensors * flock.single_bird_data_size

def phase_mask : UInt8 := 0x80

def hasPhase (byte : UInt8) : Bool := phase_mask &&& byte ≠ 0

end FlockStandalone

/-! ## Storing a record -/

namespace FlockStandalone

variable {M : Type} (flock : FlockStandalone) (decode : List UInt8 → M)

/-- The slot for the sensor record at a place. An address out of order is replaced by that of the
place. -/
def sensor_number (record : List UInt8) (i : Nat) : Option Int :=
  if flock.mMode = .Standalone then some 0
  else do
    let sensor := UInt8.ofNat i
    let carried ← record[flock.single_bird_data_size * i + (flock.single_bird_data_size - 1)]?
    let unit_addr := if carried.toNat ≠ sensor.toNat + 1 then sensor + 1 else carried
    flock.mAddrToSensorIdMap[unit_addr.toNat]?

/-- The matrix of the sensor record is stored. `decode`: `processSensorRecord`. -/
def store (record : List UInt8) (i : Nat) (sensor_number : Int) (mSensorData : List M) :
    Option (List M) :=
  let data_offset := flock.single_bird_data_size * i
  if data_offset + flock.mOutputFormat.getDataSize ≤ record.length then
    if 0 ≤ sensor_number ∧ sensor_number < mSensorData.length then
      let buff := (record.drop data_offset).take flock.mOutputFormat.getDataSize
      some (mSensorData.set sensor_number.toNat (decode buff))
    else none
  else none

def processDataRecord (mSensorData : List M) (record : List UInt8) : Option (List M) :=
  (List.range flock.mNumSensors).foldlM (fun mSensorData i => do
    let number ← flock.sensor_number record i
    flock.store decode record i number mSensorData) mSensorData

end FlockStandalone

/-! ## Reading a record -/

/-- What a read of the serial port does: it returns a byte or none, or it throws. -/
inductive Incoming where
  | byte (b : UInt8)
  | nothing
  | wouldBlock
  | failure
  deriving DecidableEq

inductive FlockReportRate where
  | MaxRate
  | EveryOther
  | Every8
  | Every32
  deriving DecidableEq

def FlockReportRate.slower : FlockReportRate → FlockReportRate
  | .MaxRate => .EveryOther
  | .EveryOther => .Every8
  | .Every8 => .Every32
  | .Every32 => .Every32

/-- Where `sample` is. -/
inductive Reading where
  | searching
  | within (buffer : UInt8) (data_record : List UInt8) (bytes_remaining : Nat)
  deriving DecidableEq

structure Sampling where
  num_stream_read_failures : Nat := 0
  mReportRate : FlockReportRate
  reading : Reading := .searching
  deriving DecidableEq

/-- How the reads of a sample end, with the reads that are left. -/
inductive Received where
  | waiting
  | thrown
  | record (data_record : List UInt8) (mReportRate : FlockReportRate) (rest : List Incoming)
  deriving DecidableEq

namespace Sampling

/-- The next try; after too many failures the report rate is decreased. -/
def retry (s : Sampling) (failures : Nat) : Sampling :=
  if failures > 5 then
    { num_stream_read_failures := 0, mReportRate := s.mReportRate.slower }
  else { num_stream_read_failures := failures, mReportRate := s.mReportRate }

end Sampling

namespace FlockStandalone

variable (flock : FlockStandalone)

/-- A phase bit inside of a sensor record. -/
def outOfPhase (data_record : List UInt8) : Bool :=
  data_record.zipIdx.any fun (byte, b) => b % flock.single_bird_data_size ≠ 0 && hasPhase byte

/-- An unsigned number of 32 bits, also without sensors. -/
def firstRemaining : Nat := (UInt32.ofNat flock.data_record_size - 1).toNat

/-- The reads of `sample` while the flock streams. -/
def readRecord : Sampling → List Incoming → Received
  | _, [] => .waiting
  | s, x :: rest =>
    match s.reading with
    | .searching =>
      match x with
      | .byte buffer =>
        if hasPhase buffer then
          readRecord { s with reading := .within buffer [] flock.firstRemaining } rest
        else readRecord s rest
      | .nothing => readRecord (s.retry s.num_stream_read_failures) rest
      -- these exceptions are not caught while it searches
      | .wouldBlock => .thrown
      | .failure => .thrown
    | .within buffer data_record bytes_remaining =>
      match x with
      | .byte b =>
        let data_record := data_record ++ [b]
        if bytes_remaining - 1 ≠ 0 then
          readRecord
            { s with reading := .within buffer data_record (bytes_remaining - 1) } rest
        else if flock.outOfPhase (buffer :: data_record) then
          readRecord (s.retry (s.num_stream_read_failures + 1)) rest
        else .record (buffer :: data_record) s.mReportRate rest
      | .nothing => readRecord s rest
      | .wouldBlock => readRecord s rest
      | .failure => readRecord (s.retry (s.num_stream_read_failures + 1)) rest

/-- How a sample ends. `undefined`: an index out of its table. -/
inductive Sampled (M : Type) where
  | waiting
  | thrown
  | undefined
  | stored (mSensorData : List M)

def sample {M : Type} (decode : List UInt8 → M) (mSensorData : List M) (rate : FlockReportRate)
    (reads : List Incoming) : Sampled M :=
  match flock.readRecord { mReportRate := rate } reads with
  | .waiting => .waiting
  | .thrown => .thrown
  | .record data_record _ _ =>
    match flock.processDataRecord decode mSensorData data_record with
    | none => .undefined
    | some mSensorData => .stored mSensorData

end FlockStandalone

/-! ## Which slot is meant -/

namespace FlockReport

variable (report : FlockReport)

/-- The units from the first to before the first that is not accessible. -/
def active : List UInt8 := report.sysStatus.takeWhile SystemStatus.isAccessible

def sensors : Nat := report.active.countP SystemStatus.hasSensor

/-- No sensor has the address that follows the last one in the table. -/
def InTables : Prop :=
  report.mAddrMode ≠ .UnknownAddressing ∧
    (report.mMasterAddr ≠ 0 → ∀ status, report.active[report.mAddrMode.getMaxBirdAddr - 1]? =
      some status → SystemStatus.hasSensor status = false)

end FlockReport

namespace FlockStandalone

variable (flock : FlockStandalone)

/-- The place of the group byte of a sensor record. -/
def groupByte (record : List UInt8) (i : Nat) : Option UInt8 :=
  record[flock.single_bird_data_size * i + (flock.single_bird_data_size - 1)]?

/-- The slot that was given to the unit whose address the sensor record carries. -/
def assignedSlot (record : List UInt8) (i : Nat) : Option Int :=
  if flock.mMode = .Standalone then some 0
  else (flock.groupByte record i).bind fun carried =>
    flock.mAddrToSensorIdMap[carried.toNat]?.filter fun slot => slot ≠ -1

/-- The data of each sensor record is stored in the slot that is meant. -/
def storeByAddress {M : Type} (decode : List UInt8 → M) (mSensorData : List M)
    (record : List UInt8) : Option (List M) :=
  (List.range flock.mNumSensors).foldlM (fun mSensorData i => do
    let slot ← flock.assignedSlot record i
    flock.store decode record i slot mSensorData) mSensorData

/-- The record starts with a phase bit, and no sensor record has one inside. -/
structure Phased (record : List UInt8) : Prop where
  first : ∃ byte, record.head? = some byte ∧ hasPhase byte = true
  inside : ∀ b byte, record[b]? = some byte → b % flock.single_bird_data_size ≠ 0 →
    hasPhase byte = false

end FlockStandalone

/-- The flock is configured; a record that is processed has its phase bits where they should be,
and each sensor record is stored in the slot that is meant by its address. -/
def Right (report : FlockReport) (format : OutputFormat) (rate : FlockReportRate)
    (reads : List Incoming) : Prop :=
  ∃ flock, FlockStandalone.readInitialFlockConfiguration report format = some flock ∧
    ∀ record rate' rest, flock.readRecord { mReportRate := rate } reads =
        .record record rate' rest →
      flock.Phased record ∧
        (∀ i < flock.mNumSensors, ∃ slot, flock.assignedSlot record i = some slot ∧
          flock.sensor_number record i = some slot) ∧
        ∀ (M : Type) (decode : List UInt8 → M) (mSensorData : List M),
          mSensorData.length = flock.mNumSensors →
            ∃ stored, flock.sample decode mSensorData rate reads = .stored stored ∧
              flock.storeByAddress decode mSensorData record = some stored

/-- In group mode the sensors are those of the first units, and the sensor records come in the
order of the units. -/
def Consecutive (report : FlockReport) (flock : FlockStandalone) (record : List UInt8) : Prop :=
  report.mMasterAddr ≠ 0 → ∀ i < report.sensors,
    (∃ status, report.active[i]? = some status ∧ SystemStatus.hasSensor status = true) ∧
      flock.groupByte record i = some (UInt8.ofNat (i + 1))

/-! ## The slots -/

/-- There is a sensor at the address. -/
def sensorAt (statuses : List UInt8) (a : Nat) : Bool :=
  a ≠ 0 && (statuses[a - 1]?).any SystemStatus.hasSensor

/-- The number of the sensors before that at the address. -/
def slotAt (statuses : List UInt8) (a : Nat) : Int :=
  if sensorAt statuses a then ((statuses.take (a - 1)).countP SystemStatus.hasSensor : Int) else -1

section Slots

variable {statuses : List UInt8} {k : Nat}

theorem sensorAt_succ {i : Nat} : sensorAt statuses (i + 1) = true ↔
    ∃ status, statuses[i]? = some status ∧ SystemStatus.hasSensor status = true := by
  simp [sensorAt, Option.any_eq_true]

/-- When the sensors are those of the first units, as many are before a unit as units are. -/
theorem countP_take (all : ∀ i < k, sensorAt statuses (i + 1) = true) {i : Nat} (small : i ≤ k) :
    (statuses.take i).countP SystemStatus.hasSensor = i := by
  induction i with
  | zero => rfl
  | succ i ih =>
    obtain ⟨status, here, sensor⟩ := sensorAt_succ.mp (all i small)
    rw [List.take_add_one, here, List.countP_append, ih (by omega)]
    simp [sensor]

/-- Then the slot of a sensor is one less than its address. -/
theorem slotAt_of_all (all : ∀ i < k, sensorAt statuses (i + 1) = true) {i : Nat} (small : i < k) :
    slotAt statuses (i + 1) = i := by
  rw [slotAt, if_pos (all i small), Nat.add_sub_cancel, countP_take all (Nat.le_of_lt small)]

/-- And no other address has that slot. -/
theorem eq_of_slotAt (all : ∀ i < k, sensorAt statuses (i + 1) = true) {a i : Nat}
    (small : i < k) (here : slotAt statuses a = i) : a = i + 1 := by
  unfold slotAt at here
  split at here
  next sensor =>
    have count : (statuses.take (a - 1)).countP SystemStatus.hasSensor = i := by omega
    have positive : a ≠ 0 := by
      rintro rfl
      simp [sensorAt] at sensor
    rcases Nat.le_total (a - 1) k with before | after
    · rw [countP_take all before] at count
      omega
    · -- all sensors are before such an address
      have more : (statuses.take k).countP SystemStatus.hasSensor ≤
          (statuses.take (a - 1)).countP SystemStatus.hasSensor :=
        (List.take_sublist_take_left after).countP_le
      rw [countP_take all le_rfl] at more
      omega
  next => omega

end Slots

/-! ## The configured flock -/

/-- The units with these statuses were entered into the map. -/
structure Configured (format : OutputFormat) (size : Nat) (statuses : List UInt8)
    (flock : FlockStandalone) : Prop where
  group : flock.mMode ≠ .Standalone
  format : flock.mOutputFormat = format
  sensors : flock.mNumSensors = statuses.countP SystemStatus.hasSensor
  length : flock.mAddrToSensorIdMap.length = size
  slot : ∀ a < size, flock.mAddrToSensorIdMap[a]? = some (slotAt statuses a)

section Units

variable {report : FlockReport} {format : OutputFormat} {size : Nat} {statuses : List UInt8}
  {status : UInt8} {flock next : FlockStandalone}

/-- Up to a unit, the slots do not depend on it. -/
theorem slotAt_append {a : Nat} (other : a ≠ statuses.length + 1) :
    slotAt (statuses ++ [status]) a = slotAt statuses a := by
  rcases Nat.lt_or_ge (a - 1) statuses.length with inside | outside
  · unfold slotAt sensorAt
    rw [List.getElem?_append_left inside, List.take_append_of_le_length (Nat.le_of_lt inside)]
  · -- there is no unit at such an address before, and none is added
    have none' : sensorAt statuses a = false := by
      simp [sensorAt, List.getElem?_eq_none outside]
    have missing : sensorAt (statuses ++ [status]) a = false := by
      rcases Nat.eq_zero_or_pos a with rfl | positive
      · rfl
      · have beyond : (statuses ++ [status]).length ≤ a - 1 := by
          rw [List.length_append, List.length_singleton]
          omega
        simp [sensorAt, List.getElem?_eq_none beyond]
    rw [slotAt, slotAt, none', missing]
    rfl

theorem Configured.noteTransmitter (configured : Configured format size statuses flock)
    (unit : FlockUnit) : Configured format size statuses (flock.noteTransmitter unit) := by
  unfold FlockStandalone.noteTransmitter
  split
  next => exact ⟨nofun, configured.format, configured.sensors, configured.length, configured.slot⟩
  next => exact configured

/-- A unit is entered if it has no sensor or its address has a place in the map. -/
theorem Configured.addUnit_iff (configured : Configured format size statuses flock) :
    (∃ next, flock.addUnit (report.unit statuses.length status) = some next) ↔
      (SystemStatus.hasSensor status = true → statuses.length + 1 < size) := by
  have length := (configured.noteTransmitter (report.unit statuses.length status)).length
  unfold FlockStandalone.addUnit FlockStandalone.noteSensor
  rw [length]
  -- a unit without sensor needs no place
  cases sensor : SystemStatus.hasSensor status with
  | false => simp [FlockReport.unit, sensor]
  | true =>
    by_cases inside : statuses.length + 1 < size
    · simp [FlockReport.unit, sensor, inside]
    · simp [FlockReport.unit, sensor, inside]

theorem Configured.addUnit (configured : Configured format size statuses flock)
    (added : flock.addUnit (report.unit statuses.length status) = some next) :
    Configured format size (statuses ++ [status]) next := by
  have noted := configured.noteTransmitter (report.unit statuses.length status)
  unfold FlockStandalone.addUnit at added
  generalize flock.noteTransmitter (report.unit statuses.length status) = flock at noted added
  unfold FlockStandalone.noteSensor at added
  have new : sensorAt (statuses ++ [status]) (statuses.length + 1) =
      SystemStatus.hasSensor status := by
    simp [sensorAt]
  cases sensor : SystemStatus.hasSensor status with
  | false =>
    simp only [FlockReport.unit, sensor, Bool.false_eq_true, if_false] at added
    obtain rfl := Option.some.inj added
    refine ⟨noted.group, noted.format, ?_, noted.length, fun a small => ?_⟩
    · rw [noted.sensors, List.countP_append, List.countP_singleton, sensor]
      rfl
    · rw [noted.slot a small]
      by_cases here : a = statuses.length + 1
      · -- the place of a unit without sensor stays as it was
        subst here
        have none' : sensorAt statuses (statuses.length + 1) = false := by simp [sensorAt]
        rw [slotAt, slotAt, none', new, sensor]
        rfl
      · rw [slotAt_append here]
  | true =>
    simp only [FlockReport.unit, sensor, if_true] at added
    split at added
    next inside =>
      obtain rfl := Option.some.inj added
      refine ⟨noted.group, noted.format, ?_, ?_, fun a small => ?_⟩
      · dsimp only
        rw [noted.sensors, List.countP_append, List.countP_singleton, sensor]
        rfl
      · dsimp only
        rw [List.length_set, noted.length]
      · dsimp only
        rw [List.getElem?_set]
        split
        next here =>
          subst here
          rw [slotAt, new, sensor, if_pos rfl, Nat.add_sub_cancel, List.take_left, noted.sensors]
        next other => rw [noted.slot a small, slotAt_append (Ne.symm other)]
    next => exact nomatch added

/-- The map of the flock before the first unit. -/
theorem configured_nil {mode : FlockMode} (group : mode ≠ .Standalone) :
    Configured format size [] {
      mMode := mode
      mOutputFormat := format
      mAddrToSensorIdMap := List.replicate size (-1) } where
  group := group
  format := rfl
  sensors := rfl
  length := List.length_replicate
  slot a small := by
    rw [List.getElem?_replicate, if_pos small]
    simp [slotAt, sensorAt]

/-- The units are entered when the sensors among them have their places in the map. -/
theorem foldlM_addUnit {start : FlockStandalone} (configured : Configured format size [] start)
    (statuses : List UInt8) :
    ((∃ flock, (statuses.mapIdx report.unit).foldlM FlockStandalone.addUnit start = some flock) ↔
        ∀ i status, statuses[i]? = some status → SystemStatus.hasSensor status = true →
          i + 1 < size) ∧
      ∀ flock, (statuses.mapIdx report.unit).foldlM FlockStandalone.addUnit start = some flock →
        Configured format size statuses flock := by
  induction statuses using List.reverseRecOn with
  | nil =>
    refine ⟨iff_of_true ⟨start, rfl⟩ nofun, fun flock here => ?_⟩
    exact Option.some.inj here ▸ configured
  | append_singleton statuses status ih =>
    obtain ⟨defined, known⟩ := ih
    have split' : (∀ i s, (statuses ++ [status])[i]? = some s →
          SystemStatus.hasSensor s = true → i + 1 < size) ↔
        (∀ i s, statuses[i]? = some s → SystemStatus.hasSensor s = true → i + 1 < size) ∧
          (SystemStatus.hasSensor status = true → statuses.length + 1 < size) := by
      constructor
      · intro all
        refine ⟨fun i s here => all i s ?_, all statuses.length status List.getElem?_concat_length⟩
        have inside := (List.getElem?_eq_some_iff.mp here).1
        rwa [List.getElem?_append_left inside]
      · rintro ⟨before, last⟩ i s here
        rcases Nat.lt_or_ge i statuses.length with inside | outside
        · rw [List.getElem?_append_left inside] at here
          exact before i s here
        · rw [List.getElem?_append_right outside, List.getElem?_singleton] at here
          split at here
          next first =>
            obtain rfl := Option.some.inj here
            have same : i = statuses.length := by omega
            exact same ▸ last
          next => exact nomatch here
    -- the last unit is entered after the others
    have stepped :
        ((statuses ++ [status]).mapIdx report.unit).foldlM FlockStandalone.addUnit start =
        ((statuses.mapIdx report.unit).foldlM FlockStandalone.addUnit start).bind fun flock =>
          flock.addUnit (report.unit statuses.length status) := by
      rw [List.mapIdx_concat, List.foldlM_append]
      simp
    rw [split', ← defined, stepped]
    constructor
    · constructor
      · rintro ⟨next, here⟩
        obtain ⟨flock, first, last⟩ := Option.bind_eq_some_iff.mp here
        exact ⟨⟨flock, first⟩, (known flock first).addUnit_iff.mp ⟨next, last⟩⟩
      · rintro ⟨⟨flock, first⟩, fits⟩
        obtain ⟨next, last⟩ := (known flock first).addUnit_iff.mpr fits
        exact ⟨next, Option.bind_eq_some_iff.mpr ⟨flock, first, last⟩⟩
    · intro next here
      obtain ⟨flock, first, last⟩ := Option.bind_eq_some_iff.mp here
      exact (known flock first).addUnit last

/-- The accessible units at the front are those with the accessible statuses. -/
theorem takeWhile_mapIdx {unit : Nat → UInt8 → FlockUnit} (statuses : List UInt8)
    (accessible : ∀ i status, (unit i status).mAccessible = SystemStatus.isAccessible status) :
    (statuses.mapIdx unit).takeWhile FlockUnit.mAccessible =
      (statuses.takeWhile SystemStatus.isAccessible).mapIdx unit := by
  induction statuses generalizing unit with
  | nil => rfl
  | cons status statuses ih =>
    rw [List.mapIdx_cons, List.takeWhile_cons, List.takeWhile_cons, accessible]
    split
    next => rw [ih fun i => accessible (i + 1), List.mapIdx_cons]
    next => rfl

/-- More units than addresses are reported have a place, unless the mode is unknown. -/
theorem num_addrs_le (report : FlockReport) :
    report.sysStatus.length ≤ report.mAddrMode.getMaxBirdAddr ↔
      report.mAddrMode ≠ .UnknownAddressing := by
  rw [report.complete]
  cases report.mAddrMode <;> simp [AddressingMode.num_addrs, AddressingMode.getMaxBirdAddr]

theorem getMaxBirdAddr_pos {mode : AddressingMode} (known : mode ≠ .UnknownAddressing) :
    0 < mode.getMaxBirdAddr := by
  cases mode <;> simp_all [AddressingMode.getMaxBirdAddr]

/-- The units that are entered in group mode. -/
theorem setup_group (group : report.mMasterAddr ≠ 0) :
    (report.mAddrMode = .UnknownAddressing → report.setupFlockUnitsDataStructure = none) ∧
      (report.mAddrMode ≠ .UnknownAddressing → ∃ units count,
        report.setupFlockUnitsDataStructure = some (units, count) ∧
          units.take count = report.active.mapIdx report.unit) := by
  have mode : report.mode ≠ .Standalone := by simp [FlockReport.mode, group]
  unfold FlockReport.setupFlockUnitsDataStructure FlockReport.queriedUnits
  constructor
  · intro unknown
    have outside := mt (num_addrs_le report).mp (not_not.mpr unknown)
    simp only [if_neg outside]
    rfl
  · intro known
    have inside := (num_addrs_le report).mpr known
    simp only [if_pos inside, Option.bind_eq_bind, Option.bind_some, if_neg mode]
    refine ⟨_, _, rfl, ?_⟩
    rw [← List.prefix_iff_eq_take.mp (List.takeWhile_prefix _), FlockReport.active,
      ← takeWhile_mapIdx _ fun _ _ => rfl, List.takeWhile_append]
    -- the units beyond the reported ones are not accessible
    have idle (n : Nat) : (List.replicate n ({} : FlockUnit)).takeWhile FlockUnit.mAccessible =
        [] := by
      cases n <;> rfl
    rw [idle, List.append_nil]
    split
    next all => exact ((List.takeWhile_prefix _).eq_of_length all).symm
    next => rfl

theorem readInitial_group (group : report.mMasterAddr ≠ 0) :
    ((∃ flock, FlockStandalone.readInitialFlockConfiguration report format = some flock) ↔
        report.InTables) ∧
      ∀ flock, FlockStandalone.readInitialFlockConfiguration report format = some flock →
        Configured format report.mAddrMode.getMaxBirdAddr report.active flock ∧
          ∀ i status, report.active[i]? = some status → SystemStatus.hasSensor status = true →
            i + 1 < report.mAddrMode.getMaxBirdAddr := by
  obtain ⟨undefined, defined⟩ := setup_group group
  unfold FlockStandalone.readInitialFlockConfiguration FlockReport.InTables
  by_cases unknown : report.mAddrMode = .UnknownAddressing
  · rw [undefined unknown]
    exact ⟨iff_of_false nofun fun tables => tables.1 unknown, nofun⟩
  · obtain ⟨units, count, setup, active⟩ := defined unknown
    have mode : report.mode ≠ .Standalone := by simp [FlockReport.mode, group]
    have start : Configured format report.mAddrMode.getMaxBirdAddr [] _ := configured_nil mode
    obtain ⟨entered, known⟩ := foldlM_addUnit start report.active
    rw [setup]
    simp only [Option.bind_eq_bind, Option.bind_some, active]
    refine ⟨entered.trans ?_, fun flock here => ⟨known flock here, entered.mp ⟨flock, here⟩⟩⟩
    have most := (num_addrs_le report).mpr unknown
    have length : report.active.length ≤ report.sysStatus.length :=
      (List.takeWhile_sublist _).length_le
    have positive := getMaxBirdAddr_pos unknown
    constructor
    · intro fits
      refine ⟨unknown, fun _ status here => ?_⟩
      by_contra sensor
      have small := fits _ status here (by simpa using sensor)
      omega
    · rintro ⟨-, absent⟩ i status here sensor
      have inside := (List.getElem?_eq_some_iff.mp here).1
      by_contra outside
      -- only the last address is beyond the map
      have last : i = report.mAddrMode.getMaxBirdAddr - 1 := by omega
      rw [absent group status (last ▸ here)] at sensor
      exact nomatch sensor

theorem readInitial_standalone (alone : report.mMasterAddr = 0) :
    ((∃ flock, FlockStandalone.readInitialFlockConfiguration report format = some flock) ↔
        report.InTables) ∧
      ∀ flock, FlockStandalone.readInitialFlockConfiguration report format = some flock →
        flock.mMode = .Standalone ∧ flock.mOutputFormat = format ∧ flock.mNumSensors = 1 := by
  have mode : report.mode = .Standalone := by simp [FlockReport.mode, alone]
  have tables : report.InTables ↔ report.mAddrMode ≠ .UnknownAddressing := by
    simp [FlockReport.InTables, alone]
  rw [tables]
  unfold FlockStandalone.readInitialFlockConfiguration
    FlockReport.setupFlockUnitsDataStructure FlockReport.queriedUnits
  by_cases unknown : report.mAddrMode = .UnknownAddressing
  · have outside := mt (num_addrs_le report).mp (not_not.mpr unknown)
    simp only [if_neg outside]
    exact ⟨iff_of_false nofun fun known => known unknown, nofun⟩
  · have inside := (num_addrs_le report).mpr unknown
    have positive := getMaxBirdAddr_pos unknown
    -- at least one status is reported
    obtain ⟨status, rest, shape⟩ : ∃ status rest, report.sysStatus = status :: rest := by
      refine List.exists_cons_of_length_pos ?_
      rw [report.complete]
      cases report.mAddrMode <;> simp [AddressingMode.num_addrs]
    rw [if_pos inside, shape]
    simp only [Option.bind_eq_bind, Option.bind_some, mode, if_true, List.mapIdx_cons,
      List.cons_append, List.take_succ_cons, List.take_zero, List.foldlM_cons, List.foldlM_nil]
    simp [FlockStandalone.addUnit, FlockStandalone.noteTransmitter, FlockStandalone.noteSensor,
      positive, unknown]

end Units

/-! ## The records that are read -/

namespace FlockStandalone

variable {flock : FlockStandalone} {s : Sampling} {reads rest : List Incoming}
  {record : List UInt8} {rate : FlockReportRate}

/-- Within a record, the first byte has the phase bit and the bytes that were read are counted. -/
def Begun (flock : FlockStandalone) : Reading → Prop
  | .searching => True
  | .within buffer data_record bytes_remaining => hasPhase buffer = true ∧
      0 < bytes_remaining ∧ data_record.length + bytes_remaining = flock.firstRemaining

theorem begun_retry (failures : Nat) : flock.Begun (s.retry failures).reading := by
  unfold Sampling.retry
  split <;> trivial

theorem phased_of_outOfPhase {buffer : UInt8} {data_record : List UInt8}
    (phase : hasPhase buffer = true)
    (checked : flock.outOfPhase (buffer :: data_record) = false) :
    flock.Phased (buffer :: data_record) where
  first := ⟨buffer, rfl, phase⟩
  inside := by
    intro b byte here inner
    by_contra set'
    have member : (byte, b) ∈ (buffer :: data_record).zipIdx :=
      List.mk_mem_zipIdx_iff_getElem?.mpr here
    have found : flock.outOfPhase (buffer :: data_record) = true := by
      refine List.any_eq_true.mpr ⟨(byte, b), member, ?_⟩
      simpa [inner] using set'
    rw [checked] at found
    exact nomatch found

/-- What is read as a record is one by its phase bits and its length. -/
theorem readRecord_phased (positive : 0 < flock.firstRemaining) (begun : flock.Begun s.reading)
    (received : flock.readRecord s reads = .record record rate rest) :
    flock.Phased record ∧ record.length = flock.firstRemaining + 1 := by
  induction reads generalizing s with
  | nil => exact nomatch received
  | cons x reads ih =>
    unfold readRecord at received
    cases here : s.reading with
    | searching =>
      rw [here] at received
      cases x with
      | byte buffer =>
        dsimp only at received
        split at received
        next phase =>
          refine ih ?_ received
          exact ⟨phase, positive, Nat.zero_add _⟩
        next => exact ih begun received
      | nothing => exact ih (begun_retry _) received
      | wouldBlock => exact nomatch received
      | failure => exact nomatch received
    | within buffer data_record bytes_remaining =>
      rw [here] at received begun
      obtain ⟨phase, more, counted⟩ := begun
      cases x with
      | byte b =>
        dsimp only at received
        have length : (data_record ++ [b]).length = data_record.length + 1 := List.length_append
        split at received
        next left =>
          refine ih ?_ received
          exact ⟨phase, by omega, by omega⟩
        next last =>
          split at received
          next => exact ih (begun_retry _) received
          next checked =>
            cases received
            refine ⟨phased_of_outOfPhase phase (by simpa using checked), ?_⟩
            rw [List.length_cons]
            omega
      | nothing => exact ih (here ▸ ⟨phase, more, counted⟩) received
      | wouldBlock => exact ih (here ▸ ⟨phase, more, counted⟩) received
      | failure => exact ih (begun_retry _) received

/-- A record has a sensor record for each sensor. -/
theorem firstRemaining_spec (few : flock.mNumSensors ≤ 126) : 0 < flock.firstRemaining ∧
    (0 < flock.mNumSensors → flock.firstRemaining + 1 =
      flock.mNumSensors * flock.single_bird_data_size) := by
  have size : 6 ≤ flock.single_bird_data_size ∧ flock.single_bird_data_size ≤ 25 := by
    unfold single_bird_data_size
    cases flock.mOutputFormat <;> simp only [OutputFormat.getDataSize] <;> split <;> omega
  have most : flock.data_record_size ≤ 126 * 25 := Nat.mul_le_mul few size.2
  have remaining : flock.firstRemaining =
      (2 ^ 32 - 1 + flock.data_record_size % 2 ^ 32) % 2 ^ 32 := by
    unfold firstRemaining
    rw [UInt32.toNat_sub, UInt32.toNat_ofNat']
    rfl
  rw [remaining]
  rcases Nat.eq_zero_or_pos flock.mNumSensors with none' | some'
  · -- without sensors the number wraps
    have zero : flock.data_record_size = 0 := by rw [data_record_size, none', Nat.zero_mul]
    rw [zero]
    exact ⟨by decide, fun some' => by omega⟩
  · have least : 1 * 6 ≤ flock.data_record_size := Nat.mul_le_mul some' size.1
    change _ ∧ (_ → _ = flock.data_record_size)
    omega

/-! ## Storing -/

/-- The place of a group byte is in the record. -/
theorem groupByte_eq_some (length : record.length =
    flock.mNumSensors * flock.single_bird_data_size) {i : Nat} (small : i < flock.mNumSensors) :
    ∃ carried, flock.groupByte record i = some carried := by
  have positive : 0 < flock.single_bird_data_size := by
    unfold single_bird_data_size
    cases flock.mOutputFormat <;> simp only [OutputFormat.getDataSize] <;> split <;> omega
  have last : (i + 1) * flock.single_bird_data_size ≤ record.length := by
    rw [length]
    exact Nat.mul_le_mul_right _ small
  rw [Nat.add_mul, Nat.one_mul, Nat.mul_comm i] at last
  exact ⟨_, List.getElem?_eq_getElem (by omega)⟩

/-- In group mode, the slot is that of the unit which has the number of the sensor. -/
theorem sensor_number_eq (group : flock.mMode ≠ .Standalone) {i : Nat} (small : i < 126)
    {carried : UInt8} (here : flock.groupByte record i = some carried) :
    flock.sensor_number record i = flock.mAddrToSensorIdMap[i + 1]? := by
  have sensor : (UInt8.ofNat i).toNat = i := by
    rw [UInt8.toNat_ofNat']
    exact Nat.mod_eq_of_lt (by omega)
  have next : (UInt8.ofNat i + 1).toNat = i + 1 := by
    rw [UInt8.toNat_add, sensor]
    exact Nat.mod_eq_of_lt (by show i + 1 < 256; omega)
  unfold sensor_number
  rw [if_neg group]
  show (flock.groupByte record i).bind _ = _
  rw [here, Option.bind_some]
  dsimp only
  rw [sensor]
  split
  next => rw [next]
  next same => rw [not_not.mp same]

/-- Each sensor record gets the slot of its address when the sensors are those of the first units
and the sensor records come in their order. -/
theorem slots_iff {format : OutputFormat} {size : Nat} {statuses : List UInt8}
    (configured : Configured format size statuses flock)
    (fits : ∀ i status, statuses[i]? = some status → SystemStatus.hasSensor status = true →
      i + 1 < size)
    (few : flock.mNumSensors ≤ 126)
    (length : 0 < flock.mNumSensors →
      record.length = flock.mNumSensors * flock.single_bird_data_size) :
    (∀ i < flock.mNumSensors, ∃ slot, flock.assignedSlot record i = some slot ∧
        flock.sensor_number record i = some slot) ↔
      ∀ i < flock.mNumSensors, sensorAt statuses (i + 1) = true ∧
        flock.groupByte record i = some (UInt8.ofNat (i + 1)) := by
  have toNat {i : Nat} (small : i < flock.mNumSensors) : (UInt8.ofNat (i + 1)).toNat = i + 1 := by
    rw [UInt8.toNat_ofNat']
    exact Nat.mod_eq_of_lt (by omega)
  constructor
  · intro slots
    -- the slot of each place is one in the map, so the unit with that number has a sensor
    have known (i : Nat) (small : i < flock.mNumSensors) : ∃ carried,
        flock.groupByte record i = some carried ∧ i + 1 < size ∧ carried.toNat < size ∧
          slotAt statuses carried.toNat = slotAt statuses (i + 1) ∧
          sensorAt statuses (i + 1) = true := by
      obtain ⟨slot, assigned, number⟩ := slots i small
      obtain ⟨carried, here⟩ := groupByte_eq_some (length (by omega)) small
      rw [sensor_number_eq configured.group (by omega) here] at number
      rw [assignedSlot, if_neg configured.group, here, Option.bind_some,
        Option.filter_eq_some_iff] at assigned
      obtain ⟨mapped, some'⟩ := assigned
      have inside (a : Nat) (here : flock.mAddrToSensorIdMap[a]? = some slot) :
          a < size ∧ slotAt statuses a = slot := by
        have small : a < size := configured.length ▸ (List.getElem?_eq_some_iff.mp here).1
        exact ⟨small, Option.some.inj ((configured.slot a small).symm.trans here)⟩
      obtain ⟨small, byPlace⟩ := inside _ number
      obtain ⟨carriedSmall, byAddress⟩ := inside _ mapped
      refine ⟨carried, here, small, carriedSmall, byAddress.trans byPlace.symm, ?_⟩
      by_contra missing
      rw [slotAt, if_neg missing] at byPlace
      simp [← byPlace] at some'
    have all : ∀ i < flock.mNumSensors, sensorAt statuses (i + 1) = true := by
      intro i small
      obtain ⟨carried, -, -, -, -, sensor⟩ := known i small
      exact sensor
    intro i small
    obtain ⟨carried, here, -, -, same, -⟩ := known i small
    rw [slotAt_of_all all small] at same
    have address := eq_of_slotAt all small same
    have carriedEq : carried = UInt8.ofNat (i + 1) := by
      rw [← address, UInt8.ofNat_toNat]
    exact ⟨all i small, carriedEq ▸ here⟩
  · intro ordered i small
    obtain ⟨sensor, here⟩ := ordered i small
    obtain ⟨status, there, has⟩ := sensorAt_succ.mp sensor
    have inside := fits i status there has
    have slot := configured.slot (i + 1) inside
    refine ⟨slotAt statuses (i + 1), ?_, ?_⟩
    · rw [assignedSlot, if_neg configured.group, here, Option.bind_some, toNat small, slot]
      have some' : slotAt statuses (i + 1) ≠ -1 := by
        rw [slotAt, if_pos sensor]
        omega
      simp [some']
    · rw [sensor_number_eq configured.group (by omega) here, slot]

theorem store_eq {M : Type} (decode : List UInt8 → M) {mSensorData : List M} {slot : Int}
    (length : record.length = flock.mNumSensors * flock.single_bird_data_size) {i : Nat}
    (small : i < flock.mNumSensors) (inside : 0 ≤ slot ∧ slot < mSensorData.length) :
    ∃ stored, flock.store decode record i slot mSensorData = some stored ∧
      stored.length = mSensorData.length := by
  have last : (i + 1) * flock.single_bird_data_size ≤ record.length := by
    rw [length]
    exact Nat.mul_le_mul_right _ small
  have data : flock.mOutputFormat.getDataSize ≤ flock.single_bird_data_size := by
    unfold single_bird_data_size
    split <;> omega
  rw [Nat.add_mul, Nat.one_mul, Nat.mul_comm i] at last
  unfold store
  rw [if_pos (by omega), if_pos inside]
  exact ⟨_, rfl, List.length_set⟩

/-- With the slots that are meant, the record is stored as it is meant. -/
theorem stored_of_slots {M : Type} (decode : List UInt8 → M) {mSensorData : List M}
    (sized : mSensorData.length = flock.mNumSensors)
    (length : 0 < flock.mNumSensors →
      record.length = flock.mNumSensors * flock.single_bird_data_size)
    (slots : ∀ i < flock.mNumSensors, ∃ slot, flock.assignedSlot record i = some slot ∧
      flock.sensor_number record i = some slot ∧ 0 ≤ slot ∧ slot < flock.mNumSensors) :
    ∃ stored, flock.processDataRecord decode mSensorData record = some stored ∧
      flock.storeByAddress decode mSensorData record = some stored := by
  -- both loops have stored the same after each sensor record
  have upTo : ∀ n ≤ flock.mNumSensors, ∃ stored : List M,
      stored.length = mSensorData.length ∧
      (List.range n).foldlM (fun mSensorData i => do
        let number ← flock.sensor_number record i
        flock.store decode record i number mSensorData) mSensorData = some stored ∧
      (List.range n).foldlM (fun mSensorData i => do
        let slot ← flock.assignedSlot record i
        flock.store decode record i slot mSensorData) mSensorData = some stored := by
    intro n small
    induction n with
    | zero => exact ⟨mSensorData, rfl, rfl, rfl⟩
    | succ n ih =>
      obtain ⟨before, same, first, second⟩ := ih (by omega)
      obtain ⟨slot, assigned, number, inside⟩ := slots n small
      obtain ⟨stored, here, keeps⟩ := store_eq decode (length (by omega)) small
        (by rwa [same, sized])
      refine ⟨stored, keeps.trans same, ?_, ?_⟩
      · rw [List.range_succ, List.foldlM_append, first]
        simp [number, here]
      · rw [List.range_succ, List.foldlM_append, second]
        simp [assigned, here]
  obtain ⟨stored, -, processed, byAddress⟩ := upTo flock.mNumSensors le_rfl
  exact ⟨stored, processed, byAddress⟩

end FlockStandalone

/-! ## All of it -/

section All

variable {report : FlockReport} {format : OutputFormat} {rate rate' : FlockReportRate}
  {reads rest : List Incoming} {flock : FlockStandalone} {record : List UInt8}

theorem sensors_le (report : FlockReport) : report.sensors ≤ 126 := by
  have count : report.sensors ≤ report.active.length := List.countP_le_length
  have length : report.active.length ≤ report.sysStatus.length :=
    (List.takeWhile_sublist _).length_le
  -- the greatest mode reports 126 units
  have most : report.sysStatus.length ≤ 126 := by
    rw [report.complete]
    cases report.mAddrMode <;> simp [AddressingMode.num_addrs]
  omega

theorem readInitial_iff (report : FlockReport) (format : OutputFormat) :
    (∃ flock, FlockStandalone.readInitialFlockConfiguration report format = some flock) ↔
      report.InTables := by
  by_cases alone : report.mMasterAddr = 0
  · exact (readInitial_standalone alone).1
  · exact (readInitial_group alone).1

/-- For one record: each sensor record has the slot that is meant just when they are
consecutive. -/
theorem slots_iff_consecutive
    (configured : FlockStandalone.readInitialFlockConfiguration report format = some flock)
    (length : 0 < flock.mNumSensors →
      record.length = flock.mNumSensors * flock.single_bird_data_size) :
    (∀ i < flock.mNumSensors, ∃ slot, flock.assignedSlot record i = some slot ∧
        flock.sensor_number record i = some slot) ↔ Consecutive report flock record := by
  by_cases alone : report.mMasterAddr = 0
  · obtain ⟨mode, -, -⟩ := (readInitial_standalone alone).2 flock configured
    refine iff_of_true (fun i _ => ⟨0, ?_, ?_⟩) fun group => absurd alone group
    · rw [FlockStandalone.assignedSlot, if_pos mode]
    · rw [FlockStandalone.sensor_number, if_pos mode]
  · obtain ⟨known, fits⟩ := (readInitial_group alone).2 flock configured
    have sensors : flock.mNumSensors = report.sensors := known.sensors
    have few := sensors_le report
    rw [FlockStandalone.slots_iff known fits (by omega) length, Consecutive, ← sensors]
    simp only [ne_eq, alone, not_false_eq_true, true_implies, sensorAt_succ]

/-- The slots that are meant are slots of the data. -/
theorem slot_inside
    (configured : FlockStandalone.readInitialFlockConfiguration report format = some flock)
    (consecutive : Consecutive report flock record) {i : Nat} (small : i < flock.mNumSensors)
    {slot : Int} (assigned : flock.assignedSlot record i = some slot) :
    0 ≤ slot ∧ slot < flock.mNumSensors := by
  by_cases alone : report.mMasterAddr = 0
  · obtain ⟨mode, -, one⟩ := (readInitial_standalone alone).2 flock configured
    rw [FlockStandalone.assignedSlot, if_pos mode] at assigned
    obtain rfl := Option.some.inj assigned
    omega
  · obtain ⟨known, fits⟩ := (readInitial_group alone).2 flock configured
    have sensors : flock.mNumSensors = report.sensors := known.sensors
    have few := sensors_le report
    have all : ∀ i < flock.mNumSensors, sensorAt report.active (i + 1) = true := by
      intro i small
      exact sensorAt_succ.mpr (consecutive alone i (sensors ▸ small)).1
    obtain ⟨⟨status, there, has⟩, here⟩ := consecutive alone i (sensors ▸ small)
    have address : (UInt8.ofNat (i + 1)).toNat = i + 1 := by
      rw [UInt8.toNat_ofNat']
      exact Nat.mod_eq_of_lt (by omega)
    rw [FlockStandalone.assignedSlot, if_neg known.group, here, Option.bind_some, address,
      known.slot (i + 1) (fits i status there has), slotAt_of_all all small] at assigned
    have slotEq : (i : Int) = slot := Option.some.inj (Option.filter_eq_some_iff.mp assigned).1
    omega

/-- The records reach the slots that are meant, within all tables, exactly when the configuration
fits its tables and, in group mode, the sensors are those of the first units and the sensor
records of what is read come in their order. -/
theorem right_iff_consecutive (report : FlockReport) (format : OutputFormat)
    (rate : FlockReportRate) (reads : List Incoming) :
    Right report format rate reads ↔ report.InTables ∧ ∀ flock record rate' rest,
      FlockStandalone.readInitialFlockConfiguration report format = some flock →
        flock.readRecord { mReportRate := rate } reads = .record record rate' rest →
          Consecutive report flock record := by
  -- what is read as a record has its phase bits and its length
  have sizes {flock : FlockStandalone}
      (configured : FlockStandalone.readInitialFlockConfiguration report format = some flock)
      {record : List UInt8} {rate' : FlockReportRate} {rest : List Incoming}
      (received : flock.readRecord { mReportRate := rate } reads = .record record rate' rest) :
      flock.Phased record ∧ (0 < flock.mNumSensors →
        record.length = flock.mNumSensors * flock.single_bird_data_size) := by
    have few : flock.mNumSensors ≤ 126 := by
      by_cases alone : report.mMasterAddr = 0
      · have one := ((readInitial_standalone alone).2 flock configured).2.2
        omega
      · have sensors := ((readInitial_group alone).2 flock configured).1.sensors
        exact sensors ▸ sensors_le report
    obtain ⟨positive, counted⟩ := FlockStandalone.firstRemaining_spec few
    have begun : flock.Begun ({ mReportRate := rate } : Sampling).reading := trivial
    obtain ⟨phased, length⟩ := FlockStandalone.readRecord_phased positive begun received
    exact ⟨phased, fun some' => length.trans (counted some')⟩
  constructor
  · rintro ⟨flock, configured, right⟩
    refine ⟨(readInitial_iff report format).mp ⟨flock, configured⟩, ?_⟩
    intro other record rate' rest same received
    obtain rfl := Option.some.inj (configured.symm.trans same)
    exact (slots_iff_consecutive configured (sizes configured received).2).mp
      (right record rate' rest received).2.1
  · rintro ⟨tables, ordered⟩
    obtain ⟨flock, configured⟩ := (readInitial_iff report format).mpr tables
    refine ⟨flock, configured, fun record rate' rest received => ?_⟩
    obtain ⟨phased, length⟩ := sizes configured received
    have consecutive := ordered flock record rate' rest configured received
    have slots := (slots_iff_consecutive configured length).mpr consecutive
    refine ⟨phased, slots, fun M decode mSensorData sized => ?_⟩
    have inside : ∀ i < flock.mNumSensors, ∃ slot, flock.assignedSlot record i = some slot ∧
        flock.sensor_number record i = some slot ∧ 0 ≤ slot ∧ slot < flock.mNumSensors := by
      intro i small
      obtain ⟨slot, assigned, number⟩ := slots i small
      exact ⟨slot, assigned, number, slot_inside configured consecutive small assigned⟩
    obtain ⟨stored, processed, byAddress⟩ :=
      FlockStandalone.stored_of_slots decode sized length inside
    refine ⟨stored, ?_, byAddress⟩
    unfold FlockStandalone.sample
    rw [received]
    dsimp only
    rw [processed]

end All

/-- A transmitter without a sensor at the first address and a sensor at the second. -/
def transmitterFirst : FlockReport where
  mAddrMode := .NormalAddressing
  mMasterAddr := 1
  sysStatus := [0xC1, 0xE0] ++ List.replicate 12 0

/-- Its position, with the address 2. -/
def secondPosition : List Incoming := [0x80, 0, 0, 0, 0, 0, 2].map .byte

/-- The address is replaced by that of the transmitter, which has no slot. -/
theorem address_replaced :
    ∃ flock ∈ FlockStandalone.readInitialFlockConfiguration transmitterFirst .Position,
      flock.assignedSlot [0x80, 0, 0, 0, 0, 0, 2] 0 = some 0 ∧
        flock.sensor_number [0x80, 0, 0, 0, 0, 0, 2] 0 = some (-1) ∧
        flock.readRecord { mReportRate := .MaxRate } secondPosition =
          .record [0x80, 0, 0, 0, 0, 0, 2] .MaxRate [] ∧
        flock.processDataRecord (fun _ => ()) [()] [0x80, 0, 0, 0, 0, 0, 2] = none := by
  decide

/-- Fourteen units with sensors: the last address has no place in the map. -/
example : FlockStandalone.readInitialFlockConfiguration
    { mAddrMode := .NormalAddressing, mMasterAddr := 1, sysStatus := List.replicate 14 0xE0 }
    .Position = none := by
  decide

end VRJuggler.Gadget.Flock
