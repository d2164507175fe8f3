import Mathlib.Data.Nat.Bitwise
import Mathlib.Data.List.Range
import VRJuggler.Base.Throwing

/-!
# The records of the gloves and of the Fastrak

A record of the pinch gloves is what stands between a start byte and the end byte: pairs of bytes,
one for each hand, and with time stamps two bytes more. The Fastrak answers with a record of a fixed
length for each active station.

The reads of the serial port come byte by byte; how many bytes a single read returns makes no
difference. When none are left the read times out. The sizes of the buffers have no bound.
-/
namespace VRJuggler.Gadget.Serial

/-- What a read of the port does: it returns a byte or it throws. -/
inductive Incoming where
  | byte (b : UInt8)
  | wouldBlock
  | failure
  deriving DecidableEq

/-- How the reads of a record end, with the reads that are left. -/
inductive Received where
  | failed (rest : List Incoming)
  | record (bytes : List UInt8) (rest : List Incoming)
  deriving DecidableEq

/-! ## The pinch gloves -/

structure PinchGloveStandalone where
  mTimeStampsOn : Bool := true

namespace PinchGloveStandalone

def START_BYTE_DATA : UInt8 := 0x80

def START_BYTE_DATA_TS : UInt8 := 0x81

def END_BYTE : UInt8 := 0x8F

/-- The bytes until the end byte. -/
def readResult (result : List UInt8) : List Incoming → Received
  | .byte temp_byte :: rest =>
    if temp_byte = END_BYTE then .record result rest else readResult (result ++ [temp_byte]) rest
  | _ :: rest => .failed rest
  | [] => .failed []

def readData (data_type : UInt8) : List Incoming → Received
  | .byte temp_byte :: rest =>
    if temp_byte = data_type then readResult [] rest else readData data_type rest
  | _ :: rest => .failed rest
  | [] => .failed []

/-- The bit of a finger in the byte of its hand. -/
def fingerBit (byte : UInt8) (finger : Nat) : Nat := (byte.toNat &&& 2 ^ finger) >>> finger

/-- `data[k] |= bit` -/
def orInto (data : List Nat) (k bit : Nat) : Option (List Nat) := do
  let old ← data[k]?
  some (data.set k (old ||| bit))

/-- The left hand is 0, the right hand is 1. -/
def pinchHand (byte : UInt8) (hand : Nat) (data : List Nat) : Option (List Nat) :=
  (List.range 5).foldlM (fun data finger => orInto data (5 * hand + finger) (fingerBit byte finger))
    data

def pinchPair (input_data : List UInt8) (data : List Nat) (i : Nat) : Option (List Nat) := do
  let left ← input_data[i]?
  let data ← pinchHand left 0 data
  let right ← input_data[i + 1]?
  pinchHand right 1 data

/-- The loop with `i += 2`. -/
def pinchFingers (input_data : List UInt8) (num_pinch_bytes : Int) (data : List Nat) :
    Option (List Nat) :=
  (List.range ((num_pinch_bytes + 1) / 2).toNat).foldlM
    (fun data half => pinchPair input_data data (2 * half)) data

/-- The bytes at the size of the data and before it. -/
def readTimestamp (input_data : List UInt8) : Option Int := do
  let high ← input_data[input_data.length]?
  let low ← input_data[input_data.length - 1]?
  some ((high.toNat <<< 7 ||| low.toNat : Nat) : Int)

variable (glove : PinchGloveStandalone)

def data_type : UInt8 := if glove.mTimeStampsOn then START_BYTE_DATA_TS else START_BYTE_DATA

/-- How a sample ends. `undefined`: an index out of its vector. -/
inductive Sampled where
  | timeout (rest : List Incoming)
  | undefined
  | sampled (data : List Nat) (timestamp : Int) (rest : List Incoming)
  deriving DecidableEq

def parse (input_data : List UInt8) (data : List Nat) : Option (List Nat × Int) :=
  if glove.mTimeStampsOn then do
    let timestamp ← readTimestamp input_data
    let data ← pinchFingers input_data (input_data.length - 2) data
    some (data, timestamp)
  else do
    let data ← pinchFingers input_data input_data.length data
    some (data, -1)

def sample (data : List Nat) (reads : List Incoming) : Sampled :=
  match readData glove.data_type reads with
  | .failed rest => .timeout rest
  | .record input_data rest =>
    match glove.parse input_data data with
    | none => .undefined
    | some (data, timestamp) => .sampled data timestamp rest

/-! ### What a record says -/

/-- What is read begins with the bytes, then comes the first stop byte. -/
def Through (stop : UInt8) (bytes : List UInt8) (reads rest : List Incoming) : Prop :=
  stop ∉ bytes ∧ reads = bytes.map .byte ++ .byte stop :: rest

/-- The first record in the stream. -/
def Carries (data_type : UInt8) (record : List UInt8) (reads rest : List Incoming) : Prop :=
  ∃ started, (∃ before, Through data_type before reads started) ∧
    Through END_BYTE record started rest

/-- Some byte of the hand has the bit of the finger. -/
def pinched (pinch_bytes : List UInt8) (hand finger : Nat) : Bool :=
  pinch_bytes.zipIdx.any fun (byte, i) => i % 2 = hand && byte.toNat.testBit finger

/-- Five fingers for each hand. -/
def withPinched (pinch_bytes : List UInt8) (data : List Nat) : List Nat :=
  data.mapIdx fun k old => old ||| (pinched pinch_bytes (k / 5) (k % 5)).toNat

/-- The pinch bytes and the time stamp of a record. The time stamp is in the last two bytes, seven
bits in each, and is -1 if there is none. -/
def Says (record pinch_bytes : List UInt8) (timestamp : Int) : Prop :=
  if glove.mTimeStampsOn then
    ∃ low high : UInt8, record = pinch_bytes ++ [low, high] ∧
      timestamp = (high.toNat <<< 7 ||| low.toNat : Nat)
  else record = pinch_bytes ∧ timestamp = -1

/-- Without a record the sample times out; what a record says is what it returns, for every value
of the ten fingers before. -/
def Right (reads : List Incoming) : Prop :=
  (∀ record rest, Carries glove.data_type record reads rest →
    ∃ pinch_bytes timestamp, glove.Says record pinch_bytes timestamp ∧
      ∀ data : List Nat, data.length = 10 →
        glove.sample data reads = .sampled (withPinched pinch_bytes data) timestamp rest) ∧
  ((¬ ∃ record rest, Carries glove.data_type record reads rest) →
    ∃ rest, ∀ data, glove.sample data reads = .timeout rest)

/-! ### Reading -/

section Reading

variable {data_type stop : UInt8} {bytes result record : List UInt8} {x : Incoming}
  {reads rest : List Incoming}

theorem not_through_nil : ¬ Through stop bytes [] rest := by
  simp [Through]

theorem through_cons :
    Through stop bytes (x :: reads) rest ↔ (x = .byte stop ∧ bytes = [] ∧ reads = rest) ∨
      ∃ b more, b ≠ stop ∧ x = .byte b ∧ bytes = b :: more ∧ Through stop more reads rest := by
  unfold Through
  constructor
  · rintro ⟨clean, same⟩
    cases bytes with
    | nil =>
      obtain ⟨rfl, rfl⟩ : x = .byte stop ∧ reads = rest := by simpa using same
      exact .inl ⟨rfl, rfl, rfl⟩
    | cons b more =>
      obtain ⟨rfl, later⟩ : x = .byte b ∧ reads = more.map .byte ++ .byte stop :: rest := by
        simpa using same
      obtain ⟨other, clean⟩ : stop ≠ b ∧ stop ∉ more := by simpa using clean
      exact .inr ⟨b, more, other.symm, rfl, rfl, clean, later⟩
  · rintro (⟨rfl, rfl, rfl⟩ | ⟨b, more, other, rfl, rfl, clean, rfl⟩)
    · simp
    · simp [clean, other.symm]

theorem readResult_eq_record :
    readResult result reads = .record record rest ↔
      ∃ more, record = result ++ more ∧ Through END_BYTE more reads rest := by
  induction reads generalizing result with
  | nil => simp [readResult, not_through_nil]
  | cons x reads ih =>
    simp only [through_cons]
    cases x with
    | byte temp_byte =>
      rw [readResult]
      split
      next ended =>
        subst ended
        simp [eq_comm]
      next other =>
        rw [ih]
        simp [other]
    | wouldBlock => simp [readResult]
    | failure => simp [readResult]

theorem readData_eq_record :
    readData data_type reads = .record record rest ↔ Carries data_type record reads rest := by
  unfold Carries
  induction reads with
  | nil => simp [readData, not_through_nil]
  | cons x reads ih =>
    simp only [through_cons]
    cases x with
    | byte temp_byte =>
      rw [readData]
      split
      next started =>
        subst started
        rw [readResult_eq_record]
        simp
      next other =>
        rw [ih]
        simp [other]
    | wouldBlock => simp [readData]
    | failure => simp [readData]

end Reading

/-! ### The fingers -/

section Fingers

variable {input_data pinch_bytes : List UInt8} {data : List Nat} {byte left right : UInt8}

theorem fingerBit_eq (byte : UInt8) (finger : Nat) :
    fingerBit byte finger = (byte.toNat.testBit finger).toNat := by
  rw [fingerBit, Nat.and_two_pow, Nat.shiftRight_eq_div_pow]
  exact Nat.mul_div_cancel _ (Nat.two_pow_pos finger)

/-- A hand has five of the ten values. -/
theorem pinchHand_eq {hand : Nat} (known : hand < 2) (ten : data.length = 10) :
    pinchHand byte hand data = some (data.mapIdx fun k old =>
      if k / 5 = hand then old ||| (byte.toNat.testBit (k % 5)).toNat else old) := by
  -- the fingers of the hand one after the other
  have upTo : ∀ n ≤ 5, (List.range n).foldlM
      (fun data finger => orInto data (5 * hand + finger) (fingerBit byte finger)) data =
      some (data.mapIdx fun k old =>
        if k / 5 = hand ∧ k % 5 < n then old ||| (byte.toNat.testBit (k % 5)).toNat else old) := by
    intro n small
    induction n with
    | zero => simp [List.mapIdx_eq_zipIdx_map]
    | succ n ih =>
      rw [List.range_succ, List.foldlM_append, ih (by omega)]
      have inside : 5 * hand + n < data.length := by omega
      have here : (5 * hand + n) / 5 = hand ∧ (5 * hand + n) % 5 = n := by omega
      simp only [Option.bind_eq_bind, Option.bind_some, List.foldlM_cons, List.foldlM_nil, orInto,
        List.getElem?_mapIdx, List.getElem?_eq_getElem inside, Option.map_some, fingerBit_eq, here,
        true_and, lt_irrefl, if_false]
      refine congrArg some (List.ext_getElem? fun k => ?_)
      rw [List.getElem?_set, List.length_mapIdx, List.getElem?_mapIdx, List.getElem?_mapIdx]
      -- only the value of this finger changes
      by_cases same : 5 * hand + n = k
      · subst same
        simp [inside, here]
      · have other : k / 5 = hand → (k % 5 < n + 1 ↔ k % 5 < n) := by omega
        rw [if_neg same]
        refine congrArg (Option.map · data[k]?) (funext fun old => ?_)
        by_cases hand : k / 5 = hand
        · simp [hand, other hand]
        · simp [hand]
  rw [pinchHand, upTo 5 le_rfl]
  simp [Nat.mod_lt]

theorem pinched_append_pair (even : pinch_bytes.length % 2 = 0) {hand finger : Nat} :
    pinched (pinch_bytes ++ [left, right]) hand finger =
      (pinched pinch_bytes hand finger || (hand = 0 && left.toNat.testBit finger) ||
        (hand = 1 && right.toNat.testBit finger)) := by
  unfold pinched
  have next : (pinch_bytes.length + 1) % 2 = 1 := by omega
  rw [List.zipIdx_append]
  simp [even, next, eq_comm, Bool.or_assoc]

theorem or_toNat (a b : Bool) : (a || b).toNat = a.toNat ||| b.toNat := by
  cases a <;> cases b <;> rfl

theorem withPinched_nil (data : List Nat) : withPinched [] data = data := by
  simp [withPinched, pinched, List.mapIdx_eq_zipIdx_map]

/-- The two bytes of a pair: the first is that of the left hand. -/
theorem pinchPair_eq {i : Nat} (ten : data.length = 10) (first : input_data[i]? = some left)
    (second : input_data[i + 1]? = some right) (even : pinch_bytes.length % 2 = 0) :
    pinchPair input_data (withPinched pinch_bytes data) i =
      some (withPinched (pinch_bytes ++ [left, right]) data) := by
  have length (bytes : List UInt8) : (withPinched bytes data).length = 10 := by
    simp [withPinched, ten]
  rw [pinchPair, first, second, Option.bind_eq_bind, Option.bind_some,
    pinchHand_eq (by omega) (length _)]
  simp only [Option.bind_eq_bind, Option.bind_some]
  rw [pinchHand_eq (by omega) (by simp [length])]
  refine congrArg some (List.ext_getElem? fun k => ?_)
  simp only [withPinched, List.getElem?_mapIdx, Option.map_map]
  rcases Nat.lt_or_ge k 10 with small | large
  · refine congrArg (Option.map · data[k]?) (funext fun old => ?_)
    rw [pinched_append_pair even]
    have hand : k / 5 = 0 ∨ k / 5 = 1 := by omega
    -- the first byte counts for the left hand only, the second one for the right hand
    rcases hand with hand | hand
    · simp only [hand, Function.comp_apply]
      simp [Nat.or_assoc, or_toNat]
    · simp only [hand, Function.comp_apply]
      simp [Nat.or_assoc, or_toNat]
  · rw [List.getElem?_eq_none (by omega)]
    simp

/-- With a pair for each pass, the loop finds all that is pinched. -/
theorem pinchFingers_eq {pairs : Nat} (ten : data.length = 10)
    (inside : 2 * pairs ≤ input_data.length) :
    (List.range pairs).foldlM (fun data half => pinchPair input_data data (2 * half)) data =
      some (withPinched (input_data.take (2 * pairs)) data) := by
  induction pairs with
  | zero => simp [withPinched_nil]
  | succ pairs ih =>
    have first : input_data[2 * pairs]? = some input_data[2 * pairs] :=
      List.getElem?_eq_getElem _
    have second : input_data[2 * pairs + 1]? = some input_data[2 * pairs + 1] :=
      List.getElem?_eq_getElem _
    have length : (input_data.take (2 * pairs)).length = 2 * pairs :=
      List.length_take_of_le (by omega)
    have taken : input_data.take (2 * (pairs + 1)) =
        input_data.take (2 * pairs) ++ [input_data[2 * pairs], input_data[2 * pairs + 1]] := by
      rw [show 2 * (pairs + 1) = 2 * pairs + 1 + 1 by omega, List.take_add_one, List.take_add_one,
        first, second, Option.toList_some, Option.toList_some, List.append_assoc]
      rfl
    -- the last pass adds its pair to the bytes before it
    rw [List.range_succ, List.foldlM_append, ih (by omega), taken]
    simp only [Option.bind_eq_bind, Option.bind_some, List.foldlM_cons, List.foldlM_nil]
    rw [pinchPair_eq ten first second (by omega)]
    rfl

/-- An odd byte has no second byte behind it. -/
theorem pinchFingers_of_odd {pairs : Nat} (odd : input_data.length = 2 * pairs + 1) :
    (List.range (pairs + 1)).foldlM (fun data half => pinchPair input_data data (2 * half)) data =
      none := by
  have missing (data : List Nat) : pinchPair input_data data (2 * pairs) = none := by
    unfold pinchPair
    rw [List.getElem?_eq_none (i := 2 * pairs + 1) (by omega)]
    simp
  -- whatever the values are by then, the last pass is undefined
  rw [List.range_succ, List.foldlM_append]
  simp [missing]

end Fingers

/-! ### The gloves -/

section Gloves

variable {glove : PinchGloveStandalone} {record : List UInt8} {reads rest : List Incoming}

/-- The byte at the size of the data does not exist. -/
theorem readTimestamp_eq (input_data : List UInt8) : readTimestamp input_data = none := by
  unfold readTimestamp
  rw [List.getElem?_eq_none le_rfl]
  rfl

theorem parse_timeStamps (on : glove.mTimeStampsOn = true) (data : List Nat) :
    glove.parse record data = none := by
  rw [parse, if_pos on, readTimestamp_eq]
  rfl

theorem parse_even {data : List Nat} (off : glove.mTimeStampsOn = false)
    (ten : data.length = 10) (even : record.length % 2 = 0) :
    glove.parse record data = some (withPinched record data, -1) := by
  have passes : (((record.length : Int) + 1) / 2).toNat = record.length / 2 := by omega
  have all : record.take (2 * (record.length / 2)) = record := List.take_of_length_le (by omega)
  have fingers := pinchFingers_eq ten (Nat.mul_div_le record.length 2)
  -- the passes go over all bytes
  rw [all, ← passes] at fingers
  rw [parse, if_neg (by simp [off]), pinchFingers, fingers]
  rfl

theorem parse_odd (off : glove.mTimeStampsOn = false) (odd : record.length % 2 = 1)
    (data : List Nat) : glove.parse record data = none := by
  have passes : (((record.length : Int) + 1) / 2).toNat = record.length / 2 + 1 := by omega
  rw [parse, if_neg (by simp [off]), pinchFingers, passes, pinchFingers_of_odd (by omega)]
  rfl

theorem sample_record (carried : Carries glove.data_type record reads rest) (data : List Nat) :
    glove.sample data reads = match glove.parse record data with
      | none => .undefined
      | some (data, timestamp) => .sampled data timestamp rest := by
  rw [sample, readData_eq_record.mpr carried]

theorem sample_timeout (quiet : ¬ ∃ record rest, Carries glove.data_type record reads rest) :
    ∃ rest, ∀ data, glove.sample data reads = .timeout rest := by
  cases received : readData glove.data_type reads with
  | failed rest =>
    refine ⟨rest, fun data => ?_⟩
    rw [sample, received]
  | record record rest => exact absurd ⟨record, rest, readData_eq_record.mp received⟩ quiet

/-- The gloves are read as they should be exactly when the stream has no record, or the time stamps
are off and the record has an even number of bytes. -/
theorem right_iff_even (glove : PinchGloveStandalone) (reads : List Incoming) :
    glove.Right reads ↔ ∀ record rest, Carries glove.data_type record reads rest →
      glove.mTimeStampsOn = false ∧ record.length % 2 = 0 := by
  constructor
  · rintro ⟨right, -⟩ record rest carried
    obtain ⟨pinch_bytes, timestamp, -, sampled⟩ := right record rest carried
    -- a sample that returns has parsed its record
    have defined : glove.parse record (List.replicate 10 0) ≠ none := by
      intro undefined
      have sampled := sampled (List.replicate 10 0) List.length_replicate
      rw [sample_record carried, undefined] at sampled
      cases sampled
    have off : glove.mTimeStampsOn = false := by
      by_contra on
      exact defined (parse_timeStamps (by simpa using on) _)
    refine ⟨off, ?_⟩
    by_contra odd
    exact defined (parse_odd off (by omega) _)
  · intro fits
    refine ⟨fun record rest carried => ?_, sample_timeout⟩
    obtain ⟨off, even⟩ := fits record rest carried
    refine ⟨record, -1, ?_, fun data ten => ?_⟩
    · rw [Says, if_neg (by simp [off])]
      exact ⟨rfl, rfl⟩
    · rw [sample_record carried, parse_even off ten even]

end Gloves

end PinchGloveStandalone

/-! ## The Fastrak -/

inductive UNITS where
  | INCHES
  | CENTIMETERS
  deriving DecidableEq

/-- `M`: the matrices. -/
structure FastrakStandalone (M : Type) where
  mStationStatus : Vector Bool 4
  mUnits : UNITS
  mStationData : Vector M 4
  deriving DecidableEq

namespace FastrakStandalone

/-- Why a record is not processed: an index out of its vector, or an exception. -/
inductive Fault where
  | undefined
  | bad_lexical_cast
  deriving DecidableEq

variable {M : Type} (fastrak : FastrakStandalone M)

def mNumActiveStations : Nat := fastrak.mStationStatus.toList.count true

/-- The data and five bytes more. -/
def single_bird_data_size : Nat := 28 + 5

/-- The reads until no bytes remain. -/
def readBytes : Nat → List UInt8 → List Incoming → Received
  | 0, data_record, reads => .record data_record reads
  | _ + 1, _, [] => .failed []
  | bytes_remaining + 1, data_record, x :: rest =>
    match x with
    | .byte b => readBytes bytes_remaining (data_record ++ [b]) rest
    | .wouldBlock => readBytes (bytes_remaining + 1) data_record rest
    | .failure => .failed rest

def readData (reads : List Incoming) : Received :=
  readBytes (fastrak.mNumActiveStations * single_bird_data_size) [] reads

/-- One digit; a `vpr::Uint8` is a character. -/
def lexical_cast (byte : UInt8) : Except Fault Nat :=
  if 0x30 ≤ byte.toNat ∧ byte.toNat ≤ 0x39 then .ok (byte.toNat - 0x30)
  else .error .bad_lexical_cast

/-- What the loop does for the record at a place. `matrix`: the matrix of seven numbers. -/
def processStation (matrix : UNITS → List UInt8 → M) (dataRecord : List UInt8)
    (fastrak : FastrakStandalone M) (i : Nat) : Except Fault (FastrakStandalone M) :=
  let data_offset := single_bird_data_size * i
  match dataRecord[data_offset + 1]? with
  | none => .error .undefined
  | some digit =>
    match lexical_cast digit with
    | .error fault => .error fault
    | .ok station_index =>
      if data_offset + 3 + 28 ≤ dataRecord.length then
        -- stations count from 1, the slots from 0
        if inside : station_index < 4 then
          let position := matrix fastrak.mUnits ((dataRecord.drop (data_offset + 3)).take 28)
          .ok { fastrak with
            mStationData := fastrak.mStationData.set station_index position inside }
        else .error .undefined
      else .error .undefined

/-- The first passes of the loop. -/
def processStations (matrix : UNITS → List UInt8 → M) (dataRecord : List UInt8) (stations : Nat) :
    Except Fault (FastrakStandalone M) :=
  (List.range stations).foldlM (processStation matrix dataRecord) fastrak

def processDataRecord (matrix : UNITS → List UInt8 → M) (dataRecord : List UInt8) :
    Except Fault (FastrakStandalone M) :=
  fastrak.processStations matrix dataRecord fastrak.mNumActiveStations

def getStationPosition (station : Nat) : Option M := fastrak.mStationData[station]?

/-! ### What a record says -/

/-- The number of the station in the record at a place. -/
def stationAt (dataRecord : List UInt8) (i : Nat) : Option Nat := do
  let digit ← dataRecord[single_bird_data_size * i + 1]?
  (lexical_cast digit).toOption

/-- The position in the record at a place. -/
def positionAt (matrix : UNITS → List UInt8 → M) (units : UNITS) (dataRecord : List UInt8)
    (i : Nat) : M :=
  matrix units ((dataRecord.drop (single_bird_data_size * i + 3)).take 28)

/-- The place of the last record of the station. -/
def lastOf (dataRecord : List UInt8) (stations station : Nat) : Option Nat :=
  (List.range stations).reverse.find? (stationAt dataRecord · = some station)

/-- All accesses are within the vectors; and if the records are those of stations 1 to 4, the
position of each of these is the one of its last record, or as before if it has none. -/
def Right (matrix : UNITS → List UInt8 → M) (reads : List Incoming) : Prop :=
  ∀ dataRecord rest, fastrak.readData reads = .record dataRecord rest →
    fastrak.processDataRecord matrix dataRecord ≠ .error .undefined ∧
    ((∀ i < fastrak.mNumActiveStations, ∃ station,
        stationAt dataRecord i = some station ∧ 1 ≤ station ∧ station ≤ 4) →
      ∃ after, fastrak.processDataRecord matrix dataRecord = .ok after ∧
        ∀ station, 1 ≤ station → station ≤ 4 → after.getStationPosition station =
          match lastOf dataRecord fastrak.mNumActiveStations station with
          | some i => some (positionAt matrix fastrak.mUnits dataRecord i)
          | none => fastrak.getStationPosition station)

/-- No record is that of a station 4 or more, as far as the records are processed. -/
def BelowFour (dataRecord : List UInt8) (stations : Nat) : Prop :=
  ∀ i < stations, (∀ j < i, ∃ station < 4, stationAt dataRecord j = some station) →
    ∀ station, stationAt dataRecord i = some station → station < 4

/-! ### Processing -/

section Processing

variable {matrix : UNITS → List UInt8 → M} {fastrak : FastrakStandalone M}
  {dataRecord : List UInt8} {reads rest : List Incoming}

theorem readBytes_length {bytes_remaining : Nat} {data_record : List UInt8}
    (received : readBytes bytes_remaining data_record reads = .record dataRecord rest) :
    dataRecord.length = data_record.length + bytes_remaining := by
  induction reads generalizing bytes_remaining data_record with
  | nil =>
    cases bytes_remaining with
    | zero =>
      obtain ⟨rfl, -⟩ := Received.record.inj received
      rfl
    | succ bytes_remaining => cases received
  | cons x reads ih =>
    cases bytes_remaining with
    | zero =>
      obtain ⟨rfl, -⟩ := Received.record.inj received
      rfl
    | succ bytes_remaining =>
      cases x with
      | byte b =>
        -- a byte that comes is one byte less to wait for
        have length := ih received
        rw [List.length_append, List.length_singleton] at length
        omega
      | wouldBlock => exact ih received
      | failure => cases received

theorem readData_length (received : fastrak.readData reads = .record dataRecord rest) :
    dataRecord.length = fastrak.mNumActiveStations * single_bird_data_size := by
  simpa using readBytes_length received

/-- The record at a place, by its station. -/
theorem processStation_eq {i : Nat}
    (inside : single_bird_data_size * (i + 1) ≤ dataRecord.length) :
    processStation matrix dataRecord fastrak i =
      match stationAt dataRecord i with
      | none => .error .bad_lexical_cast
      | some station =>
        if small : station < 4 then
          .ok { fastrak with
            mStationData := fastrak.mStationData.set station
              (positionAt matrix fastrak.mUnits dataRecord i) small }
        else .error .undefined := by
  have whole : single_bird_data_size * i + 33 ≤ dataRecord.length := inside
  have digit := List.getElem?_eq_getElem (l := dataRecord) (i := single_bird_data_size * i + 1)
    (by omega)
  unfold processStation stationAt
  dsimp only
  rw [digit, Option.bind_eq_bind, Option.bind_some]
  dsimp only
  cases cast : lexical_cast dataRecord[single_bird_data_size * i + 1] with
  | error fault =>
    -- what is no digit has no number
    have bad : fault = .bad_lexical_cast := by
      unfold lexical_cast at cast
      split at cast
      · cases cast
      · exact (Except.error.inj cast).symm
    rw [bad]
    rfl
  | ok station =>
    dsimp only [Except.toOption]
    rw [if_pos (by omega)]
    rfl

theorem processStations_succ (stations : Nat) :
    fastrak.processStations matrix dataRecord (stations + 1) =
      fastrak.processStations matrix dataRecord stations >>= fun before =>
        processStation matrix dataRecord before stations := by
  rw [processStations, processStations, List.range_succ, List.foldlM_append]
  simp

theorem lastOf_succ (dataRecord : List UInt8) (stations station : Nat) :
    lastOf dataRecord (stations + 1) station =
      if stationAt dataRecord stations = some station then some stations
      else lastOf dataRecord stations station := by
  unfold lastOf
  rw [List.range_succ, List.reverse_append, List.reverse_singleton, List.singleton_append,
    List.find?_cons]
  by_cases same : stationAt dataRecord stations = some station
  · simp [same]
  · simp [same]

/-- Below station 4 each record is stored, and the last one of a station remains. -/
theorem processStations_ok (matrix : UNITS → List UInt8 → M) (fastrak : FastrakStandalone M)
    {stations : Nat}
    (inside : single_bird_data_size * stations ≤ dataRecord.length)
    (below : ∀ j < stations, ∃ station < 4, stationAt dataRecord j = some station) :
    ∃ after, fastrak.processStations matrix dataRecord stations = .ok after ∧
      after.mUnits = fastrak.mUnits ∧ ∀ station, after.mStationData[station]? =
        match lastOf dataRecord stations station with
        | some i => some (positionAt matrix fastrak.mUnits dataRecord i)
        | none => fastrak.mStationData[station]? := by
  induction stations with
  | zero => exact ⟨fastrak, rfl, rfl, fun station => rfl⟩
  | succ stations ih =>
    have shorter : single_bird_data_size * stations ≤ dataRecord.length :=
      (Nat.mul_le_mul_left _ (Nat.le_succ stations)).trans inside
    obtain ⟨before, processed, units, stored⟩ :=
      ih shorter fun j small => below j (by omega)
    obtain ⟨here, small, number⟩ := below stations (Nat.lt_succ_self _)
    rw [processStations_succ, processed, except_ok_bind, processStation_eq inside, number]
    dsimp only
    rw [dif_pos small]
    refine ⟨_, rfl, units, fun station => ?_⟩
    rw [lastOf_succ, number]
    -- this record replaces an earlier one of its station
    by_cases same : here = station
    · subst same
      simp [units, small]
    · rw [if_neg (by simpa using same), ← stored station]
      exact Vector.getElem?_set_ne small same

/-- An error ends the loop. -/
theorem processStations_error {fault : Fault} {i stations : Nat} (later : i ≤ stations)
    (failed : fastrak.processStations matrix dataRecord i = .error fault) :
    fastrak.processStations matrix dataRecord stations = .error fault := by
  induction stations, later using Nat.le_induction with
  | base => exact failed
  | succ stations later ih =>
    rw [processStations_succ, ih]
    rfl

/-- The record that ends the loop comes after records below station 4. -/
theorem processStations_stops {i stations : Nat} (small : i < stations)
    (inside : single_bird_data_size * stations ≤ dataRecord.length)
    (below : ∀ j < i, ∃ station < 4, stationAt dataRecord j = some station)
    (other : ¬ ∃ station < 4, stationAt dataRecord i = some station) :
    fastrak.processStations matrix dataRecord stations =
      .error (if stationAt dataRecord i = none then .bad_lexical_cast else .undefined) := by
  have first : single_bird_data_size * (i + 1) ≤ dataRecord.length :=
    (Nat.mul_le_mul_left _ small).trans inside
  obtain ⟨before, processed, -, -⟩ := processStations_ok matrix fastrak
    ((Nat.mul_le_mul_left _ (Nat.le_succ i)).trans first) below
  -- the records before it are stored, and then the loop ends
  apply processStations_error small
  rw [processStations_succ, processed, except_ok_bind, processStation_eq first]
  cases number : stationAt dataRecord i with
  | none => rfl
  | some station =>
    have large : ¬ station < 4 := fun small => other ⟨station, small, number⟩
    dsimp only
    rw [dif_neg large]
    rfl

/-- All accesses are within the vectors exactly below station 4. -/
theorem processStations_defined_iff (matrix : UNITS → List UInt8 → M)
    (fastrak : FastrakStandalone M) {stations : Nat}
    (inside : single_bird_data_size * stations ≤ dataRecord.length) :
    fastrak.processStations matrix dataRecord stations ≠ .error .undefined ↔
      BelowFour dataRecord stations := by
  constructor
  · intro defined i small below station number
    by_contra large
    apply defined
    rw [processStations_stops small inside below, number]
    · rfl
    · rintro ⟨other, fits, same⟩
      obtain rfl := Option.some.inj (number.symm.trans same)
      exact large fits
  · intro four
    by_cases all : ∀ j < stations, ∃ station < 4, stationAt dataRecord j = some station
    · obtain ⟨after, processed, -, -⟩ :=
        processStations_ok matrix fastrak inside all
      rw [processed]
      simp
    · -- the first record that is not below station 4 has no number
      push Not at all
      obtain ⟨small, other⟩ := Nat.find_spec all
      have below : ∀ j < Nat.find all, ∃ station < 4, stationAt dataRecord j = some station := by
        intro j before
        have fits := Nat.find_min all before
        push Not at fits
        exact fits (before.trans small)
      have missing : stationAt dataRecord (Nat.find all) = none := by
        by_contra some'
        obtain ⟨station, number⟩ := Option.ne_none_iff_exists'.mp some'
        exact other station (four _ small below station number) number
      rw [processStations_stops small inside below (by simpa using other), if_pos missing]
      simp

end Processing

/-- The positions are where they should be exactly when no record is that of station 4. -/
theorem right_iff_below (matrix : UNITS → List UInt8 → M) (fastrak : FastrakStandalone M)
    (reads : List Incoming) :
    fastrak.Right matrix reads ↔ ∀ dataRecord rest,
      fastrak.readData reads = .record dataRecord rest →
        BelowFour dataRecord fastrak.mNumActiveStations := by
  refine forall₃_congr fun dataRecord rest received => ?_
  have inside : single_bird_data_size * fastrak.mNumActiveStations ≤ dataRecord.length := by
    rw [readData_length received, Nat.mul_comm]
  rw [← processStations_defined_iff matrix fastrak inside]
  refine and_iff_left_of_imp fun defined known => ?_
  have four := (processStations_defined_iff matrix fastrak inside).mp defined
  -- the records before a record are below station 4, so this one is too
  have below : ∀ i < fastrak.mNumActiveStations,
      ∃ station < 4, stationAt dataRecord i = some station := by
    intro i
    induction i using Nat.strong_induction_on with
    | _ i ih =>
      intro small
      obtain ⟨station, number, -, -⟩ := known i small
      exact ⟨station, four i small (fun j before => ih j before (before.trans small)) station
        number, number⟩
  obtain ⟨after, processed, -, stored⟩ := processStations_ok matrix fastrak inside below
  exact ⟨after, processed, fun station _ _ => stored station⟩

end FastrakStandalone

/-! ## Both devices -/

/-- The gloves are read as they should be exactly if no record has a time stamp or an odd number of
bytes, the Fastrak exactly if no record is that of a station 4 or more. -/
theorem decoded_iff {M : Type} (matrix : UNITS → List UInt8 → M) (glove : PinchGloveStandalone)
    (fastrak : FastrakStandalone M) (reads answer : List Incoming) :
    (glove.Right reads ↔ ∀ record rest,
      PinchGloveStandalone.Carries glove.data_type record reads rest →
        glove.mTimeStampsOn = false ∧ record.length % 2 = 0) ∧
    (fastrak.Right matrix answer ↔ ∀ dataRecord rest,
      fastrak.readData answer = .record dataRecord rest →
        FastrakStandalone.BelowFour dataRecord fastrak.mNumActiveStations) :=
  ⟨glove.right_iff_even reads, FastrakStandalone.right_iff_below matrix fastrak answer⟩

/-- A pinch with a time stamp. -/
def stamped : List Incoming := [0x81, 0x01, 0x01, 0x05, 0x00, 0x8F].map .byte

/-- The byte of one hand only. -/
def oneHand : List Incoming := [0x80, 0x01, 0x8F].map .byte

/-- Only the fourth station is active. -/
def fourthStation : FastrakStandalone Unit where
  mStationStatus := #v[false, false, false, true]
  mUnits := .CENTIMETERS
  mStationData := #v[(), (), (), ()]

/-- Its record, with nothing but zeros in the data. -/
def fourthRecord : List UInt8 := [0x30, 0x34, 0x20] ++ List.replicate 30 0

/-- The time stamp is read behind the data, the byte of the missing hand too, and the data of the
fourth station have no slot. -/
theorem indices_out_of_bounds :
    ¬ PinchGloveStandalone.Right { mTimeStampsOn := true } stamped ∧
    ¬ PinchGloveStandalone.Right { mTimeStampsOn := false } oneHand ∧
    ¬ fourthStation.Right (fun _ _ => ()) (fourthRecord.map .byte) := by
  refine ⟨fun right => ?_, fun right => ?_, fun right => ?_⟩
  · obtain ⟨pinch_bytes, timestamp, -, sampled⟩ := right.1 [0x01, 0x01, 0x05, 0x00] []
      (PinchGloveStandalone.readData_eq_record.mp rfl)
    have undefined : PinchGloveStandalone.sample { mTimeStampsOn := true } (List.replicate 10 0)
        stamped = .undefined := rfl
    cases undefined.symm.trans (sampled _ List.length_replicate)
  · obtain ⟨pinch_bytes, timestamp, -, sampled⟩ := right.1 [0x01] []
      (PinchGloveStandalone.readData_eq_record.mp rfl)
    have undefined : PinchGloveStandalone.sample { mTimeStampsOn := false } (List.replicate 10 0)
        oneHand = .undefined := rfl
    cases undefined.symm.trans (sampled _ List.length_replicate)
  · exact (right fourthRecord [] rfl).1 rfl

/-- A pair with the first two fingers of the left hand and the last of the right hand. -/
example : PinchGloveStandalone.sample { mTimeStampsOn := false } (List.replicate 10 0)
    ([0x80, 0x03, 0x10, 0x8F].map .byte) = .sampled [1, 1, 0, 0, 0, 0, 0, 0, 0, 1] (-1) [] := by
  decide

end VRJuggler.Gadget.Serial
