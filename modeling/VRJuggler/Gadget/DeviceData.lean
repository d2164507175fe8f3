import Mathlib.Data.List.OfFn
import VRJuggler.Io.ObjectStream

/-!
# Data of input devices

The sample buffers of the device types, and how their content is written to an
`ObjectWriter` and read from an `ObjectReader`. A device that is made of several types
(`InputMixer`) writes them one after the other. An exception leaves the receiving device
half changed and its buffer locked; what becomes of it then is not followed here.
-/
namespace VRJuggler.Gadget

open VRJuggler.Io

/-! ## Sample buffers -/

/-- `InputData`: a value, and the microseconds at which it was taken. -/
structure InputData (α : Type) where
  mTimeStamp : UInt64
  value : α

/-- `buffer_t`: the samples, each a value for every unit of the device. -/
abbrev Buffer (α : Type) := List (List (InputData α))

structure SampleBuffer (α : Type) where
  mStableBuffer : Buffer α
  mReadyBuffer : Buffer α

/-- `MAX_BUFFER_SIZE`. -/
def maxBufferSize : Nat := 5000

namespace SampleBuffer

variable {α : Type} (b : SampleBuffer α)

/-- The oldest samples are erased from a buffer that became too long. -/
def addSample (dataSample : List (InputData α)) : SampleBuffer α :=
  let ready := b.mReadyBuffer ++ [dataSample]
  { b with mReadyBuffer := ready.drop (ready.length - maxBufferSize) }

def swapBuffers : SampleBuffer α where
  mStableBuffer := if b.mReadyBuffer.isEmpty then b.mStableBuffer else b.mReadyBuffer
  mReadyBuffer := []

end SampleBuffer

/-! ## Values -/

def DataTypeAttrib : String := "data_type_id"
def SampleBufferLenAttrib : String := "sample_buffer_len"
def BufferSampleTag : String := "BufferSample"
def BufferSampleLenAttrib : String := "sample_len"
def TimeStamp : String := "timestamp"

/-- An attribute of one value. -/
def writeAttribute (attributeName : String) (k : Kind) (val : k.Carrier) : List Call :=
  [.beginAttribute attributeName, .write k val, .endAttribute]

section Reading

variable {σ : Type} (rd : ObjectReader σ)

def readAttribute (attributeName : String) (k : Kind) : Reading σ k.Carrier := do
  rd.beginAttribute attributeName
  let val ← rd.read k
  rd.endAttribute
  pure val

/-- `for (n = 0; n < size; ++n) { data[n] = ...; }` -/
def readEach {α : Type} (m : Reading σ α) : (size : Nat) → Reading σ (Fin size → α)
  | 0 => pure Fin.elim0
  | size + 1 => do
    let first ← m
    let rest ← readEach m size
    pure (Fin.cons first rest)

end Reading

/-- What the device types differ in: the name of the type, `MSG_DATA_...`, and how a value
with its time stamp is written and read. -/
structure DataFormat (α : Type) where
  typeName : String
  dataType : UInt16
  valueTag : String
  write : InputData α → List Call
  read : {σ : Type} → ObjectReader σ → UInt64 → Reading σ (InputData α)

/-- An `int` is given by its conversion to a `Uint32`. -/
abbrev DigitalData := InputData UInt32

abbrev AnalogData := InputData (Kind.Carrier .float)

abbrev StringData := InputData (Kind.Carrier .string)

/-- `mPosData`, the 16 numbers of a matrix. -/
abbrev PositionData := InputData (Fin 16 → Kind.Carrier .float)

/-- `mAngles` for 6 components of 4 joints. The transforms are computed from them. -/
abbrev GloveData := InputData (Fin 6 → Fin 4 → Kind.Carrier .float)

/-- One value behind its time stamp. -/
def stampedFormat (typeName : String) (dataType : UInt16) (valueTag : String) (k : Kind) :
    DataFormat k.Carrier where
  typeName := typeName
  dataType := dataType
  valueTag := valueTag
  write data := writeAttribute TimeStamp .uint64 data.mTimeStamp ++ [.write k data.value]
  read rd delta := do
    let timeStamp ← readAttribute rd TimeStamp .uint64
    let value ← rd.read k
    pure { mTimeStamp := timeStamp + delta, value }

namespace Digital

def format : DataFormat UInt32 := stampedFormat "Digital" 420 "DigValue" .uint32

end Digital

namespace Command

def format : DataFormat UInt32 := stampedFormat "Command" 423 "DigValue" .uint32

end Command

namespace String

def format : DataFormat (Kind.Carrier .string) :=
  stampedFormat "String" 430 "StrValue" .string

end String

namespace Analog

def format : DataFormat (Kind.Carrier .float) := stampedFormat "Analog" 421 "AnaValue" .float

end Analog

namespace Position

/-- The time stamp is written behind the matrix. -/
def format : DataFormat (Fin 16 → Kind.Carrier .float) where
  typeName := "Position"
  dataType := 422
  valueTag := "PosValue"
  write data :=
    (List.ofFn data.value).map (Call.write .float) ++
      writeAttribute TimeStamp .uint64 data.mTimeStamp
  read rd delta := do
    let pos_data ← readEach (rd.read .float) 16
    let timeStamp ← readAttribute rd TimeStamp .uint64
    pure { mTimeStamp := timeStamp + delta, value := pos_data }

end Position

namespace Glove

def format : DataFormat (Fin 6 → Fin 4 → Kind.Carrier .float) where
  typeName := "Glove"
  dataType := 520
  valueTag := "GloValue"
  write data :=
    (List.ofFn data.value).flatMap
        (fun component => (List.ofFn component).map (Call.write .float)) ++
      writeAttribute TimeStamp .uint64 data.mTimeStamp
  read rd delta := do
    let mAngles ← readEach (readEach (rd.read .float) 4) 6
    let timeStamp ← readAttribute rd TimeStamp .uint64
    pure { mTimeStamp := timeStamp + delta, value := mAngles }

end Glove

/-! ## Devices of one type -/

namespace DataFormat

variable {α : Type} (f : DataFormat α)

/-- The values of a sample, each in an element of its own. -/
def writeSample (sample : List (InputData α)) : List Call :=
  .beginTag BufferSampleTag ::
    (writeAttribute BufferSampleLenAttrib .uint16 (UInt16.ofNat sample.length) ++
      (sample.flatMap (fun data => .beginTag f.valueTag :: (f.write data ++ [.endTag])) ++
        [.endTag]))

def writeObject (b : SampleBuffer α) : List Call :=
  .beginTag f.typeName ::
    (writeAttribute DataTypeAttrib .uint16 f.dataType ++
      (writeAttribute SampleBufferLenAttrib .uint16 (UInt16.ofNat b.mStableBuffer.length) ++
        (b.mStableBuffer.flatMap f.writeSample ++ [.endTag])))

variable {σ : Type} (rd : ObjectReader σ) (delta : UInt64)

def readValue : Reading σ (InputData α) := do
  rd.beginTag f.valueTag
  let data ← f.read rd delta
  rd.endTag
  pure data

def readSample : Reading σ (List (InputData α)) := do
  rd.beginTag BufferSampleTag
  let numDatas ← readAttribute rd BufferSampleLenAttrib .uint16
  let dataSample ← Reading.times (f.readValue rd delta) numDatas.toNat
  rd.endTag
  pure dataSample

/-- The type of the data is only asserted. -/
def readObject (b : SampleBuffer α) : Reading σ (SampleBuffer α) := do
  rd.beginTag f.typeName
  let _temp ← readAttribute rd DataTypeAttrib .uint16
  let numVectors ← readAttribute rd SampleBufferLenAttrib .uint16
  let samples ← Reading.times (f.readSample rd delta) numVectors.toNat
  rd.endTag
  pure (samples.foldl SampleBuffer.addSample b).swapBuffers

end DataFormat

namespace Analog

/-- An empty buffer is written as a sample without values; its length is not written. -/
def writeObject (b : SampleBuffer (Kind.Carrier .float)) : List Call :=
  if b.mStableBuffer.isEmpty then
    .beginTag format.typeName ::
      (writeAttribute DataTypeAttrib .uint16 format.dataType ++
        (.beginTag BufferSampleTag ::
          (writeAttribute BufferSampleLenAttrib .uint16 (0 : UInt16) ++ [.endTag, .endTag])))
  else format.writeObject b

end Analog

/-! ## Devices -/

/-- The type of a device: `Input` writes nothing, and `InputMixer` puts one together from
two. -/
inductive InputType where
  | input
  | digital
  | analog
  | position
  | command
  | string
  | glove
  | inputMixer (composedParent newParent : InputType)
  deriving DecidableEq

namespace InputType

def getInputTypeName : InputType → String
  | input => "Input"
  | digital => Digital.format.typeName
  | analog => Analog.format.typeName
  | position => Position.format.typeName
  | command => Command.format.typeName
  | string => String.format.typeName
  | glove => Glove.format.typeName
  | inputMixer composedParent newParent =>
    composedParent.getInputTypeName ++ newParent.getInputTypeName

/-- The sample buffers of a device of the type. -/
@[reducible] def Device : InputType → Type
  | input => Unit
  | digital => SampleBuffer UInt32
  | analog => SampleBuffer (Kind.Carrier .float)
  | position => SampleBuffer (Fin 16 → Kind.Carrier .float)
  | command => SampleBuffer UInt32
  | string => SampleBuffer (Kind.Carrier .string)
  | glove => SampleBuffer (Fin 6 → Fin 4 → Kind.Carrier .float)
  | inputMixer composedParent newParent => composedParent.Device × newParent.Device

def writeObject : (type : InputType) → type.Device → List Call
  | input, _ => []
  | digital, d => Digital.format.writeObject d
  | analog, d => Analog.writeObject d
  | position, d => Position.format.writeObject d
  | command, d => Command.format.writeObject d
  | string, d => String.format.writeObject d
  | glove, d => Glove.format.writeObject d
  | inputMixer composedParent newParent, d =>
    .beginTag (inputMixer composedParent newParent).getInputTypeName ::
      (composedParent.writeObject d.1 ++ (newParent.writeObject d.2 ++ [.endTag]))

variable {σ : Type} (rd : ObjectReader σ) (delta : UInt64)

def readObject : (type : InputType) → type.Device → Reading σ type.Device
  | input, d => pure d
  | digital, d => Digital.format.readObject rd delta d
  | analog, d => Analog.format.readObject rd delta d
  | position, d => Position.format.readObject rd delta d
  | command, d => Command.format.readObject rd delta d
  | string, d => String.format.readObject rd delta d
  | glove, d => Glove.format.readObject rd delta d
  | inputMixer composedParent newParent, d => do
    rd.beginTag (inputMixer composedParent newParent).getInputTypeName
    let composed ← composedParent.readObject d.1
    let added ← newParent.readObject d.2
    rd.endTag
    pure (composed, added)

end InputType

end VRJuggler.Gadget
