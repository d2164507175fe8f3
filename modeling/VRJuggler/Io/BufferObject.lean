import VRJuggler.Base.ByteOrder
import VRJuggler.Io.ObjectStream

/-!
# Binary object streams

`vpr::BufferObjectWriter` and `vpr::BufferObjectReader`. `order` is the byte order of
the host: what a number looks like in memory depends on it, what is written does not.
-/
namespace VRJuggler.Io

open VRJuggler (ByteOrder)

/-! ## Byte order conversion (`vpr::System`) -/

def Htons (order : ByteOrder) (conversion : Nat) : Nat := order.toNetwork 2 conversion

def Htonl (order : ByteOrder) (conversion : Nat) : Nat := order.toNetwork 4 conversion

def Ntohs (order : ByteOrder) (conversion : Nat) : Nat := order.ofNetwork 2 conversion

def Ntohl (order : ByteOrder) (conversion : Nat) : Nat := order.ofNetwork 4 conversion

/-- What `Htonll` and `Ntohll` do with the two halves of a `uint64_holder`, where `half`
converts one of them: the low one is the half at the lower address. -/
def convertHalves (half : ByteOrder → Nat → Nat) (order : ByteOrder) (conversion : Nat) : Nat :=
  let input := order.bytes 8 conversion
  let uint32_low_value := order.number (input.take 4)
  let uint32_high_value := order.number (input.drop 4)
  match order with
  | .littleEndian =>
    order.number (order.bytes 4 (half order uint32_high_value) ++
      order.bytes 4 (half order uint32_low_value))
  | .bigEndian =>
    order.number (order.bytes 4 (half order uint32_low_value) ++
      order.bytes 4 (half order uint32_high_value))

def Htonll (order : ByteOrder) (conversion : Nat) : Nat := convertHalves Htonl order conversion

def Ntohll (order : ByteOrder) (conversion : Nat) : Nat := convertHalves Ntohl order conversion

/-! ## Writing -/

structure BufferObjectWriter where
  mData : List UInt8
  mCurHeadPos : UInt32
  deriving DecidableEq

namespace BufferObjectWriter

def empty : BufferObjectWriter where
  mData := []
  mCurHeadPos := 0

def writeRaw (w : BufferObjectWriter) (data : List UInt8) : BufferObjectWriter where
  mData := w.mData ++ data
  mCurHeadPos := w.mCurHeadPos + UInt32.ofNat data.length

variable (order : ByteOrder) (w : BufferObjectWriter)

def writeUint8 (val : UInt8) : BufferObjectWriter := w.writeRaw (order.bytes 1 val.toNat)

def writeUint16 (val : UInt16) : BufferObjectWriter :=
  w.writeRaw (order.bytes 2 (Htons order val.toNat))

def writeUint32 (val : UInt32) : BufferObjectWriter :=
  w.writeRaw (order.bytes 4 (Htonl order val.toNat))

def writeUint64 (val : UInt64) : BufferObjectWriter :=
  w.writeRaw (order.bytes 8 (Htonll order val.toNat))

def writeFloat (val : UInt32) : BufferObjectWriter :=
  w.writeRaw (order.bytes 4 (Htonl order val.toNat))

def writeDouble (val : UInt64) : BufferObjectWriter :=
  w.writeRaw (order.bytes 8 (Htonll order val.toNat))

/-- The counter of the loop over the characters is a `Uint32`: for a longer string the
loop does not end. -/
def writeString (val : List UInt8) : Option BufferObjectWriter :=
  if val.length < 2 ^ 32 then
    some (val.foldl (fun w c => w.writeRaw [c]) (w.writeUint32 order (UInt32.ofNat val.length)))
  else
    none

def writeBool (val : Bool) : BufferObjectWriter := w.writeRaw [if val then 1 else 0]

def write : (k : Kind) → k.Carrier → Option BufferObjectWriter
  | .uint8, val => some (w.writeUint8 order val)
  | .uint16, val => some (w.writeUint16 order val)
  | .uint32, val => some (w.writeUint32 order val)
  | .uint64, val => some (w.writeUint64 order val)
  | .float, val => some (w.writeFloat order val)
  | .double, val => some (w.writeDouble order val)
  | .bool, val => some (w.writeBool val)
  | .string, val => w.writeString order val

/-- Tags and attributes leave no trace in the buffer. -/
def perform : Call → Option BufferObjectWriter
  | .beginTag _ | .endTag | .beginAttribute _ | .endAttribute => some w
  | .write k val => w.write order k val

end BufferObjectWriter

/-! ## Reading -/

/-- `touched` records the offsets of the bytes that were read from memory. -/
structure BufferObjectReader where
  mData : List UInt8
  mCurHeadPos : UInt32
  mHeadPosStateStack : List UInt32
  touched : List Nat
  deriving DecidableEq

namespace BufferObjectReader

/-- A reader of some bytes, at a position. -/
def at' (mData : List UInt8) (curPos : UInt32) : BufferObjectReader where
  mData := mData
  mCurHeadPos := curPos
  mHeadPosStateStack := []
  touched := []

variable (behind : Nat → UInt8)

/-- The byte at an offset from the first byte of the buffer; `behind` is what the memory
behind the buffer holds. -/
def byteAt (s : BufferObjectReader) (offset : Nat) : UInt8 :=
  if inside : offset < s.mData.length then s.mData[offset] else behind offset

/-- Read `len` bytes of memory. -/
def load (offset len : Nat) : Reading BufferObjectReader (List UInt8) := fun s =>
  (.ok ((List.range' offset len).map (s.byteAt behind)),
    { s with touched := s.touched ++ List.range' offset len })

/-- The offset of the bytes to read. Only the start is compared with the size. -/
def readRaw (len : UInt32) : Reading BufferObjectReader Nat := do
  let s ← Reading.get
  if s.mData.length ≤ s.mCurHeadPos.toNat then
    Reading.throw .eofException
  else
    Reading.modify fun s => { s with mCurHeadPos := s.mCurHeadPos + len }
    let s ← Reading.get
    pure (s.mCurHeadPos - len).toNat

variable (order : ByteOrder)

/-- `std::memcpy(&nw_val, readRaw(len), len)`. -/
def readMemory (len : UInt32) : Reading BufferObjectReader Nat := do
  let offset ← readRaw len
  let bytes ← load behind offset len.toNat
  pure (order.number bytes)

def readUint8 : Reading BufferObjectReader UInt8 := do
  let temp_data ← readMemory behind order 1
  pure (UInt8.ofNat temp_data)

def readUint16 : Reading BufferObjectReader UInt16 := do
  let nw_val ← readMemory behind order 2
  pure (UInt16.ofNat (Ntohs order nw_val))

def readUint32 : Reading BufferObjectReader UInt32 := do
  let nw_val ← readMemory behind order 4
  pure (UInt32.ofNat (Ntohl order nw_val))

def readUint64 : Reading BufferObjectReader UInt64 := do
  let nw_val ← readMemory behind order 8
  pure (UInt64.ofNat (Ntohll order nw_val))

def readFloat : Reading BufferObjectReader UInt32 := do
  let intVal ← readMemory behind order 4
  pure (UInt32.ofNat (Ntohl order intVal))

def readDouble : Reading BufferObjectReader UInt64 := do
  let intVal ← readMemory behind order 8
  pure (UInt64.ofNat (Ntohll order intVal))

def readChar : Reading BufferObjectReader UInt8 := do
  let tempChar ← readMemory behind order 1
  pure (UInt8.ofNat tempChar)

def readString : Reading BufferObjectReader (List UInt8) := do
  let str_len ← readUint32 behind order
  Reading.times (readChar behind order) str_len.toNat

def readBool : Reading BufferObjectReader Bool := do
  let byte ← readMemory behind order 1
  pure (decide (byte ≠ 0))

def read : (k : Kind) → Reading BufferObjectReader k.Carrier
  | .uint8 => readUint8 behind order
  | .uint16 => readUint16 behind order
  | .uint32 => readUint32 behind order
  | .uint64 => readUint64 behind order
  | .float => readFloat behind order
  | .double => readDouble behind order
  | .bool => readBool behind order
  | .string => readString behind order

def reader : ObjectReader BufferObjectReader where
  beginTag _ := pure ()
  endTag := pure ()
  beginAttribute _ := pure ()
  endAttribute := pure ()
  read := read behind order

def pushState (s : BufferObjectReader) : BufferObjectReader :=
  { s with mHeadPosStateStack := s.mCurHeadPos :: s.mHeadPosStateStack }

/-- `none` when no state was pushed: the vector is empty then. -/
def popState (s : BufferObjectReader) : Option BufferObjectReader :=
  match s.mHeadPosStateStack with
  | [] => none
  | new_head_pos :: rest =>
    some { s with mHeadPosStateStack := rest, mCurHeadPos := new_head_pos }

end BufferObjectReader

end VRJuggler.Io
