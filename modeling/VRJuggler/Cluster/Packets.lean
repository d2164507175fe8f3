import VRJuggler.Io.BufferObject
import VRJuggler.Base.Run

/-!
# Packets between the nodes of a cluster

The packets of `cluster/Packets`, how `Node::send` puts them on a stream, and how
`Node::recvPacket` takes them off again. `order` is the byte order of the host, `behind`
what its memory holds behind the buffer of a packet.
-/
namespace VRJuggler.Cluster

open VRJuggler (ByteOrder)
open VRJuggler.Io

/-! ## `vpr::GUID` -/

structure GUID where
  m0 : UInt32
  m1 : UInt16
  m2 : UInt16
  m3 : UInt8
  m4 : UInt8
  m5 : Vector UInt8 6
  deriving DecidableEq

namespace GUID

def null : GUID where
  m0 := 0
  m1 := 0
  m2 := 0
  m3 := 0
  m4 := 0
  m5 := #v[0, 0, 0, 0, 0, 0]

def writeObject (g : GUID) : List Call :=
  [.write .uint32 g.m0, .write .uint16 g.m1, .write .uint16 g.m2, .write .uint8 g.m3,
    .write .uint8 g.m4, .write .uint8 g.m5[0], .write .uint8 g.m5[1], .write .uint8 g.m5[2],
    .write .uint8 g.m5[3], .write .uint8 g.m5[4], .write .uint8 g.m5[5]]

def readObject {σ : Type} (rd : ObjectReader σ) : Reading σ GUID := do
  let m0 ← rd.read .uint32
  let m1 ← rd.read .uint16
  let m2 ← rd.read .uint16
  let m3 ← rd.read .uint8
  let m4 ← rd.read .uint8
  let m50 ← rd.read .uint8
  let m51 ← rd.read .uint8
  let m52 ← rd.read .uint8
  let m53 ← rd.read .uint8
  let m54 ← rd.read .uint8
  let m55 ← rd.read .uint8
  pure { m0, m1, m2, m3, m4, m5 := #v[m50, m51, m52, m53, m54, m55] }

end GUID

/-! ## `Header` -/

def RIM_PACKET : UInt16 := 400

def RIM_DATA_PACKET : UInt16 := 401

def RIM_DEVICE_ACK : UInt16 := 403

def RIM_END_BLOCK : UInt16 := 410

def CONFIG_PACKET : UInt16 := 412

def RIM_PACKET_HEAD_SIZE : Nat := 12

def STRING_LENGTH_SIZE : Nat := 4

structure Header where
  mRIMCode : UInt16
  mPacketType : UInt16
  mPacketLength : UInt32
  mFrame : UInt32
  deriving DecidableEq

namespace Header

def create (code type : UInt16) (length : Nat) (frame : UInt32) : Header where
  mRIMCode := code
  mPacketType := type
  mPacketLength := UInt32.ofNat length
  mFrame := frame

def writeObject (h : Header) : List Call :=
  [.write .uint16 h.mRIMCode, .write .uint16 h.mPacketType, .write .uint32 h.mFrame,
    .write .uint32 h.mPacketLength]

/-- The header gets the length of the packet, and its bytes go before the packet's. -/
def prependSerializedHeader (order : ByteOrder) (h : Header) (packetWriter : BufferObjectWriter) :
    Option (Header × BufferObjectWriter) :=
  let h := { h with
    mPacketLength := UInt32.ofNat (packetWriter.mData.length + RIM_PACKET_HEAD_SIZE) }
  (run (BufferObjectWriter.perform order) .empty h.writeObject).map fun writer =>
    (h, { mData := writer.mData ++ packetWriter.mData, mCurHeadPos := h.mPacketLength })

def parseHeader {σ : Type} (rd : ObjectReader σ) : Reading σ Header := do
  let mRIMCode ← rd.read .uint16
  let mPacketType ← rd.read .uint16
  let mFrame ← rd.read .uint32
  let mPacketLength ← rd.read .uint32
  if mRIMCode ≠ RIM_PACKET then
    Reading.throw .clusterException
  else
    pure { mRIMCode, mPacketType, mPacketLength, mFrame }

end Header

/-! ## The packets -/

/-- The fields of each class of packets. The object of a `DataPacket` is not among them:
it stays in the buffer. -/
inductive Body where
  | deviceAck (mId : GUID) (mDeviceName mDeviceBaseType mHostname : List UInt8) (mAck : Bool)
  | configPacket (mConfig : List UInt8) (mType : UInt16)
  | dataPacket (mObjectId : GUID)
  | endBlock (mTempVar : UInt16)
  deriving DecidableEq

structure Packet where
  mHeader : Header
  mPluginId : GUID
  body : Body
  mPacketWriter : BufferObjectWriter
  deriving DecidableEq

/-- What every `serialize` does with its own calls: clear the data, write, and put the
header in front. -/
def serialize (order : ByteOrder) (mHeader : Header) (mPluginId : GUID) (body : Body)
    (calls : List Call) : Option Packet :=
  (run (BufferObjectWriter.perform order) .empty calls).bind fun packetWriter =>
    (mHeader.prependSerializedHeader order packetWriter).map fun done =>
      { mHeader := done.1, mPluginId, body, mPacketWriter := done.2 }

namespace DeviceAck

def calls (mPluginId mId : GUID) (mDeviceName mDeviceBaseType mHostname : List UInt8)
    (mAck : Bool) : List Call :=
  mPluginId.writeObject ++ mId.writeObject ++
    [.write .string mDeviceName, .write .string mDeviceBaseType, .write .string mHostname,
      .write .bool mAck]

/-- `mHostname` is the name of the local host. -/
def create (order : ByteOrder) (mHostname : List UInt8) (pluginId id : GUID)
    (deviceName deviceBaseType : List UInt8) (ack : Bool) : Option Packet :=
  let mHeader := Header.create RIM_PACKET RIM_DEVICE_ACK
    (RIM_PACKET_HEAD_SIZE + 16 + 16 + STRING_LENGTH_SIZE + deviceName.length +
      STRING_LENGTH_SIZE + deviceBaseType.length + STRING_LENGTH_SIZE + mHostname.length + 1) 0
  serialize order mHeader pluginId (.deviceAck id deviceName deviceBaseType mHostname ack)
    (calls pluginId id deviceName deviceBaseType mHostname ack)

def parse {σ : Type} (rd : ObjectReader σ) : Reading σ (GUID × Body) := do
  let mPluginId ← GUID.readObject rd
  let mId ← GUID.readObject rd
  let mDeviceName ← rd.read .string
  let mDeviceBaseType ← rd.read .string
  let mHostname ← rd.read .string
  let mAck ← rd.read .bool
  pure (mPluginId, .deviceAck mId mDeviceName mDeviceBaseType mHostname mAck)

end DeviceAck

namespace ConfigPacket

/-- The plugin of every configuration packet; it is not sent. -/
def pluginId : GUID where
  m0 := 0xf3ea94e2
  m1 := 0x82fc
  m2 := 0x43f6
  m3 := 0xa5
  m4 := 0x7f
  m5 := #v[0x47, 0x4d, 0x3f, 0xd1, 0xd6, 0xeb]

def calls (mConfig : List UInt8) (mType : UInt16) : List Call :=
  [.write .string mConfig, .write .uint16 mType]

def create (order : ByteOrder) (config : List UInt8) (type : UInt16) : Option Packet :=
  let mHeader := Header.create RIM_PACKET CONFIG_PACKET
    (RIM_PACKET_HEAD_SIZE + STRING_LENGTH_SIZE + config.length + 2) 0
  serialize order mHeader pluginId (.configPacket config type) (calls config type)

def parse {σ : Type} (rd : ObjectReader σ) : Reading σ (GUID × Body) := do
  let mConfig ← rd.read .string
  let mType ← rd.read .uint16
  pure (pluginId, .configPacket mConfig mType)

end ConfigPacket

namespace DataPacket

def calls (mPluginId mObjectId : GUID) (object : List Call) : List Call :=
  mPluginId.writeObject ++ mObjectId.writeObject ++ object

/-- `create` and `serialize`; `object` are the calls of the object's `writeObject`. -/
def create (order : ByteOrder) (pluginId objectId : GUID) (object : List Call) :
    Option Packet :=
  let mHeader := Header.create RIM_PACKET RIM_DATA_PACKET (RIM_PACKET_HEAD_SIZE + 16 + 16) 0
  serialize order mHeader pluginId (.dataPacket objectId) (calls pluginId objectId object)

def parse {σ : Type} (rd : ObjectReader σ) : Reading σ (GUID × Body) := do
  let mPluginId ← GUID.readObject rd
  let mObjectId ← GUID.readObject rd
  pure (mPluginId, .dataPacket mObjectId)

end DataPacket

namespace EndBlock

def calls (mTempVar : UInt16) : List Call := [.write .uint16 mTempVar]

/-- Of the number of the frame the field keeps 16 bits, and the header all. -/
def create (order : ByteOrder) (frameNum : UInt32) : Option Packet :=
  let mTempVar := frameNum.toUInt16
  let mHeader := Header.create RIM_PACKET RIM_END_BLOCK (RIM_PACKET_HEAD_SIZE + 2) frameNum
  serialize order mHeader .null (.endBlock mTempVar) (calls mTempVar)

def parse {σ : Type} (rd : ObjectReader σ) : Reading σ (GUID × Body) := do
  let mTempVar ← rd.read .uint16
  pure (.null, .endBlock mTempVar)

end EndBlock

/-! ## Sending and receiving -/

/-- `Node::send` puts as many bytes of the packet on the stream as the header says; what
lies behind the packet's data has no defined value. -/
def send (packet : Packet) (stream : List UInt8) : Option (List UInt8) :=
  if packet.mHeader.mPacketLength.toNat ≤ packet.mPacketWriter.mData.length then
    some (stream ++ packet.mPacketWriter.mData.take packet.mHeader.mPacketLength.toNat)
  else
    none

/-- The receiving end: the bytes of the stream that were not read yet, the size of the
payload that was asked for last, and the reader of the packet received last. -/
structure Node where
  incoming : List UInt8
  requested : Option UInt32
  mPacketReader : BufferObjectReader
  deriving DecidableEq

namespace Node

def connected (incoming : List UInt8) : Node where
  incoming := incoming
  requested := none
  mPacketReader := .at' [] 0

/-- `readn` of the socket: exactly `length` bytes. A socket that returns no byte was
closed, so none can be asked for either. -/
def readn (length : UInt32) : Reading Node (List UInt8) := do
  let node ← Reading.get
  if length = 0 then
    Reading.throw .ioException
  else if node.incoming.length < length.toNat then
    Reading.modify fun node => { node with incoming := [] }
    Reading.throw .eofException
  else
    Reading.modify fun node => { node with incoming := node.incoming.drop length.toNat }
    pure (node.incoming.take length.toNat)

variable (order : ByteOrder) (behind : Nat → UInt8)

/-- `Header::readData`. -/
def readData : Reading Node Header := do
  let header_data ← (readn (UInt32.ofNat RIM_PACKET_HEAD_SIZE)).rethrow .ioException
  let parsed := (Header.parseHeader (BufferObjectReader.reader behind order)
    (.at' header_data 0)).1
  match parsed with
  | .ok header => pure header
  | .error fault => Reading.throw fault

/-- `PacketFactory::createObject`, as far as the new packet parses. -/
def createObject {σ : Type} (packetType : UInt16) :
    Option (ObjectReader σ → Reading σ (GUID × Body)) :=
  if packetType = RIM_DEVICE_ACK then some DeviceAck.parse
  else if packetType = CONFIG_PACKET then some ConfigPacket.parse
  else if packetType = RIM_DATA_PACKET then some DataPacket.parse
  else if packetType = RIM_END_BLOCK then some EndBlock.parse
  else none

/-- What a new packet is after `parse`. -/
structure Received where
  mHeader : Header
  mPluginId : GUID
  body : Body
  mPacketReader : BufferObjectReader
  deriving DecidableEq

def recvPacket : Reading Node Received := do
  let packet_head ← readData order behind
  match createObject packet_head.mPacketType with
  | none => Reading.throw .clusterException
  | some parse =>
    let length := packet_head.mPacketLength - UInt32.ofNat RIM_PACKET_HEAD_SIZE
    Reading.modify fun node => { node with requested := some length }
    let data ← (readn length).rethrow .clusterException
    Reading.modify fun node => { node with mPacketReader := .at' data 0 }
    let parsed ← Reading.zoom mPacketReader
      (fun node mPacketReader => { node with mPacketReader })
      (parse (BufferObjectReader.reader behind order))
    let node ← Reading.get
    pure {
      mHeader := packet_head
      mPluginId := parsed.1
      body := parsed.2
      mPacketReader := node.mPacketReader }

end Node

end VRJuggler.Cluster
