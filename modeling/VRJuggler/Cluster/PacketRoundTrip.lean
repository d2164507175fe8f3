import Mathlib.Tactic.IntervalCases
import VRJuggler.Cluster.Packets
import VRJuggler.Io.BufferRoundTrip

/-!
# Packets arrive as they were sent

The bytes of a packet, what each `parse` makes of them, and what a receiving node makes
of the packets that were put on a stream one after the other. The length of a packet is a
`Uint32`: this holds for packets shorter than `2 ^ 32` bytes.
-/
namespace VRJuggler.Cluster

open VRJuggler (ByteOrder)
open VRJuggler.Io

/-! ## Fields -/

section Fields

variable {σ : Type} {rd : ObjectReader σ}

theorem GUID.readObject_of_replays {s t : σ} (g : GUID)
    (replays : rd.Replays s g.writeObject t) : GUID.readObject rd s = (.ok g, t) := by
  obtain ⟨_, h0, _, h1, _, h2, _, h3, _, h4, _, h50, _, h51, _, h52, _, h53, _, h54, u, h55,
    rfl⟩ := replays
  have bytes : (#v[g.m5[0], g.m5[1], g.m5[2], g.m5[3], g.m5[4], g.m5[5]] : Vector UInt8 6) =
      g.m5 := by
    apply Vector.ext
    intro i small
    interval_cases i <;> rfl
  rw [GUID.readObject, Reading.bind_of_ok h0, Reading.bind_of_ok h1, Reading.bind_of_ok h2,
    Reading.bind_of_ok h3, Reading.bind_of_ok h4, Reading.bind_of_ok h50,
    Reading.bind_of_ok h51, Reading.bind_of_ok h52, Reading.bind_of_ok h53,
    Reading.bind_of_ok h54, Reading.bind_of_ok h55, bytes, Reading.pure_apply]

theorem Header.parseHeader_of_replays {s t : σ} {h : Header} (code : h.mRIMCode = RIM_PACKET)
    (replays : rd.Replays s h.writeObject t) : Header.parseHeader rd s = (.ok h, t) := by
  obtain ⟨_, h0, _, h1, _, h2, u, h3, rfl⟩ := replays
  rw [Header.parseHeader, Reading.bind_of_ok h0, Reading.bind_of_ok h1, Reading.bind_of_ok h2,
    Reading.bind_of_ok h3, if_neg (not_not_intro code), Reading.pure_apply]

theorem DeviceAck.parse_of_replays {s t : σ} {mPluginId mId : GUID}
    {mDeviceName mDeviceBaseType mHostname : List UInt8} {mAck : Bool}
    (replays : rd.Replays s
      (DeviceAck.calls mPluginId mId mDeviceName mDeviceBaseType mHostname mAck) t) :
    DeviceAck.parse rd s =
      (.ok (mPluginId, .deviceAck mId mDeviceName mDeviceBaseType mHostname mAck), t) := by
  obtain ⟨_, guids, _, h0, _, h1, _, h2, u, h3, rfl⟩ := ObjectReader.replays_append.mp replays
  obtain ⟨_, plugin, id⟩ := ObjectReader.replays_append.mp guids
  rw [DeviceAck.parse, Reading.bind_of_ok (GUID.readObject_of_replays _ plugin),
    Reading.bind_of_ok (GUID.readObject_of_replays _ id), Reading.bind_of_ok h0,
    Reading.bind_of_ok h1, Reading.bind_of_ok h2, Reading.bind_of_ok h3, Reading.pure_apply]

theorem ConfigPacket.parse_of_replays {s t : σ} {mConfig : List UInt8} {mType : UInt16}
    (replays : rd.Replays s (ConfigPacket.calls mConfig mType) t) :
    ConfigPacket.parse rd s =
      (.ok (ConfigPacket.pluginId, .configPacket mConfig mType), t) := by
  obtain ⟨_, h0, u, h1, rfl⟩ := replays
  rw [ConfigPacket.parse, Reading.bind_of_ok h0, Reading.bind_of_ok h1, Reading.pure_apply]

theorem DataPacket.parse_of_replays {s t : σ} {mPluginId mObjectId : GUID}
    (replays : rd.Replays s (DataPacket.calls mPluginId mObjectId []) t) :
    DataPacket.parse rd s = (.ok (mPluginId, .dataPacket mObjectId), t) := by
  rw [DataPacket.calls, List.append_nil] at replays
  obtain ⟨_, plugin, object⟩ := ObjectReader.replays_append.mp replays
  rw [DataPacket.parse, Reading.bind_of_ok (GUID.readObject_of_replays _ plugin),
    Reading.bind_of_ok (GUID.readObject_of_replays _ object), Reading.pure_apply]

theorem EndBlock.parse_of_replays {s t : σ} {mTempVar : UInt16}
    (replays : rd.Replays s (EndBlock.calls mTempVar) t) :
    EndBlock.parse rd s = (.ok (.null, .endBlock mTempVar), t) := by
  obtain ⟨u, h0, rfl⟩ := replays
  rw [EndBlock.parse, Reading.bind_of_ok h0, Reading.pure_apply]

end Fields

/-! ## What is sent -/

/-- A packet to send, by the arguments it is made from. -/
inductive Outgoing where
  | deviceAck (localHost : List UInt8) (pluginId id : GUID)
      (deviceName deviceBaseType : List UInt8) (ack : Bool)
  | configPacket (config : List UInt8) (type : UInt16)
  | dataPacket (pluginId objectId : GUID) (object : List Call)
  | endBlock (frameNum : UInt32)

namespace Outgoing

def create (order : ByteOrder) : Outgoing → Option Packet
  | deviceAck localHost pluginId id deviceName deviceBaseType ack =>
    DeviceAck.create order localHost pluginId id deviceName deviceBaseType ack
  | configPacket config type => ConfigPacket.create order config type
  | dataPacket pluginId objectId object => DataPacket.create order pluginId objectId object
  | endBlock frameNum => EndBlock.create order frameNum

/-- The calls for the fields that `parse` reads. -/
def fields : Outgoing → List Call
  | deviceAck localHost pluginId id deviceName deviceBaseType ack =>
    DeviceAck.calls pluginId id deviceName deviceBaseType localHost ack
  | configPacket config type => ConfigPacket.calls config type
  | dataPacket pluginId objectId _ => DataPacket.calls pluginId objectId []
  | endBlock frameNum => EndBlock.calls frameNum.toUInt16

/-- The calls for the object that stays in the buffer. -/
def object : Outgoing → List Call
  | dataPacket _ _ object => object
  | deviceAck .. | configPacket .. | endBlock .. => []

/-- The number of bytes of the packet. -/
def size (out : Outgoing) : Nat :=
  RIM_PACKET_HEAD_SIZE + (encodeAll (out.fields ++ out.object)).length

end Outgoing

/-- Put some packets on a stream, one after the other. -/
def sendAll (packets : List Packet) : Option (List UInt8) :=
  packets.foldlM (fun stream packet => send packet stream) []

theorem Header.length_encode (h : Header) :
    (encodeAll h.writeObject).length = RIM_PACKET_HEAD_SIZE := by
  simp [Header.writeObject, Call.encode, encode, RIM_PACKET_HEAD_SIZE]

/-- The header that a packet gets from `prependSerializedHeader`. -/
def Header.withLength (h : Header) (payload : Nat) : Header :=
  { h with mPacketLength := UInt32.ofNat (payload + RIM_PACKET_HEAD_SIZE) }

theorem serialize_eq (order : ByteOrder) (h : Header) (pluginId : GUID) (body : Body)
    {calls : List Call} (fits : ∀ call ∈ calls, call.Fits) :
    serialize order h pluginId body calls =
      some {
        mHeader := h.withLength (encodeAll calls).length
        mPluginId := pluginId
        body := body
        mPacketWriter := {
          mData := encodeAll (h.withLength (encodeAll calls).length).writeObject ++
            encodeAll calls
          mCurHeadPos := (h.withLength (encodeAll calls).length).mPacketLength } } := by
  have header : ∀ h : Header, ∀ call ∈ h.writeObject, call.Fits := fun h =>
    fits_of_small (by rw [Header.length_encode]; decide)
  rw [serialize, BufferObjectWriter.run_perform order fits, Option.bind_some,
    Header.prependSerializedHeader, BufferObjectWriter.run_perform order (header _)]
  simp [BufferObjectWriter.writeRaw, BufferObjectWriter.empty, Header.withLength]

namespace Outgoing

def header : Outgoing → Header
  | deviceAck localHost _ _ deviceName deviceBaseType _ =>
    Header.create RIM_PACKET RIM_DEVICE_ACK
      (RIM_PACKET_HEAD_SIZE + 16 + 16 + STRING_LENGTH_SIZE + deviceName.length +
        STRING_LENGTH_SIZE + deviceBaseType.length + STRING_LENGTH_SIZE + localHost.length + 1) 0
  | configPacket config _ =>
    Header.create RIM_PACKET CONFIG_PACKET
      (RIM_PACKET_HEAD_SIZE + STRING_LENGTH_SIZE + config.length + 2) 0
  | dataPacket .. =>
    Header.create RIM_PACKET RIM_DATA_PACKET (RIM_PACKET_HEAD_SIZE + 16 + 16) 0
  | endBlock frameNum =>
    Header.create RIM_PACKET RIM_END_BLOCK (RIM_PACKET_HEAD_SIZE + 2) frameNum

def pluginId : Outgoing → GUID
  | deviceAck _ pluginId .. | dataPacket pluginId .. => pluginId
  | configPacket .. => ConfigPacket.pluginId
  | endBlock _ => .null

def body : Outgoing → Body
  | deviceAck localHost _ id deviceName deviceBaseType ack =>
    .deviceAck id deviceName deviceBaseType localHost ack
  | configPacket config type => .configPacket config type
  | dataPacket _ objectId _ => .dataPacket objectId
  | endBlock frameNum => .endBlock frameNum.toUInt16

/-- The header of the packet as it is sent. -/
def sentHeader (out : Outgoing) : Header :=
  out.header.withLength (encodeAll (out.fields ++ out.object)).length

/-- The bytes of the packet. -/
def bytes (out : Outgoing) : List UInt8 :=
  encodeAll out.sentHeader.writeObject ++ encodeAll (out.fields ++ out.object)

theorem length_bytes (out : Outgoing) : out.bytes.length = out.size := by
  rw [bytes, List.length_append, Header.length_encode, size]

theorem sentHeader_length {out : Outgoing} (small : out.size < 2 ^ 32) :
    out.sentHeader.mPacketLength.toNat = out.size := by
  have total : (encodeAll (out.fields ++ out.object)).length + RIM_PACKET_HEAD_SIZE = out.size :=
    Nat.add_comm _ _
  have kept : out.sentHeader.mPacketLength = UInt32.ofNat out.size := by
    rw [sentHeader, Header.withLength, total]
  rw [kept]
  exact UInt32.toNat_ofNat_of_lt' small

/-- The length that the constructors of three of the classes give the header is the one
that it gets again when the packet is serialized. -/
theorem header_length_eq (out : Outgoing) (known : ∀ plugin id object,
    out ≠ dataPacket plugin id object) :
    out.header.mPacketLength = out.sentHeader.mPacketLength := by
  cases out with
  | dataPacket plugin id object => exact absurd rfl (known plugin id object)
  | endBlock => rfl
  | deviceAck | configPacket =>
    simp only [header, sentHeader, Header.create, Header.withLength]
    congr 1
    simp +arith [fields, object, DeviceAck.calls, ConfigPacket.calls, GUID.writeObject,
      Call.encode, encode, RIM_PACKET_HEAD_SIZE, STRING_LENGTH_SIZE]

/-- All four classes build their packets in one way. -/
theorem create_eq (order : ByteOrder) (out : Outgoing) :
    out.create order =
      serialize order out.header out.pluginId out.body (out.fields ++ out.object) := by
  cases out with
  | deviceAck | configPacket | endBlock => rw [object, List.append_nil]; rfl
  | dataPacket pluginId objectId object =>
    have calls : DataPacket.calls pluginId objectId object =
        DataPacket.calls pluginId objectId [] ++ object := by simp [DataPacket.calls]
    rw [create, DataPacket.create, calls]
    rfl

/-- The packet as it is sent. -/
def packet (out : Outgoing) : Packet where
  mHeader := out.sentHeader
  mPluginId := out.pluginId
  body := out.body
  mPacketWriter := { mData := out.bytes, mCurHeadPos := out.sentHeader.mPacketLength }

theorem create_of_fits (order : ByteOrder) {out : Outgoing}
    (fits : ∀ call ∈ out.fields ++ out.object, call.Fits) :
    out.create order = some out.packet := by
  rw [create_eq, serialize_eq order _ _ _ fits]
  rfl

theorem create_of_small (order : ByteOrder) {out : Outgoing} (small : out.size < 2 ^ 32) :
    out.create order = some out.packet := by
  have payload : (encodeAll (out.fields ++ out.object)).length < 2 ^ 32 := by
    rw [size] at small
    omega
  exact create_of_fits order (fits_of_small payload)

theorem createAll_of_small (order : ByteOrder) {outs : List Outgoing}
    (small : ∀ out ∈ outs, out.size < 2 ^ 32) :
    outs.mapM (create order) = some (outs.map packet) := by
  induction outs with
  | nil => rfl
  | cons out outs ih =>
    rw [List.mapM_cons, create_of_small order (small out (List.mem_cons_self ..)),
      ih fun other member => small other (List.mem_cons_of_mem _ member)]
    rfl

theorem send_of_small {out : Outgoing} (small : out.size < 2 ^ 32) (stream : List UInt8) :
    send out.packet stream = some (stream ++ out.bytes) := by
  have length : out.packet.mHeader.mPacketLength.toNat = out.bytes.length := by
    rw [length_bytes]
    exact sentHeader_length small
  have data : out.packet.mPacketWriter.mData = out.bytes := rfl
  rw [send, data, length, if_pos le_rfl, List.take_length]

theorem sendAll_of_small {outs : List Outgoing} (small : ∀ out ∈ outs, out.size < 2 ^ 32) :
    sendAll (outs.map packet) = some (outs.flatMap bytes) := by
  have grown (stream : List UInt8) :
      (outs.map packet).foldlM (fun stream packet => send packet stream) stream =
        some (stream ++ outs.flatMap bytes) := by
    induction outs generalizing stream with
    | nil => simp
    | cons out outs ih =>
      rw [List.map_cons, List.foldlM_cons, send_of_small (small out (List.mem_cons_self ..)),
        Option.bind_eq_bind, Option.bind_some,
        ih fun other member => small other (List.mem_cons_of_mem _ member),
        List.flatMap_cons, List.append_assoc]
  exact grown []

/-! ## What is received -/

def parse {σ : Type} : Outgoing → ObjectReader σ → Reading σ (GUID × Body)
  | deviceAck .. => DeviceAck.parse
  | configPacket .. => ConfigPacket.parse
  | dataPacket .. => DataPacket.parse
  | endBlock _ => EndBlock.parse

theorem createObject_eq {σ : Type} (out : Outgoing) :
    Node.createObject (σ := σ) out.sentHeader.mPacketType = some out.parse := by
  cases out with
  | deviceAck | configPacket | dataPacket | endBlock => rfl

theorem parse_of_replays {σ : Type} {rd : ObjectReader σ} {s t : σ} {out : Outgoing}
    (replays : rd.Replays s out.fields t) :
    out.parse rd s = (.ok (out.pluginId, out.body), t) := by
  cases out with
  | deviceAck => exact DeviceAck.parse_of_replays replays
  | configPacket => exact ConfigPacket.parse_of_replays replays
  | dataPacket => exact DataPacket.parse_of_replays replays
  | endBlock => exact EndBlock.parse_of_replays replays

/-- No packet is empty. -/
theorem fields_pos (out : Outgoing) : 0 < (encodeAll out.fields).length := by
  cases out with
  | deviceAck | dataPacket =>
    simp [fields, DeviceAck.calls, DataPacket.calls, GUID.writeObject, Call.encode, encode]
  | configPacket | endBlock =>
    simp [fields, ConfigPacket.calls, EndBlock.calls, Call.encode, encode]

/-- The packet on the side of the receiver. -/
def received (out : Outgoing) : Node.Received where
  mHeader := out.sentHeader
  mPluginId := out.pluginId
  body := out.body
  mPacketReader :=
    (BufferObjectReader.at' (encodeAll (out.fields ++ out.object)) 0).advance
      (encodeAll out.fields).length

/-- The payload is as long as the receiver takes it to be. -/
theorem payload_length {out : Outgoing} (small : out.size < 2 ^ 32) :
    (out.sentHeader.mPacketLength - UInt32.ofNat RIM_PACKET_HEAD_SIZE).toNat =
      (encodeAll (out.fields ++ out.object)).length := by
  have total := sentHeader_length small
  have header : (UInt32.ofNat RIM_PACKET_HEAD_SIZE).toNat = RIM_PACKET_HEAD_SIZE := rfl
  have size : out.size =
    RIM_PACKET_HEAD_SIZE + (encodeAll (out.fields ++ out.object)).length := rfl
  rw [UInt32.toNat_sub_of_le _ _ (by rw [UInt32.le_iff_toNat_le]; omega)]
  omega

variable (order : ByteOrder) (behind : Nat → UInt8)

/-- The header is read back. -/
theorem parseHeader_sent (out : Outgoing) :
    (Header.parseHeader (BufferObjectReader.reader behind order)
      (.at' (encodeAll out.sentHeader.writeObject) 0)).1 = .ok out.sentHeader := by
  have length := Header.length_encode out.sentHeader
  have code : out.sentHeader.mRIMCode = RIM_PACKET := by cases out with | _ => rfl
  have fits : ∀ call ∈ out.sentHeader.writeObject, call.Fits :=
    fits_of_small (by rw [length]; decide)
  have replays := BufferObjectReader.replays_middle order behind fits
    (s := .at' (encodeAll out.sentHeader.writeObject) 0) [] []
    (List.append_nil _).symm rfl (by rw [length]; decide)
  rw [Header.parseHeader_of_replays code replays]

/-- The fields are read back, and the reader is left at the object. -/
theorem parse_payload {out : Outgoing} (small : out.size < 2 ^ 32) :
    out.parse (BufferObjectReader.reader behind order)
        (.at' (encodeAll (out.fields ++ out.object)) 0) =
      (.ok (out.pluginId, out.body), out.received.mPacketReader) := by
  rw [size, encodeAll_append, List.length_append] at small
  have fits : ∀ call ∈ out.fields, call.Fits := by
    apply fits_of_small
    omega
  apply parse_of_replays
  exact BufferObjectReader.replays_middle order behind fits
    (s := .at' (encodeAll (out.fields ++ out.object)) 0) [] (encodeAll out.object)
    (by simp [BufferObjectReader.at']) rfl (by rw [List.length_nil]; omega)

end Outgoing

namespace Node

theorem readn_eq (length : UInt32) (node : Node) :
    readn length node =
      if length = 0 then (.error .ioException, node)
      else if node.incoming.length < length.toNat then
        (.error .eofException, { node with incoming := [] })
      else
        (.ok (node.incoming.take length.toNat),
          { node with incoming := node.incoming.drop length.toNat }) := by
  rw [readn, Reading.bind_apply, Reading.get_apply]
  simp only []
  split
  · rfl
  · split
    · rfl
    · rfl

/-- `readn` takes what there is. -/
theorem readn_append (length : UInt32) (node : Node) {data rest : List UInt8}
    (incoming : node.incoming = data ++ rest) (size : length.toNat = data.length)
    (some' : 0 < data.length) :
    readn length node = (.ok data, { node with incoming := rest }) := by
  have positive : length ≠ 0 := by
    rintro rfl
    simp at size
    omega
  have enough : ¬ node.incoming.length < length.toNat := by
    rw [incoming, List.length_append]
    omega
  rw [readn_eq, if_neg positive, if_neg enough, incoming, size, List.drop_left, List.take_left]

variable (order : ByteOrder) (behind : Nat → UInt8)

theorem readData_append (out : Outgoing) (node : Node) {rest : List UInt8}
    (incoming : node.incoming = encodeAll out.sentHeader.writeObject ++ rest) :
    readData order behind node = (.ok out.sentHeader, { node with incoming := rest }) := by
  have length := Header.length_encode out.sentHeader
  have read := readn_append (UInt32.ofNat RIM_PACKET_HEAD_SIZE) node incoming
    (by rw [length]; rfl) (by rw [length]; decide)
  rw [readData, Reading.bind_of_ok (Reading.rethrow_of_ok read _), out.parseHeader_sent]
  rfl

/-- One packet at the front of the stream. -/
theorem recvPacket_append {out : Outgoing} (small : out.size < 2 ^ 32) (node : Node)
    {rest : List UInt8} (incoming : node.incoming = out.bytes ++ rest) :
    ∃ requested, recvPacket order behind node =
      (.ok out.received,
        { incoming := rest, requested, mPacketReader := out.received.mPacketReader }) := by
  let payload := encodeAll (out.fields ++ out.object)
  let length := out.sentHeader.mPacketLength - UInt32.ofNat RIM_PACKET_HEAD_SIZE
  have positive : 0 < payload.length := by
    have fields := out.fields_pos
    simp only [payload, encodeAll_append, List.length_append]
    omega
  have header := readData_append order behind out node
    (incoming.trans (List.append_assoc _ payload rest))
  have data := readn_append length
    { node with incoming := payload ++ rest, requested := some length } rfl
    (Outgoing.payload_length small) positive
  have parsed := Outgoing.parse_payload order behind small
  refine ⟨some length, ?_⟩
  rw [recvPacket, Reading.bind_of_ok header, Outgoing.createObject_eq]
  simp only []
  rw [Reading.bind_of_ok (Reading.modify_apply _ _), Reading.bind_of_ok
    (Reading.rethrow_of_ok data _), Reading.bind_of_ok (Reading.modify_apply _ _)]
  simp only [Reading.bind_apply, Reading.zoom, payload, parsed, Reading.get_apply,
    Reading.pure_apply]
  rfl

/-- A received packet has the fields of the packet that was sent; what is left in its
reader are the values of the object, to the last byte. -/
def Recovered (out : Outgoing) (packet : Packet) (received : Received) : Prop :=
  received.mHeader = packet.mHeader ∧ received.mPluginId = packet.mPluginId ∧
    received.body = packet.body ∧
    ∃ t, (BufferObjectReader.reader behind order).answers (out.object.map Call.ask)
        received.mPacketReader = (.ok (values out.object), t) ∧
      t.mCurHeadPos.toNat = received.mPacketReader.mData.length ∧
      received.mPacketReader.mData.length + RIM_PACKET_HEAD_SIZE =
        packet.mHeader.mPacketLength.toNat

/-- The reader of a received packet answers the calls of the object, to the last byte. -/
theorem replays_object {out : Outgoing} (small : out.size < 2 ^ 32) :
    ∃ t, (BufferObjectReader.reader behind order).Replays out.received.mPacketReader
        out.object t ∧
      t.mCurHeadPos.toNat = out.received.mPacketReader.mData.length := by
  have payload : (encodeAll out.fields).length + (encodeAll out.object).length < 2 ^ 32 := by
    rw [Outgoing.size, encodeAll_append, List.length_append] at small
    omega
  have fits : ∀ call ∈ out.object, call.Fits := fits_of_small (by omega)
  have start : (BufferObjectReader.at' (encodeAll (out.fields ++ out.object)) 0).mCurHeadPos.toNat
      = 0 := rfl
  have position : out.received.mPacketReader.mCurHeadPos.toNat = (encodeAll out.fields).length := by
    rw [Outgoing.received, BufferObjectReader.advance_toNat _ (by rw [start]; omega), start,
      Nat.zero_add]
  have size : out.received.mPacketReader.mData.length =
      (encodeAll out.fields).length + (encodeAll out.object).length := by
    simp [Outgoing.received, BufferObjectReader.at']
  have replays := BufferObjectReader.replays_middle order behind fits
    (s := out.received.mPacketReader) (encodeAll out.fields) []
    (by simp [Outgoing.received, BufferObjectReader.at']) position payload
  refine ⟨_, replays, ?_⟩
  rw [BufferObjectReader.advance_toNat _ (by omega), position, size]

theorem recovered_of_small {out : Outgoing} (small : out.size < 2 ^ 32) :
    Recovered order behind out out.packet out.received := by
  obtain ⟨t, replays, ends⟩ := replays_object order behind small
  refine ⟨rfl, rfl, rfl, t, ObjectReader.answers_of_replays replays, ends, ?_⟩
  have length := Outgoing.sentHeader_length small
  have size : out.received.mPacketReader.mData.length =
      (encodeAll out.fields).length + (encodeAll out.object).length := by
    simp [Outgoing.received, BufferObjectReader.at']
  rw [size, show out.packet.mHeader = out.sentHeader from rfl, length, Outgoing.size,
    encodeAll_append, List.length_append, Nat.add_comm]

/-- Packets that were put on a stream one after the other. -/
theorem recvPackets_append {outs : List Outgoing} (small : ∀ out ∈ outs, out.size < 2 ^ 32)
    (node : Node) {rest : List UInt8}
    (incoming : node.incoming = outs.flatMap Outgoing.bytes ++ rest) :
    ∃ t, Reading.times (recvPacket order behind) outs.length node =
      (.ok (outs.map Outgoing.received), t) ∧ t.incoming = rest := by
  induction outs generalizing node with
  | nil => exact ⟨node, rfl, incoming⟩
  | cons out outs ih =>
    have front : node.incoming = out.bytes ++ (outs.flatMap Outgoing.bytes ++ rest) := by
      rw [incoming, List.flatMap_cons, List.append_assoc]
    obtain ⟨requested, first⟩ := recvPacket_append order behind
      (small out (List.mem_cons_self ..)) node front
    obtain ⟨t, later, left⟩ := ih
      (fun other member => small other (List.mem_cons_of_mem _ member))
      ⟨outs.flatMap Outgoing.bytes ++ rest, requested, out.received.mPacketReader⟩ rfl
    refine ⟨t, ?_, left⟩
    rw [List.length_cons, Reading.times, Reading.bind_of_ok first, Reading.bind_of_ok later]
    rfl

end Node

/-- What is promised for some packets sent one after the other, with `rest` behind them:
each is as long as its header says, the stream is taken apart into the same packets, and
nothing behind them is touched. -/
def ArriveAsSent (senderHost receiverHost : ByteOrder) (behind : Nat → UInt8)
    (outs : List Outgoing) (rest : List UInt8) : Prop :=
  ∃ packets stream received node,
    outs.mapM (Outgoing.create senderHost) = some packets ∧
    (∀ packet ∈ packets,
      packet.mHeader.mPacketLength.toNat = packet.mPacketWriter.mData.length) ∧
    sendAll packets = some stream ∧
    stream = packets.flatMap (·.mPacketWriter.mData) ∧
    Reading.times (Node.recvPacket receiverHost behind) outs.length
      (Node.connected (stream ++ rest)) = (.ok received, node) ∧
    node.incoming = rest ∧ packets.length = outs.length ∧ received.length = outs.length ∧
    ∀ (i : Nat) (out : Outgoing) (packet : Packet) (arrived : Node.Received),
      outs[i]? = some out → packets[i]? = some packet → received[i]? = some arrived →
        Node.Recovered receiverHost behind out packet arrived

/-- Every sequence of packets shorter than `2 ^ 32` bytes arrives as it was sent. -/
theorem packets_round_trip (senderHost receiverHost : ByteOrder) (behind : Nat → UInt8)
    (outs : List Outgoing) (rest : List UInt8) (small : ∀ out ∈ outs, out.size < 2 ^ 32) :
    ArriveAsSent senderHost receiverHost behind outs rest := by
  have created : outs.mapM (Outgoing.create senderHost) = some (outs.map Outgoing.packet) :=
    Outgoing.createAll_of_small senderHost small
  obtain ⟨node, received, left⟩ := Node.recvPackets_append receiverHost behind small
    (Node.connected (outs.flatMap Outgoing.bytes ++ rest)) rfl
  refine ⟨outs.map Outgoing.packet, outs.flatMap Outgoing.bytes, outs.map Outgoing.received,
    node, created, ?_, Outgoing.sendAll_of_small small, ?_, received, left, List.length_map _,
    List.length_map _, ?_⟩
  · intro packet member
    obtain ⟨out, here, rfl⟩ := List.mem_map.mp member
    exact (Outgoing.sentHeader_length (small out here)).trans out.length_bytes.symm
  · rw [List.flatMap_map]
    rfl
  · intro i out packet arrived hout hpacket harrived
    rw [List.getElem?_map, hout] at hpacket harrived
    obtain rfl := Option.some.inj hpacket
    obtain rfl := Option.some.inj harrived
    exact Node.recovered_of_small receiverHost behind (small out (List.mem_of_getElem? hout))

/-- The end of frame 70000, a configuration, and the data of a device. -/
def sampleOutgoing : List Outgoing :=
  [.endBlock 70000, .configPacket [60, 97, 62] 2,
    .dataPacket ConfigPacket.pluginId .null [.beginTag "a", .write .uint16 513, .endTag]]

theorem packets_round_trip_sampleOutgoing :
    ArriveAsSent .bigEndian .littleEndian (fun _ => 0) sampleOutgoing [1, 2] :=
  packets_round_trip .bigEndian .littleEndian (fun _ => 0) sampleOutgoing [1, 2] (by decide)

/-- The header of a longer packet does not hold its length. -/
theorem not_arriveAsSent_of_long (senderHost receiverHost : ByteOrder) (behind : Nat → UInt8)
    {out : Outgoing} (fits : ∀ call ∈ out.fields ++ out.object, call.Fits)
    (long : 2 ^ 32 ≤ out.size) : ¬ ArriveAsSent senderHost receiverHost behind [out] [] := by
  rintro ⟨packets, stream, received, node, created, lengths, -⟩
  have alone : [out].mapM (Outgoing.create senderHost) = some [out.packet] := by
    rw [List.mapM_cons, Outgoing.create_of_fits senderHost fits]
    rfl
  obtain rfl := Option.some.inj (alone.symm.trans created)
  have length : out.packet.mHeader.mPacketLength.toNat = out.bytes.length :=
    lengths out.packet (List.mem_singleton.mpr rfl)
  have bound := out.packet.mHeader.mPacketLength.toNat_lt
  rw [length, Outgoing.length_bytes] at bound
  omega

theorem Outgoing.size_configPacket (config : List UInt8) (type : UInt16) :
    (Outgoing.configPacket config type).size = 12 + (4 + (config.length + 2)) := by
  simp [Outgoing.size, Outgoing.fields, Outgoing.object, ConfigPacket.calls, Call.encode,
    encode, RIM_PACKET_HEAD_SIZE]

theorem Outgoing.configPacket_fits {config : List UInt8} (type : UInt16)
    (short : config.length < 2 ^ 32) :
    ∀ call ∈ (Outgoing.configPacket config type).fields ++
      (Outgoing.configPacket config type).object, call.Fits := by
  intro call member
  rcases List.mem_cons.mp member with rfl | member
  · exact short
  · obtain rfl := List.mem_singleton.mp member
    trivial

/-- A configuration of `2 ^ 32 - 1` characters. -/
theorem packets_round_trip_fails :
    ∃ outs : List Outgoing, ¬ ArriveAsSent .littleEndian .littleEndian (fun _ => 0) outs [] := by
  have short : longString.length < 2 ^ 32 := length_longString.trans_lt (by decide)
  have long : 2 ^ 32 ≤ (Outgoing.configPacket longString 0).size := by
    rw [Outgoing.size_configPacket, length_longString]
    decide
  exact ⟨_, not_arriveAsSent_of_long _ _ _ (Outgoing.configPacket_fits 0 short) long⟩

end VRJuggler.Cluster
