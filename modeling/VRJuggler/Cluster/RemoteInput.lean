import VRJuggler.Cluster.ApplicationData
import VRJuggler.Cluster.RIMPlugin
import VRJuggler.Gadget.DeviceData

/-!
# Remote input

`cluster::RIMPlugin` on the nodes of a star cluster. When the master is configured with an input
device it keeps a server for it and acknowledges it to all slaves, which make a virtual device of
the same type. In `postPostFrame` the master writes every device into the packet of its server and
sends it to all slaves; then all nodes go through `NetworkManager::update`, in which a slave reads
the packets into its virtual devices. What is on the network is bytes.
-/
namespace VRJuggler.RemoteInput

open VRJuggler (ByteOrder)
open VRJuggler.Cluster (GUID Packet Outgoing RIMPlugin RimLibrary RimPacket VirtualDevice)
open VRJuggler.Gadget (Host InputType DeviceTypes InputManager starNeighbours)
open VRJuggler.Io

def mHandlerGUID : GUID where
  m0 := 0x9c3fb301
  m1 := 0xb142
  m2 := 0x4c6f
  m3 := 0x8c
  m4 := 0xa3
  m5 := #v[0x15, 0x70, 0x89, 0x89, 0x74, 0xd0]

/-! ## Names -/

/-- The characters of a `std::string`. -/
def text (bytes : List UInt8) : String :=
  String.ofList (bytes.map fun byte => Char.ofNat byte.toNat)

/-- The bytes of a string with one byte for every character. -/
def bytes (characters : String) : List UInt8 :=
  characters.toList.map fun c => UInt8.ofNat c.toNat

/-! ## `BaseTypeFactory` -/

/-- The types that `hackLoadKnownDevices` registers, except those of the keyboard and of simulated
devices. -/
def hackLoadKnownDevices : List InputType :=
  [ .inputMixer .input .digital,
    .inputMixer .input .analog,
    .inputMixer .input .position,
    .inputMixer .input .string,
    .inputMixer .input .command,
    .inputMixer (.inputMixer .input .command) .analog,
    .inputMixer .input .glove,
    .inputMixer (.inputMixer .input .digital) .analog,
    .inputMixer (.inputMixer .input .digital) .position,
    .inputMixer (.inputMixer .input .analog) .position,
    .inputMixer (.inputMixer .input .glove) .digital,
    .inputMixer (.inputMixer (.inputMixer (.inputMixer .input .glove) .digital) .analog) .position,
    .inputMixer (.inputMixer (.inputMixer .input .digital) .analog) .position ]

/-- The creator that was registered first under a name stays. -/
def createObject (device_base_type : String) : Option InputType :=
  hackLoadKnownDevices.find? fun type => type.getInputTypeName = device_base_type

/-- A device of `MixedPlaceholderType`: it has no samples. -/
def placeholder : (type : InputType) → type.Device
  | .input => ()
  | .digital | .analog | .position | .command | .string | .glove => ⟨[], []⟩
  | .inputMixer composedParent newParent => (placeholder composedParent, placeholder newParent)

/-- A device that the factory made: its type, and how many there were before. -/
abbrev Created : Type := InputType × Nat

/-- What is in a device. -/
abbrev Contents : Type := (type : InputType) × type.Device

/-! ## The nodes -/

/-- What is given: the name and the type of the device that the master serves under an id, the
byte order of each node, the name of the master's host, the difference between the clock of the
master and that of each node, and what the library does. -/
structure Site (n : Nat) (τ : Type) where
  name : GUID → List UInt8
  type : GUID → InputType
  order : Host n → ByteOrder
  behind : Nat → UInt8
  mHostname : List UInt8
  mDelta : Host n → UInt64
  types : DeviceTypes Created τ
  rehash : Rehash GUID (VirtualDevice GUID Created)

abbrev Plugin (τ π : Type) : Type := RIMPlugin GUID Created τ π Contents

/-- What the thread of the kernel does on a node. While the master sends a packet it has some
nodes left, and in `postPostFrame` also some servers. -/
inductive Thread (n : Nat) where
  | beforeDraw
  | sendAck (drawn : Bool) (nodes : List (Host n)) (id : GUID) (device_ack : Packet)
  | updateDraw
  | afterDraw
  | postPostFrame (servers : List GUID)
  | sendData (nodes : List (Host n)) (id : GUID) (servers : List GUID)
  | updatePost
  deriving DecidableEq

/-- The thread is in `NetworkManager::update`. -/
def Thread.updating {n : Nat} : Thread n → Bool
  | .updateDraw | .updatePost => true
  | .beforeDraw | .sendAck .. | .afterDraw | .postPostFrame _ | .sendData .. => false

/-- The devices under all ids. -/
abbrev Devices (type : GUID → InputType) : Type := (id : GUID) → (type id).Device

/-- The servers of the master and their devices at a call of `postPostFrame`. -/
structure Post (type : GUID → InputType) where
  servers : List GUID
  devices : Devices type

/-- `mDeviceServers` has the ids of the servers. `posted` records what the master had at its calls
of `postPostFrame`, `shown` what the plugin of each node was when `postPostFrame` returned. -/
structure State (n : Nat) (τ π : Type) (type : GUID → InputType) where
  cluster : Gadget.Cluster (Host n) (List UInt8)
  thread : Host n → Thread n
  plugin : Host n → Plugin τ π
  mDeviceServers : List GUID
  devices : Devices type
  mDataPacket : GUID → Packet
  posted : List (Post type)
  shown : Host n → List (Plugin τ π)

inductive Act (n : Nat) (type : GUID → InputType) where
  | change (id : GUID) (device : (type id).Device)
  | configAdd (id : GUID)
  | postPostFrame (i : Host n)
  | updateLocalData
  | send
  | update (i : Host n)
  | sendEndBlock (i : Host n)
  | select (i : Host n) (answer : Gadget.Poll (Host n))
  | recv (i : Host n)
  | next (i : Host n)
  | plugin (i j : Host n) (out : Outgoing)

/-- `DataPacket::create` of a new server; nothing is written yet. -/
def createPacket (id : GUID) : Packet where
  mHeader := Cluster.Header.create Cluster.RIM_PACKET Cluster.RIM_DATA_PACKET
    (Cluster.RIM_PACKET_HEAD_SIZE + 16 + 16) 0
  mPluginId := mHandlerGUID
  body := .dataPacket id
  mPacketWriter := .empty

/-- A received packet, as the plugin takes it. -/
def rimPacket (received : Cluster.Node.Received) : RimPacket GUID BufferObjectReader :=
  match received.body with
  | .deviceAck mId mDeviceName mDeviceBaseType mHostname _ =>
    .deviceAck mId (text mDeviceName) (text mDeviceBaseType) (text mHostname)
  | .dataPacket mObjectId => .dataPacket mObjectId received.mPacketReader
  | .configPacket .. | .endBlock _ => .other received.mHeader.mPacketType.toNat

section Nodes

variable {n : Nat} {τ π : Type} [DecidableEq π] (site : Site n τ)

namespace Site

/-- The packet that tells of the device with an id. -/
def deviceAck (id : GUID) : Outgoing :=
  .deviceAck site.mHostname mHandlerGUID id (site.name id) (bytes (site.type id).getInputTypeName)
    true

/-- `readObject` of a device, with the delta that is an attribute of the reader. -/
def readObject (i : Host n) (reader : BufferObjectReader) (delta : Nat) (contents : Contents) :
    Except Fault Contents :=
  (contents.1.readObject (BufferObjectReader.reader site.behind (site.order i))
    (UInt64.ofNat delta) contents.2 reader).1.map (Sigma.mk contents.1)

/-- What the plugin uses on a node. No server is removed here. -/
def library (i : Host n) : RimLibrary Created τ BufferObjectReader Contents where
  types := site.types
  createObject device_base_type created :=
    (createObject device_base_type).map fun type => (type, created)
  readObject reader delta contents :=
    match site.readObject i reader delta contents with
    | .ok read => read
    -- not come to, because `throws` is asked first
    | .error _ => contents
  leftover := fun _ _ => none

/-- The node that packets come from, as node `i` has it. -/
def node (i : Host n) : Cluster.RimNode where
  hostname := text site.mHostname
  delta := (site.mDelta i).toNat

/-- An exception of `readObject` is not caught. -/
def throws (i : Host n) (plugin : Plugin τ π) : RimPacket GUID BufferObjectReader → Bool
  | .dataPacket objectId reader =>
    match plugin.getVirtualDevice objectId with
    | some dev =>
      match site.readObject i reader (site.node i).delta (plugin.contents dev) with
      | .ok _ => false
      | .error _ => true
    | none => false
  | .deviceAck .. | .other _ => false

/-- `RIMPlugin::handlePacket`, through the one of the network manager. The result is `none` if an
exception escapes. -/
def handlePacket (i : Host n) (received : Cluster.Node.Received) (plugin : Plugin τ π) :
    Option (Plugin τ π) :=
  if received.mPluginId = mHandlerGUID then
    if site.throws i plugin (rimPacket received) then none
    else
      match plugin.handlePacket (site.library i) site.rehash (some (rimPacket received))
        (some (site.node i)) with
      | (handled, none) => some handled
      | (_, some _) => none
  else some plugin

/-- The packet that the bytes are, handled at a node. -/
def deliver (i : Host n) (plugin : Plugin τ π) : Gadget.Packet (List UInt8) → Option (Plugin τ π)
  | .endBlock _ => some plugin
  | .other bytes =>
    match (Cluster.Node.recvPacket (site.order i) site.behind (.connected bytes)).1 with
    | .ok received => site.handlePacket i received plugin
    -- the bytes are no packet, and `recvPacket` has thrown
    | .error _ => none

end Site

/-- The plugin of a node at the start. A device that will be made has no samples. -/
def create (inputManager : InputManager Created τ π) : Plugin τ π :=
  RIMPlugin.create inputManager fun dev => ⟨dev.1, placeholder dev.1⟩

/-- Some devices, and no server yet, with all connections made. -/
def start (inputManager : Host n → InputManager Created τ π) (devices : Devices site.type) :
    State n τ π site.type where
  cluster := .start starNeighbours
  thread := fun _ => .beforeDraw
  plugin := fun i => create (inputManager i)
  mDeviceServers := []
  devices := devices
  mDataPacket := createPacket
  posted := []
  shown := fun _ => []

namespace State

variable (s : State n τ π site.type)

def setThread (i : Host n) (thread : Thread n) : State n τ π site.type :=
  { s with thread := Function.update s.thread i thread }

/-- The master updates its devices between the calls of the cluster manager. -/
def change (id : GUID) (device : (site.type id).Device) : Option (State n τ π site.type) :=
  match s.thread .master with
  | .beforeDraw | .afterDraw => some { s with devices := Function.update s.devices id device }
  | _ => none

/-- A server is added, and the loop over the nodes that are told begins. -/
def addDeviceServer (drawn : Bool) (id : GUID) : Option (State n τ π site.type) :=
  ((site.deviceAck id).create (site.order .master)).map fun device_ack =>
    { s.setThread site .master
        (.sendAck drawn (s.cluster.manager .master).mNodes id device_ack) with
      mDeviceServers := s.mDeviceServers ++ [id] }

/-- `RIMPlugin::configAdd` on the master, before the first frame or in `checkForReconfig`. -/
def configAdd (id : GUID) : Option (State n τ π site.type) :=
  match s.thread .master with
  | .beforeDraw => s.addDeviceServer site false id
  | .afterDraw => s.addDeviceServer site true id
  | _ => none

/-- Only the master has servers. -/
def postPostFrame : Host n → Option (State n τ π site.type)
  | .master =>
    match s.thread .master with
    | .afterDraw => some { s.setThread site .master (.postPostFrame s.mDeviceServers) with
        posted := s.posted ++ [⟨s.mDeviceServers, s.devices⟩] }
    | _ => none
  | .slave k =>
    match s.thread (.slave k) with
    -- the loop over the servers ends before it begins
    | .afterDraw => some (s.setThread site (.slave k) (.postPostFrame []))
    | _ => none

/-- `updateLocalData` of the next server, and `send` up to the loop over the nodes. -/
def updateLocalData : Option (State n τ π site.type) :=
  match s.thread .master with
  | .postPostFrame (id :: servers) =>
    (ApplicationData.serialize (site.order .master) (s.mDataPacket id)
        ((site.type id).writeObject (s.devices id))).map fun packet =>
      { s.setThread site .master (.sendData (s.cluster.manager .master).mNodes id servers) with
        mDataPacket := Function.update s.mDataPacket id packet }
  | _ => none

/-- A packet is put on the connection to a node. -/
def sendTo (j : Host n) (packet : Packet) (thread : Thread n) : Option (State n τ π site.type) :=
  (Cluster.send packet []).bind fun bytes =>
    (s.cluster.step (.send .master j bytes)).map fun cluster =>
      { s.setThread site .master thread with cluster := cluster }

/-- `sendToAll`: one node more, or the end of the loop. -/
def sendNext : Option (State n τ π site.type) :=
  match s.thread .master with
  | .sendAck drawn [] _ _ =>
    some (s.setThread site .master (if drawn then .afterDraw else .beforeDraw))
  | .sendAck drawn (j :: nodes) id device_ack =>
    s.sendTo site j device_ack (.sendAck drawn nodes id device_ack)
  | .sendData [] _ servers => some (s.setThread site .master (.postPostFrame servers))
  | .sendData (j :: nodes) id servers =>
    s.sendTo site j (s.mDataPacket id) (.sendData nodes id servers)
  | _ => none

/-- The call of `update` at the end of `preDraw` and `postPostFrame`. -/
def update (i : Host n) : Option (State n τ π site.type) :=
  match s.thread i with
  | .beforeDraw => (s.cluster.step (.update i 2)).map fun cluster =>
      { s.setThread site i .updateDraw with cluster := cluster }
  | .postPostFrame [] => (s.cluster.step (.update i 3)).map fun cluster =>
      { s.setThread site i .updatePost with cluster := cluster }
  | _ => none

/-- A step of `update` that handles no packet and does not return. -/
def go (i : Host n) (act : Gadget.Act (Host n) (List UInt8)) : Option (State n τ π site.type) :=
  if (s.thread i).updating then
    (s.cluster.step act).map fun cluster => { s with cluster := cluster }
  else none

/-- The packet at the head of the stream is received and handled. -/
def recvNext (i : Host n) : Option (State n τ π site.type) :=
  if (s.thread i).updating then
    match (s.cluster.manager i).phase with
    | .receive _ _ _ j _ =>
      (s.cluster.link j i).head?.bind fun p =>
        (site.deliver i (s.plugin i) p).bind fun plugin =>
          (s.cluster.step (.recv i)).map fun cluster =>
            { s with cluster := cluster, plugin := Function.update s.plugin i plugin }
    | _ => none
  else none

/-- `update` has returned. -/
def returned (i : Host n) : State n τ π site.type :=
  match s.thread i with
  | .updatePost => { s.setThread site i .beforeDraw with
      shown := Function.update s.shown i (s.shown i ++ [s.plugin i]) }
  | _ => s.setThread site i .afterDraw

/-- A test of a loop of `update`, after which it may return. -/
def nextTest (i : Host n) : Option (State n τ π site.type) :=
  (s.go site i (.next i)).map fun t =>
    if (t.cluster.manager i).phase = .idle then t.returned site i else t

/-- Another plugin sends a packet of its own. -/
def pluginSend (i j : Host n) (out : Outgoing) : Option (State n τ π site.type) :=
  if out.pluginId ≠ mHandlerGUID ∧ out.header.mPacketType ≠ Cluster.RIM_END_BLOCK ∧
      out.size < 2 ^ 32 then
    (out.create (site.order i)).bind fun packet => (Cluster.send packet []).bind fun bytes =>
      (s.cluster.step (.send i j bytes)).map fun cluster => { s with cluster := cluster }
  else none

def step : Act n site.type → Option (State n τ π site.type)
  | .change id device => s.change site id device
  | .configAdd id => s.configAdd site id
  | .postPostFrame i => s.postPostFrame site i
  | .updateLocalData => s.updateLocalData site
  | .send => s.sendNext site
  | .update i => s.update site i
  | .sendEndBlock i => s.go site i (.sendEndBlock i)
  | .select i answer => s.go site i (.select i answer)
  | .recv i => s.recvNext site i
  | .next i => s.nextTest site i
  | .plugin i j out => s.pluginSend site i j out

end State

end Nodes

end VRJuggler.RemoteInput
