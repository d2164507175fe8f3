import VRJuggler.Cluster.PacketRoundTrip
import VRJuggler.Gadget.Cluster

/-!
# Application data

`cluster::ApplicationDataManager` on the nodes of a star cluster. In `ClusterManager::preDraw`
the master writes every registered object into a packet that it keeps for the object and sends
it to all slaves; then all nodes go through `NetworkManager::update`, in which a slave reads the
objects back from the packets. `postPostFrame` goes through `update` once more. What is on the
network is bytes.
-/
namespace VRJuggler.ApplicationData

open VRJuggler (ByteOrder)
open VRJuggler.Cluster (GUID Packet Outgoing)
open VRJuggler.Gadget (Host starNeighbours)
open VRJuggler.Io

def mPluginGUID : GUID where
  m0 := 0xcc6ca39f
  m1 := 0x03f2
  m2 := 0x4779
  m3 := 0xaa
  m4 := 0x4b
  m5 := #v[0x04, 0x8f, 0x77, 0x4f, 0xf9, 0xa5]

/-! ## Objects and their packets -/

/-- A `vpr::SerializableObject` with the values that it can have. `readObject` starts from the
value that the object has. -/
structure SerializableObject (V : Type) where
  writeObject : V → List Call
  readObject : {σ : Type} → ObjectReader σ → V → Reading σ V

/-- `DataPacket::create` with an object's id; nothing is written yet. -/
def createPacket (id : GUID) : Packet where
  mHeader := Cluster.Header.create Cluster.RIM_PACKET Cluster.RIM_DATA_PACKET
    (Cluster.RIM_PACKET_HEAD_SIZE + 16 + 16) 0
  mPluginId := mPluginGUID
  body := .dataPacket id
  mPacketWriter := .empty

/-- `DataPacket::serialize` on a packet that may have been used before. -/
def serialize (order : ByteOrder) (packet : Packet) (object : List Call) : Option Packet :=
  match packet.body with
  | .dataPacket mObjectId =>
    Cluster.serialize order packet.mHeader packet.mPluginId packet.body
      (Cluster.DataPacket.calls packet.mPluginId mObjectId object)
  | .deviceAck .. | .configPacket .. | .endBlock _ => none

/-! ## The nodes -/

/-- What the thread of the kernel does on a node. In `preDraw` the master has some servers left,
and while it sends a packet also some nodes. -/
inductive Thread (n : Nat) where
  | beforeDraw
  | preDraw (servers : List GUID)
  | sendToAll (nodes : List (Host n)) (id : GUID) (servers : List GUID)
  | updateDraw
  | afterDraw
  | updatePost
  deriving DecidableEq

/-- The thread is in `NetworkManager::update`. -/
def Thread.updating {n : Nat} : Thread n → Bool
  | .updateDraw | .updatePost => true
  | .beforeDraw | .preDraw _ | .sendToAll .. | .afterDraw => false

/-- Values of all objects. -/
abbrev Values (V : GUID → Type) : Type := (id : GUID) → V id

/-- `drawn` records the objects of the master at its calls of `preDraw`, `shown` those of each
node when `preDraw` returned. -/
structure State (n : Nat) (V : GUID → Type) where
  cluster : Gadget.Cluster (Host n) (List UInt8)
  thread : Host n → Thread n
  objects : Host n → Values V
  mDataPacket : GUID → Packet
  drawn : List (Values V)
  shown : Host n → List (Values V)

inductive Act (n : Nat) (V : GUID → Type) where
  | change (i : Host n) (id : GUID) (value : V id)
  | preDraw (i : Host n)
  | serialize
  | send
  | postPostFrame (i : Host n)
  | update (i : Host n)
  | sendEndBlock (i : Host n)
  | select (i : Host n) (answer : Gadget.Poll (Host n))
  | recv (i : Host n)
  | next (i : Host n)
  | plugin (i j : Host n) (out : Outgoing)

section Nodes

variable {n : Nat} {V : GUID → Type} (object : (id : GUID) → SerializableObject (V id))
  (ids : List GUID) (order : Host n → ByteOrder) (behind : Nat → UInt8)

/-- Some values, with all connections made. -/
def start (objects : Host n → Values V) : State n V where
  cluster := .start starNeighbours
  thread := fun _ => .beforeDraw
  objects := objects
  mDataPacket := createPacket
  drawn := []
  shown := fun _ => []

/-- `ApplicationDataManager::handlePacket`, through the one of the network manager. The result
is `none` if an exception escapes. -/
def handlePacket (order : ByteOrder) (received : Cluster.Node.Received) (objects : Values V) :
    Option (Values V) :=
  if received.mPluginId = mPluginGUID then
    match received.body with
    | .dataPacket mObjectId =>
      if mObjectId ∈ ids then
        match ((object mObjectId).readObject (BufferObjectReader.reader behind order)
            (objects mObjectId) received.mPacketReader).1 with
        | .ok value => some (Function.update objects mObjectId value)
        | .error _ => none
      else some objects
    | .deviceAck .. | .configPacket .. | .endBlock _ => some objects
  else some objects

/-- The packet that the bytes are, handled at a node. -/
def deliver (order : ByteOrder) (objects : Values V) : Gadget.Packet (List UInt8) →
    Option (Values V)
  | .endBlock _ => some objects
  | .other bytes =>
    match (Cluster.Node.recvPacket order behind (.connected bytes)).1 with
    | .ok received => handlePacket object ids behind order received objects
    | .error _ => none

namespace State

variable (s : State n V)

def setThread (i : Host n) (thread : Thread n) : State n V :=
  { s with thread := Function.update s.thread i thread }

/-- The application may change objects between the calls of the cluster manager. -/
def change (i : Host n) (id : GUID) (value : V id) : Option (State n V) :=
  match s.thread i with
  | .beforeDraw | .afterDraw => some { s with
      objects := Function.update s.objects i (Function.update (s.objects i) id value) }
  | .preDraw _ | .sendToAll .. | .updateDraw | .updatePost => none

/-- Only the master has servers. -/
def preDraw : Host n → Option (State n V)
  | .master =>
    match s.thread .master with
    | .beforeDraw => some { s.setThread .master (.preDraw ids) with
        drawn := s.drawn ++ [s.objects .master] }
    | _ => none
  | .slave k =>
    match s.thread (.slave k) with
    | .beforeDraw => some (s.setThread (.slave k) (.preDraw []))
    | _ => none

/-- `serializeAndSend` of the next server, up to the loop over the nodes. -/
def serializeNext : Option (State n V) :=
  match s.thread .master with
  | .preDraw (id :: servers) =>
    (serialize (order .master) (s.mDataPacket id)
        ((object id).writeObject (s.objects .master id))).map fun packet =>
      { s.setThread .master (.sendToAll (s.cluster.manager .master).mNodes id servers) with
        mDataPacket := Function.update s.mDataPacket id packet }
  | _ => none

/-- `sendToAll`: one node more, or the end of the loop. -/
def sendNext : Option (State n V) :=
  match s.thread .master with
  | .sendToAll [] _ servers => some (s.setThread .master (.preDraw servers))
  | .sendToAll (j :: nodes) id servers =>
    (Cluster.send (s.mDataPacket id) []).bind fun bytes =>
      (s.cluster.step (.send .master j bytes)).map fun cluster =>
        { s.setThread .master (.sendToAll nodes id servers) with cluster := cluster }
  | _ => none

/-- The call of `update` at the end of `preDraw` and `postPostFrame`. -/
def beginUpdate (i : Host n) (temp : Nat) (thread : Thread n) : Option (State n V) :=
  (s.cluster.step (.update i temp)).map fun cluster =>
    { s.setThread i thread with cluster := cluster }

/-- A step of `update` that handles no packet and does not return. -/
def go (i : Host n) (act : Gadget.Act (Host n) (List UInt8)) : Option (State n V) :=
  if (s.thread i).updating then
    (s.cluster.step act).map fun cluster => { s with cluster := cluster }
  else none

/-- The packet at the head of the stream is received and handled. -/
def recvNext (i : Host n) : Option (State n V) :=
  if (s.thread i).updating then
    match (s.cluster.manager i).phase with
    | .receive _ _ _ j _ =>
      (s.cluster.link j i).head?.bind fun p =>
        (deliver object ids behind (order i) (s.objects i) p).bind fun objects =>
          (s.cluster.step (.recv i)).map fun cluster =>
            { s with cluster := cluster, objects := Function.update s.objects i objects }
    | _ => none
  else none

/-- `update` has returned. -/
def returned (i : Host n) : State n V :=
  match s.thread i with
  | .updateDraw => { s.setThread i .afterDraw with
      shown := Function.update s.shown i (s.shown i ++ [s.objects i]) }
  | _ => s.setThread i .beforeDraw

/-- A test of a loop of `update`, after which it may return. -/
def nextTest (i : Host n) : Option (State n V) :=
  (s.go i (.next i)).map fun t =>
    if (t.cluster.manager i).phase = .idle then t.returned i else t

/-- Another plugin sends a packet of its own. -/
def pluginSend (i j : Host n) (out : Outgoing) : Option (State n V) :=
  if out.pluginId ≠ mPluginGUID ∧ out.header.mPacketType ≠ Cluster.RIM_END_BLOCK ∧
      out.size < 2 ^ 32 then
    (out.create (order i)).bind fun packet => (Cluster.send packet []).bind fun bytes =>
      (s.cluster.step (.send i j bytes)).map fun cluster => { s with cluster := cluster }
  else none

def step : Act n V → Option (State n V)
  | .change i id value => s.change i id value
  | .preDraw i => s.preDraw ids i
  | .serialize => s.serializeNext object order
  | .send => s.sendNext
  | .postPostFrame i => if s.thread i = .afterDraw then s.beginUpdate i 3 .updatePost else none
  | .update i => if s.thread i = .preDraw [] then s.beginUpdate i 2 .updateDraw else none
  | .sendEndBlock i => s.go i (.sendEndBlock i)
  | .select i answer => s.go i (.select i answer)
  | .recv i => s.recvNext object ids order behind i
  | .next i => s.nextTest i
  | .plugin i j out => s.pluginSend order i j out

end State

end Nodes

end VRJuggler.ApplicationData
