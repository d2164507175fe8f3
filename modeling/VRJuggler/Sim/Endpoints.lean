import Mathlib.Logic.Function.Basic
import VRJuggler.Sim.Network

/-!
# Sockets, ports and listeners

The sockets of the simulation (`vpr::SocketImplSIM` and its two subclasses) and the
registries that know them: the list of listening sockets of the socket manager, and
the two port tables of every network node. Operations that also move messages or
schedule events say so in their result; that part is in the run of the simulator.

As before, a function is `none` where the source has no defined behaviour.
-/
namespace VRJuggler.Sim

inductive SocketType where
  | stream
  | datagram
  deriving DecidableEq, Repr

structure InetAddr where
  address : Nat
  port : Nat
  deriving DecidableEq, Repr

def LocalHostIpAddrValue : Nat := 0x7F000001

def InetAddr.AnyAddr : InetAddr := ⟨LocalHostIpAddrValue, 0⟩

/-- `calledListen` records that the socket has called `listen` and was neither closed
nor unbound since. -/
structure Socket (σ : Type) where
  mType : SocketType
  mOpen : Bool
  mBound : Bool
  mBlocking : Bool
  mLocalAddr : InetAddr
  mRemoteAddr : InetAddr
  mConnected : Bool
  mPeer : Option σ
  mNetworkNode : Option Vertex
  mPathToPeer : Option (List Vertex)
  mConnectorQueue : List σ
  calledListen : Bool

/-- The constructor. -/
def Socket.new {σ : Type} (sockType : SocketType) (blocking : Bool) : Socket σ where
  mType := sockType
  mOpen := false
  mBound := false
  mBlocking := blocking
  mLocalAddr := .AnyAddr
  mRemoteAddr := .AnyAddr
  mConnected := false
  mPeer := none
  mNetworkNode := none
  mPathToPeer := none
  mConnectorQueue := []
  calledListen := false

/-- `SocketImplSIM::setConnectState`. -/
def Socket.setConnectState {σ : Type} (s : Socket σ) (peer : Option σ) : Socket σ :=
  { s with mPeer := peer, mConnected := peer.isSome }

/-! ### Port tables -/

/-- `NetworkNode::getUnassignedTcpPortNumber` and its twin for UDP: one after the first
port whose successor is not in the table. Ports have 32 bits. -/
def unassignedAfter : List Nat → Nat
  | [] => 1
  | [k] => (k + 1) % 2 ^ 32
  | k :: next :: rest =>
    if next ≠ (k + 1) % 2 ^ 32 then (k + 1) % 2 ^ 32 else unassignedAfter (next :: rest)

/-- `NetworkNode`: the two maps from ports to sockets, chosen by the type. -/
structure NetworkNode (σ : Type) where
  socketMap : SocketType → SortedMap Nat σ

namespace NetworkNode

variable {σ : Type}

def getSocket (n : NetworkNode σ) (port : Nat) (type : SocketType) : Option σ :=
  (n.socketMap type).find port

def getUnassignedPortNumber (n : NetworkNode σ) (type : SocketType) : Nat :=
  unassignedAfter (n.socketMap type).keys

/-- `addSocket`: a socket that is there already is overwritten. -/
def addSocket (n : NetworkNode σ) (port : Nat) (type : SocketType) (sock : σ) : NetworkNode σ :=
  ⟨Function.update n.socketMap type ((n.socketMap type).insert port sock)⟩

/-- `removeSocket` removes what stands under the port. -/
def removeSocket (n : NetworkNode σ) (port : Nat) (type : SocketType) : NetworkNode σ :=
  ⟨Function.update n.socketMap type ((n.socketMap type).erase port)⟩

end NetworkNode

/-! ### The socket manager -/

/-- All sockets with the registries of `SocketManager`. `mNetworkNodes` are the nodes
that were registered, by their address. -/
structure Endpoints (σ : Type) where
  sock : σ → Socket σ
  mListenerList : InetAddr → Option σ
  mNetworkNodes : Nat → Option Vertex
  node : Vertex → NetworkNode σ

namespace Endpoints

variable {σ : Type} [DecidableEq σ]

def start (type : σ → SocketType) (blocking : σ → Bool) : Endpoints σ where
  sock := fun i => .new (type i) (blocking i)
  mListenerList := fun _ => none
  mNetworkNodes := fun _ => none
  node := fun _ => ⟨fun _ => .empty⟩

def setSock (e : Endpoints σ) (i : σ) (s : Socket σ) : Endpoints σ :=
  { e with sock := Function.update e.sock i s }

def setNode (e : Endpoints σ) (v : Vertex) (n : NetworkNode σ) : Endpoints σ :=
  { e with node := Function.update e.node v n }

/-- `SocketManager::isListening`. -/
def isListening (e : Endpoints σ) (address : InetAddr) : Bool := (e.mListenerList address).isSome

/-! ### Opening and addresses -/

/-- `SocketImplSIM::open`. -/
def open_ (e : Endpoints σ) (i : σ) : Endpoints σ :=
  e.setSock i { e.sock i with mOpen := true }

def setLocalAddr (e : Endpoints σ) (i : σ) (addr : InetAddr) : Endpoints σ :=
  if (e.sock i).mBound then e else e.setSock i { e.sock i with mLocalAddr := addr }

def setRemoteAddr (e : Endpoints σ) (i : σ) (addr : InetAddr) : Endpoints σ :=
  if (e.sock i).mConnected then e else e.setSock i { e.sock i with mRemoteAddr := addr }

/-! ### Binding -/

def ensureNetworkNodeIsRegistered (e : Endpoints σ) (g : NetworkGraph) (ipAddr : Nat) :
    Option (Endpoints σ) :=
  match e.mNetworkNodes ipAddr with
  | some _ => some e
  | none =>
    match g.getNodeWithAddr ipAddr with
    | some v => some { e with mNetworkNodes := Function.update e.mNetworkNodes ipAddr (some v) }
    | none => none

/-- The port under which `assignToNode` registers the socket at the node `v`. A bound
socket keeps its address, whatever it is. -/
def chosenPort (e : Endpoints σ) (v : Vertex) (i : σ) : Nat :=
  let s := e.sock i
  if s.mBound then s.mLocalAddr.port
  else if s.mLocalAddr.port = 0 then (e.node v).getUnassignedPortNumber s.mType
  else s.mLocalAddr.port

/-- `SocketManager::assignToNode`. -/
def assignToNode (e : Endpoints σ) (g : NetworkGraph) (i : σ) : Option (Endpoints σ) :=
  let local_addr := (e.sock i).mLocalAddr
  let local_addr : InetAddr :=
    if local_addr = .AnyAddr then ⟨LocalHostIpAddrValue, 0⟩ else local_addr
  (e.ensureNetworkNodeIsRegistered g local_addr.address).bind fun e =>
    (e.mNetworkNodes local_addr.address).bind fun v =>
      let port_num := if local_addr.port = 0
        then (e.node v).getUnassignedPortNumber (e.sock i).mType else local_addr.port
      let e := e.setLocalAddr i ⟨local_addr.address, port_num⟩
      let e := e.setNode v
        ((e.node v).addSocket (e.sock i).mLocalAddr.port (e.sock i).mType i)
      (g.getNodeWithAddr local_addr.address).map fun node_vertex =>
        e.setSock i { e.sock i with mNetworkNode := some node_vertex }

/-- `SocketImplSIM::bind`. -/
def bind (e : Endpoints σ) (g : NetworkGraph) (i : σ) : Option (Endpoints σ) :=
  (e.assignToNode g i).map fun e => e.setSock i { e.sock i with mBound := true }

/-- `SocketManager::unbind`. The socket itself is not told. -/
def unbind (e : Endpoints σ) (i : σ) : Option (Endpoints σ) :=
  let s := e.sock i
  (e.mNetworkNodes s.mLocalAddr.address).map fun v =>
    let e := e.setNode v ((e.node v).removeSocket s.mLocalAddr.port s.mType)
    e.setSock i { e.sock i with calledListen := false }

/-! ### Connections -/

/-- `SocketManager::listen`; only stream sockets have it. -/
def listen (e : Endpoints σ) (i : σ) : Option (Endpoints σ) :=
  match (e.sock i).mType with
  | .stream =>
    let e := { e with
      mListenerList := Function.update e.mListenerList (e.sock i).mLocalAddr (some i) }
    some (e.setSock i { e.sock i with calledListen := true })
  | .datagram => none

/-- `SocketManager::connect`, with the listener that is asked. A datagram socket finds
no datagram socket among the listeners, and a null pointer is followed. -/
def connectTo (e : Endpoints σ) (i : σ) : Option (Endpoints σ × Option σ) :=
  match (e.sock i).mType with
  | .stream =>
    match e.mListenerList (e.sock i).mRemoteAddr with
    | some remote_sock =>
      some (e.setSock remote_sock { e.sock remote_sock with
        mConnectorQueue := (e.sock remote_sock).mConnectorQueue ++ [i] }, some remote_sock)
    | none => some (e, none)
  | .datagram => none

/-- `SocketImplSIM::connect`. -/
def connect (e : Endpoints σ) (g : NetworkGraph) (i : σ) : Option (Endpoints σ × Option σ) :=
  if (e.sock i).mBound then e.connectTo i else (e.bind g i).bind fun e => e.connectTo i

/-- `SocketManager::findRoute`. -/
def findRoute (e : Endpoints σ) (g : NetworkGraph) (src_sock dest_sock : σ) :
    Option (Endpoints σ) :=
  (e.sock src_sock).mNetworkNode.bind fun u =>
    (e.sock dest_sock).mNetworkNode.map fun v =>
      let path := g.getShortestPath u v
      let e := e.setSock src_sock { e.sock src_sock with mPathToPeer := some path }
      e.setSock dest_sock { e.sock dest_sock with
        mPathToPeer := some (NetworkGraph.reversePath path) }

/-- `SocketImplSIM::completeConnection`. -/
def completeConnection (e : Endpoints σ) (i connectedPeer : σ) : Endpoints σ :=
  e.setSock i { (e.sock i).setConnectState (some connectedPeer) with
    mRemoteAddr := (e.sock connectedPeer).mLocalAddr }

/-- What `accept` does first for the connector `peer_ptr`: take it from the queue and
set up the client socket. -/
def prepareClient (e : Endpoints σ) (i clientSock peer_ptr : σ) (rest : List σ) : Endpoints σ :=
  let e := e.setSock i { e.sock i with mConnectorQueue := rest }
  e.setSock clientSock { (e.sock clientSock).setConnectState (some peer_ptr) with
    mRemoteAddr := (e.sock peer_ptr).mLocalAddr
    mOpen := true
    mBlocking := (e.sock i).mBlocking
    mLocalAddr := ⟨(e.sock i).mLocalAddr.address, 0⟩ }

/-- `SocketStreamImplSIM::accept`, with the connector whose connection is completed. -/
def accept (e : Endpoints σ) (g : NetworkGraph) (i clientSock : σ) :
    Option (Endpoints σ × Option σ) :=
  match (e.sock i).mType, (e.sock clientSock).mType with
  | .stream, .stream =>
    match (e.sock i).mConnectorQueue with
    | [] => some (e, none)
    | peer_ptr :: rest =>
      ((e.prepareClient i clientSock peer_ptr rest).bind g clientSock).bind fun e =>
        (e.findRoute g peer_ptr clientSock).map fun e =>
          (e.completeConnection peer_ptr clientSock, some peer_ptr)
  | _, _ => none

/-- `SocketImplSIM::disconnect`. -/
def disconnect (e : Endpoints σ) (i : σ) : Endpoints σ :=
  e.setSock i ((e.sock i).setConnectState none)

/-- The first part of `close`: both ends of the connection forget it. -/
def hangUp (e : Endpoints σ) (i : σ) : Option (Endpoints σ) :=
  if (e.sock i).mConnected then
    (e.sock i).mPeer.map fun peer => (e.disconnect peer).disconnect i
  else some e

/-- The second part of `close`. -/
def release (e : Endpoints σ) (i : σ) : Option (Endpoints σ) :=
  if (e.sock i).mBound then
    (e.unbind i).map fun e => e.setSock i { e.sock i with mBound := false }
  else some e

/-- `SocketImplSIM::close`, without the flush of the path. -/
def close (e : Endpoints σ) (i : σ) : Option (Endpoints σ) :=
  (e.hangUp i).bind fun e =>
    (e.release i).map fun e => e.setSock i { e.sock i with mOpen := false, calledListen := false }

end Endpoints

end VRJuggler.Sim
