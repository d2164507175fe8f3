import VRJuggler.Base.Run
import VRJuggler.Sim.Endpoints
import VRJuggler.Sim.Wire

/-!
# The simulator

A state of the simulator is its sockets together with what is on the wire; a step is
one call of a member function of a socket, of the socket manager or of the controller.
Any number of sockets takes part, over any graph.
-/
namespace VRJuggler.Sim

structure Simulator (σ : Type) (g : NetworkGraph) where
  ends : Endpoints σ
  wire : Wire σ g

/-- The calls. `unbind` is the member of the socket manager, which `close` uses too. -/
inductive Op (σ : Type) where
  | open_ (i : σ)
  | setLocalAddr (i : σ) (addr : InetAddr)
  | setRemoteAddr (i : σ) (addr : InetAddr)
  | bind (i : σ)
  | unbind (i : σ)
  | listen (i : σ)
  | connect (i : σ)
  | accept (i clientSock : σ)
  | close (i : σ)
  | write (i : σ) (buffer : List UInt8)
  | sendto (i : σ) (msg : List UInt8) (dest : InetAddr)
  | read (i : σ) (length : Nat)
  | processNextEvent
  | processEvents (time_step : Nat)
  deriving DecidableEq

namespace Simulator

variable {σ : Type} [DecidableEq σ] {g : NetworkGraph}

def start (type : σ → SocketType) (blocking : σ → Bool) : Simulator σ g where
  ends := .start type blocking
  wire := .start

/-- An event that is due at once. -/
def addEventNow (w : Wire σ g) : Option (EventData σ g) → Wire σ g
  | some data => w.addEvent w.mCurrentTime data
  | none => w

/-- The path that `close` flushes. Following a path that was never set is undefined. -/
def flushedPath (e : Endpoints σ) (i : σ) : Option (List Vertex) :=
  if (e.sock i).mConnected then (e.sock i).mPathToPeer else some []

/-- `SocketImplSIM::close`. -/
def close (s : Simulator σ g) (i : σ) : Option (Simulator σ g) :=
  (flushedPath s.ends i).bind fun path =>
    (s.ends.close i).map fun ends => ⟨ends, s.wire.flushPath i path⟩

/-- `SocketImplSIM::write_i`. Without a peer nothing is written. -/
def write (s : Simulator σ g) (i : σ) (buffer : List UInt8) : Option (Simulator σ g) :=
  match (s.ends.sock i).mPeer with
  | none => some s
  | some peer =>
    (s.ends.sock i).mPathToPeer.bind fun path =>
      (s.wire.post buffer path i peer).map fun wire => ⟨s.ends, wire⟩

/-- The datagram socket that `sendMessageTo` finds under an address, with its node. -/
def receiver (e : Endpoints σ) (g : NetworkGraph) (dest_addr : InetAddr) : Option (Vertex × σ) :=
  (g.getNodeWithAddr dest_addr.address).bind fun dest_node =>
    ((e.node dest_node).getSocket dest_addr.port .datagram).map fun peer => (dest_node, peer)

/-- `SocketManager::sendMessageTo`. Nothing is sent when nobody is there. -/
def sendMessageTo (s : Simulator σ g) (i : σ) (msg : List UInt8) (dest_addr : InetAddr) :
    Option (Simulator σ g) :=
  match receiver s.ends g dest_addr with
  | none => some s
  | some (dest_node, peer) =>
    (s.ends.sock i).mNetworkNode.bind fun node =>
      (s.wire.post msg (g.getShortestPath node dest_node) i peer).map fun wire => ⟨s.ends, wire⟩

/-- `SocketDatagramImplSIM::sendto`. -/
def sendto (s : Simulator σ g) (i : σ) (msg : List UInt8) (dest : InetAddr) :
    Option (Simulator σ g) :=
  match (s.ends.sock i).mType with
  | .datagram =>
    if (s.ends.sock i).mBound then s.sendMessageTo i msg dest
    else (s.ends.bind g i).bind fun ends =>
      ({ s with ends := ends } : Simulator σ g).sendMessageTo i msg dest
  | .stream => none

def step (s : Simulator σ g) : Op σ → Option (Simulator σ g)
  | .open_ i => some { s with ends := s.ends.open_ i }
  | .setLocalAddr i addr => some { s with ends := s.ends.setLocalAddr i addr }
  | .setRemoteAddr i addr => some { s with ends := s.ends.setRemoteAddr i addr }
  | .bind i => (s.ends.bind g i).map fun ends => { s with ends := ends }
  | .unbind i => (s.ends.unbind i).map fun ends => { s with ends := ends }
  | .listen i => (s.ends.listen i).map fun ends => { s with ends := ends }
  | .connect i => (s.ends.connect g i).map fun (ends, remote_sock) =>
      ⟨ends, addEventNow s.wire (remote_sock.map .connectionInit)⟩
  | .accept i clientSock => (s.ends.accept g i clientSock).map fun (ends, peer_ptr) =>
      ⟨ends, addEventNow s.wire (peer_ptr.map .connectionComplete)⟩
  | .close i => s.close i
  | .write i buffer => s.write i buffer
  | .sendto i msg dest => s.sendto i msg dest
  | .read i length => some { s with wire := s.wire.read i length }
  | .processNextEvent => s.wire.processNextEvent.map fun wire => { s with wire := wire }
  | .processEvents time_step =>
    (s.wire.processEvents time_step).map fun wire => { s with wire := wire }

end Simulator

end VRJuggler.Sim
