import Mathlib.Logic.Function.Basic
import VRJuggler.Base.Run

/-!
# The network manager of one cluster node

`gadget::NetworkManager` as a state machine. A manager keeps a list of peers,
the state of each connection (`gadget::Node`) and the handles registered with
its reactor. `update` is broken into the steps between two interactions with
the outside: one end block sent, one answer of `select`, one packet received.
Everything that the outside decides is carried by the `Event`.

The assertions of the source are left out: `vprASSERT` is empty unless
`VPR_DEBUG` is defined.
-/
namespace VRJuggler.Gadget

/-! ### Peers -/

/-- `Node::Status`. -/
inductive Status where
  | disconnected
  | pending
  | newConnection
  | connected
  deriving DecidableEq, Repr

/-- The state of the connection to one peer. `sockStream` is false once
`mSockStream` is `NULL`. -/
structure Node where
  status : Status
  updated : Bool
  sockStream : Bool
  deriving DecidableEq, Repr

namespace Node

def isConnected (n : Node) : Bool := n.status == .connected

def setUpdated (n : Node) (update : Bool) : Node := { n with updated := update }

/-- Close and delete the socket. The update flag stays as it is. -/
def shutdown (n : Node) : Node := { n with status := .disconnected, sockStream := false }

@[simp] theorem setUpdated_updated (n : Node) (u : Bool) : (n.setUpdated u).updated = u := rfl
@[simp] theorem setUpdated_sockStream (n : Node) (u : Bool) :
    (n.setUpdated u).sockStream = n.sockStream := rfl
@[simp] theorem setUpdated_isConnected (n : Node) (u : Bool) :
    (n.setUpdated u).isConnected = n.isConnected := rfl
@[simp] theorem shutdown_updated (n : Node) : n.shutdown.updated = n.updated := rfl
@[simp] theorem shutdown_sockStream (n : Node) : n.shutdown.sockStream = false := rfl

end Node

/-- A packet is an end block or belongs to a plugin. -/
inductive Packet (α : Type) where
  | endBlock (frameNum : Nat)
  | other (body : α)
  deriving DecidableEq, Repr

/-- The type field of the header is `RIM_END_BLOCK`. -/
def Packet.isEndBlock {α : Type} : Packet α → Bool
  | .endBlock _ => true
  | .other _ => false

/-- The exceptions of reading a packet: `vpr::IOException` and
`cluster::ClusterException`. They have no common base below `vpr::Exception`. -/
inductive Exn where
  | io
  | cluster
  deriving DecidableEq, Repr

/-- What reading the next packet from an open stream meets. -/
inductive Arrival (α : Type) where
  | packet (p : Packet α)
  | headerFails
  | payloadFails
  deriving DecidableEq, Repr

/-- `Node::recvPacket`. A failed read of the header is thrown on as the
`vpr::IOException` that it is, a failed read of the payload is turned into a
`ClusterException`, and so is a `NULL` stream. -/
def recvPacket {α : Type} (n : Node) (a : Arrival α) : Except Exn (Packet α) :=
  if n.sockStream then
    match a with
    | .packet p => .ok p
    | .headerFails => .error .io
    | .payloadFails => .error .cluster
  else .error .cluster

/-! ### The manager -/

/-- Where the manager is in `update`. The numbers are `numNodes` and
`completed_nodes`, the lists are `ready_nodes` and what the `for` loop has left
of it. -/
inductive Phase (ι : Type) where
  | idle
  | sendEndBlocks (temp : Nat) (rest : List ι) (numNodes : Nat)
  | select (numNodes completed : Nat) (ready : List ι)
  | scan (numNodes completed : Nat) (ready rest : List ι)
  | receive (numNodes completed : Nat) (ready : List ι) (i : ι) (rest : List ι)
  | threw (e : Exn)
  deriving DecidableEq, Repr

structure Manager (ι : Type) where
  mNodes : List ι
  node : ι → Node
  handles : List ι
  phase : Phase ι

/-- What `Selector::select` does: run into the timeout, report the handles that
are readable, or throw a `vpr::IOException`. -/
inductive Poll (ι : Type) where
  | timeout
  | readable (mask : List ι)
  | fails
  deriving DecidableEq, Repr

/-- `next` is a test of a loop condition, which needs nothing from outside. -/
inductive Event (ι α : Type) where
  | update (temp : Nat)
  | sendEndBlock (delivered : Bool)
  | select (answer : Poll ι)
  | recv (a : Arrival α)
  | next
  deriving DecidableEq, Repr

namespace Manager

variable {ι α : Type} [DecidableEq ι]

def setNode (m : Manager ι) (i : ι) (n : Node) : Manager ι :=
  { m with node := Function.update m.node i n }

def setAllUpdated (m : Manager ι) (updated : Bool) : Manager ι :=
  { m with node := fun i => if i ∈ m.mNodes then (m.node i).setUpdated updated else m.node i }

/-- `Reactor::getReadyNodes`: the registered handles that are reported. -/
def getReadyNodes (m : Manager ι) (mask : List ι) : List ι :=
  m.handles.filter (· ∈ mask)

/-- Only the end block changes the manager itself; other packets go to the
handler of their plugin. -/
def handlePacket (m : Manager ι) (p : Packet α) (i : ι) : Manager ι :=
  if p.isEndBlock then m.setNode i ((m.node i).setUpdated true) else m

def shutdown (m : Manager ι) (i : ι) : Manager ι := m.setNode i (m.node i).shutdown

/-- The loop tests. A packet is only waited for when the test of the inner loop
finds that the peer is not updated and still has a stream: without one,
`recvPacket` throws at once. -/
def next (m : Manager ι) : Option (Manager ι) :=
  match m.phase with
  | .sendEndBlocks _ [] n =>
    -- `uncorkNetwork` calls every stream, also one that is `NULL`
    if m.mNodes.all fun i => (m.node i).sockStream then
      some { m with phase := .select n 0 [] }
    else none
  | .sendEndBlocks temp (i :: rest) n =>
    if (m.node i).isConnected then none else some { m with phase := .sendEndBlocks temp rest n }
  | .select n c _ => if c = n then some { m with phase := .idle } else none
  | .scan n c ready [] => some { m with phase := .select n c ready }
  | .scan n c ready (i :: rest) =>
    if (m.node i).updated then some { m with phase := .scan n c ready rest }
    else some { m with phase := .receive n c ready i rest }
  | .receive n c ready i rest =>
    if (m.node i).updated then some { m with phase := .scan n (c + 1) ready rest }
    else if (m.node i).sockStream then none
    else some { m.shutdown i with phase := .scan n (c + 1) ready rest }
  | .idle => none
  | .threw _ => none

/-- The events that come from outside. -/
def step (m : Manager ι) : Event ι α → Option (Manager ι)
  | .update temp =>
    match m.phase with
    | .idle => some { m.setAllUpdated false with phase := .sendEndBlocks temp m.mNodes 0 }
    | _ => none
  | .sendEndBlock delivered =>
    match m.phase with
    | .sendEndBlocks temp (i :: rest) n =>
      if (m.node i).isConnected then
        if delivered then some { m with phase := .sendEndBlocks temp rest (n + 1) }
        else some { m.shutdown i with phase := .sendEndBlocks temp rest n }
      else none
    | _ => none
  | .select answer =>
    match m.phase with
    | .select n c ready =>
      if c = n then none
      else match answer with
        -- `ready_nodes` keeps its value when `getReadyNodes` throws
        | .timeout => some { m with phase := .scan n c ready ready }
        | .readable mask =>
          some { m with phase := .scan n c (m.getReadyNodes mask) (m.getReadyNodes mask) }
        | .fails => some { m with phase := .threw .io }
    | _ => none
  | .recv a =>
    match m.phase with
    | .receive n c ready i rest =>
      if (m.node i).updated || !(m.node i).sockStream then none
      else match recvPacket (m.node i) a with
        | .ok p => some (m.handlePacket p i)
        -- `catch (ClusterException&)`; anything else escapes
        | .error .cluster => some { m.shutdown i with phase := .scan n (c + 1) ready rest }
        | .error .io => some { m with phase := .threw .io }
    | _ => none
  | .next => m.next

end Manager

end VRJuggler.Gadget
