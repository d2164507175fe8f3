import Mathlib.Data.Fintype.Prod
import Mathlib.Data.List.Chain
import VRJuggler.Base.SortedMap

/-!
# The simulated network

The graph of `vpr::sim::NetworkGraph`, the messages and the lines. The Boost Graph
Library is used for two things: `boost::edge`, whose descriptor has the first
argument as its source, and the predecessor map of Dijkstra's algorithm, which is a
parameter of the graph.

Times (`vpr::Interval`) are microseconds. They are kept in 64 bits, enough for half a
million years, and are natural numbers here.
-/
namespace VRJuggler.Sim

/-- Vertices are numbered in the order in which they were added. -/
abbrev Vertex := Nat

/-! ### The graph -/

/-- What a line between two vertices does to a message. The two times are rounded
up from floating point values of its length and capacity. -/
structure LineSpec where
  first : Vertex
  second : Vertex
  getWireAccessTime : Nat → Nat
  getBitTransmissionTime : Nat

def LineSpec.joins (l : LineSpec) (u v : Vertex) : Bool :=
  (l.first == u && l.second == v) || (l.first == v && l.second == u)

theorem LineSpec.joins_comm (l : LineSpec) (u v : Vertex) : l.joins u v = l.joins v u :=
  Bool.or_comm ..

/-- The graph. `pred s v` is the vertex before `v` on a shortest path from `s`, and
`v` itself where there is none. -/
structure NetworkGraph where
  addresses : List Nat
  lines : List LineSpec
  pred : Vertex → Vertex → Vertex
  pred_joined : ∀ s v, pred s v ≠ v → lines.any (·.joins (pred s v) v)

namespace NetworkGraph

variable (g : NetworkGraph)

abbrev LineId := Fin g.lines.length

/-- An edge descriptor. Two of them are equal when they are about the same line. -/
structure NetEdge where
  source : Vertex
  target : Vertex
  line : g.LineId
  deriving DecidableEq

/-- `boost::edge`: the first line between the two vertices, seen from `u`. -/
def getEdge (u v : Vertex) : Option g.NetEdge :=
  (g.lines.findFinIdx? (·.joins u v)).map fun l => ⟨u, v, l⟩

def isSource (vertex : Vertex) (edge : g.NetEdge) : Bool := vertex == edge.source

def getNodeWithAddr (addr : Nat) : Option Vertex := g.addresses.findIdx? (· == addr)

/-- From the destination back along the predecessors. The predecessor map is a tree,
so that no path has more vertices than the graph. -/
def followPred (pred : Vertex → Vertex) : Nat → Vertex → List Vertex
  | 0, p => [p]
  | fuel + 1, p => if pred p = p then [p] else p :: followPred pred fuel (pred p)

def getShortestPath (src dest : Vertex) : List Vertex :=
  (followPred (g.pred src) g.addresses.length dest).reverse

/-- `reversePath`. -/
def reversePath (path : List Vertex) : List Vertex := path.reverse

/-- Each vertex of the path is joined to the next one by a line. -/
def IsPath (path : List Vertex) : Prop := path.IsChain fun u v => (g.getEdge u v).isSome

variable {g}

theorem getEdge_isSome_iff (u v : Vertex) :
    (g.getEdge u v).isSome ↔ g.lines.any (·.joins u v) := by
  rw [getEdge, Option.isSome_map, List.isSome_findFinIdx?]

theorem getEdge_isSome_comm (u v : Vertex) : (g.getEdge u v).isSome ↔ (g.getEdge v u).isSome := by
  rw [getEdge_isSome_iff, getEdge_isSome_iff]
  simp only [LineSpec.joins_comm _ u v]

/-- An edge that was looked up has the first vertex as its source. -/
theorem isSource_of_getEdge {u v : Vertex} {e : g.NetEdge} (found : g.getEdge u v = some e) :
    g.isSource u e = true := by
  obtain ⟨l, -, rfl⟩ := Option.map_eq_some_iff.mp found
  exact beq_self_eq_true u

theorem followPred_head (pred : Vertex → Vertex) (fuel : Nat) (p : Vertex) :
    (followPred pred fuel p).head? = some p := by
  cases fuel with
  | zero => rfl
  | succ fuel =>
    rw [followPred]
    split <;> rfl

theorem followPred_chain (src : Vertex) (fuel : Nat) (p : Vertex) :
    (followPred (g.pred src) fuel p).IsChain fun u v => (g.getEdge v u).isSome := by
  induction fuel generalizing p with
  | zero => exact .singleton _
  | succ fuel ih =>
    rw [followPred]
    split
    next => exact .singleton _
    next moves =>
      refine List.isChain_cons.mpr ⟨fun v hv => ?_, ih _⟩
      rw [followPred_head] at hv
      obtain rfl := Option.some.inj hv
      exact (getEdge_isSome_iff _ _).mpr (g.pred_joined src p moves)

theorem isPath_getShortestPath (src dest : Vertex) : g.IsPath (g.getShortestPath src dest) :=
  List.isChain_reverse.mpr (followPred_chain src _ dest)

theorem IsPath.reverse {path : List Vertex} (isPath : g.IsPath path) :
    g.IsPath (reversePath path) := by
  refine List.isChain_reverse.mpr (List.IsChain.imp (fun u v joined => ?_) isPath)
  exact (getEdge_isSome_comm u v).mp joined

/-- Two nodes and a line: one unit for each bit, and ten until the last one arrives. -/
def twoNodes : NetworkGraph where
  addresses := [1, 2]
  lines := [⟨0, 1, fun size => size, 10⟩]
  pred := fun s v => if (s, v) = (0, 1) ∨ (s, v) = (1, 0) then s else v
  pred_joined := fun s v moves => by
    split at moves
    next joined => rcases joined with same | same <;> cases same <;> rfl
    next => exact absurd rfl moves

end NetworkGraph

def theLine : NetworkGraph.twoNodes.LineId := ⟨0, by decide⟩

/-! ### Messages -/

/-- A message. `serial` stands for the identity of the object; `crossed` records the
lines that it has left behind. -/
structure Message (σ : Type) (g : NetworkGraph) where
  serial : Nat
  mMsg : List UInt8
  mStartOnWire : Nat
  mFullyOnWire : Nat
  mArrivesFully : Nat
  mMsgPath : List Vertex
  mNextHop : Nat
  mSrcSock : σ
  mDestSock : σ
  crossed : List g.LineId
  deriving DecidableEq

namespace Message

variable {σ : Type} {g : NetworkGraph}

/-- A message on its way along `path`; `setPath` puts the next hop at its beginning. -/
def withPath (serial : Nat) (body : List UInt8) (path : List Vertex) (source dest : σ) :
    Message σ g :=
  ⟨serial, body, 0, 0, 0, path, 0, source, dest, []⟩

def getSize (m : Message σ g) : Nat := m.mMsg.length % 2 ^ 32

/-- `none` past the end of the path. -/
def getNextHop (m : Message σ g) : Option Vertex := m.mMsgPath[m.mNextHop]?

def incNextHop (m : Message σ g) : Message σ g := { m with mNextHop := m.mNextHop + 1 }

end Message

/-! ### Lines -/

inductive LineDirection where
  | forward
  | reverse
  deriving DecidableEq, Repr

instance : Fintype LineDirection where
  elems := {.forward, .reverse}
  complete := fun d => by cases d <;> simp

/-- A line together with one of its two queues. -/
abbrev NetworkGraph.Lane (g : NetworkGraph) := g.LineId × LineDirection

/-- `msg_queue_t`. -/
abbrev MsgQueue (σ : Type) (g : NetworkGraph) := List (Nat × Message σ g)

variable {σ : Type} {g : NetworkGraph}

/-- When the transmission of a new message can start: one unit after the last queued
message is on the wire, but not before the current time. -/
def startTime (queue : MsgQueue σ g) (curTime : Nat) : Nat :=
  match queue.getLast? with
  | some (_, tail_msg) =>
    if tail_msg.mFullyOnWire + 1 < curTime then curTime else tail_msg.mFullyOnWire + 1
  | none => curTime

/-- `NetworkLine::calculateMessageEventTimes`. -/
def calculateMessageEventTimes (line : LineSpec) (msg : Message σ g) (curTime : Nat)
    (queue : MsgQueue σ g) : Message σ g :=
  let start_time := startTime queue curTime
  let on_wire_time := start_time + line.getWireAccessTime (msg.getSize * 8 % 2 ^ 32)
  { msg with
    mStartOnWire := start_time
    mFullyOnWire := on_wire_time
    mArrivesFully := on_wire_time + line.getBitTransmissionTime }

theorem le_startTime (queue : MsgQueue σ g) (curTime : Nat) :
    curTime ≤ startTime queue curTime := by
  unfold startTime
  split
  · split <;> omega
  · exact Nat.le_refl _

end VRJuggler.Sim
