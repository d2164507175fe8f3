import Mathlib.Algebra.BigOperators.Group.Finset.Basic
import Mathlib.Algebra.GroupWithZero.Nat
import VRJuggler.Base.Lists
import VRJuggler.Sim.Network

/-!
# Messages on their way

The part of `vpr::sim::Controller` and `vpr::sim::SocketManager` that moves messages:
the queues of the lines, the pending events, the clock, and the queues of arrived
messages, which belong to the sockets. Sockets are known here by their identity only.

A function is `none` where the source has no defined behaviour: the assertions that
would catch it are empty unless `VPR_DEBUG` is defined.
-/
namespace VRJuggler.Sim

/-- `Controller::EventData`. -/
inductive EventData (σ : Type) (g : NetworkGraph) where
  | message (edge : g.NetEdge) (direction : LineDirection)
  | connectionInit (socket : σ)
  | connectionComplete (socket : σ)
  | localhostDelivery (socket : σ)
  deriving DecidableEq

namespace EventData

variable {σ : Type} {g : NetworkGraph}

/-- The queue that a message event is about. -/
def lane? : EventData σ g → Option g.Lane
  | .message edge direction => some (edge.line, direction)
  | .connectionInit _ | .connectionComplete _ | .localhostDelivery _ => none

/-- The socket that any other event is about. -/
def socket? : EventData σ g → Option σ
  | .message _ _ => none
  | .connectionInit s | .connectionComplete s | .localhostDelivery s => some s

end EventData

/-- What happens to a line, as it is recorded: a message enters one of its queues at a
time, with the times it was given; the first one leaves; those for a socket are flushed. -/
inductive LineNote (σ : Type) (g : NetworkGraph) where
  | enter (curTime : Nat) (msg : Message σ g)
  | leave (msg : Message σ g)
  | flush (sock : σ) (removed : List (Message σ g))
  deriving DecidableEq

/-- `sent` and the fields after it record what was done: the number of messages sent,
those that arrived, in order, those that were read or discarded, and the notes about
each line, with the direction of the queue. -/
structure Wire (σ : Type) (g : NetworkGraph) where
  queue : g.Lane → MsgQueue σ g
  mEvents : Multimap Nat (EventData σ g)
  mCurrentTime : Nat
  mArrivedQueue : σ → List (Message σ g)
  sent : Nat
  delivered : List (Message σ g)
  consumed : List (Message σ g)
  discarded : List (Message σ g)
  notes : g.LineId → List (LineDirection × LineNote σ g)

namespace Wire

variable {σ : Type} [DecidableEq σ] {g : NetworkGraph}

def start : Wire σ g where
  queue := fun _ => []
  mEvents := .empty
  mCurrentTime := 0
  mArrivedQueue := fun _ => []
  sent := 0
  delivered := []
  consumed := []
  discarded := []
  notes := fun _ => []

/-- `Clock::setCurrentTime`: the clock never goes back. -/
def setCurrentTime (w : Wire σ g) (time : Nat) : Wire σ g :=
  { w with mCurrentTime := if w.mCurrentTime < time then time else w.mCurrentTime }

def addEvent (w : Wire σ g) (event_time : Nat) (data : EventData σ g) : Wire σ g :=
  { w with mEvents := w.mEvents.insert event_time data }

/-- `SocketImplSIM::addArrivedMessage`. -/
def addArrivedMessage (w : Wire σ g) (msg : Message σ g) : Wire σ g :=
  { w with
    mArrivedQueue := Function.update w.mArrivedQueue msg.mDestSock
      (w.mArrivedQueue msg.mDestSock ++ [msg])
    delivered := w.delivered ++ [msg] }

def setQueue (w : Wire σ g) (lane : g.Lane) (q : MsgQueue σ g) (note : LineNote σ g) :
    Wire σ g :=
  { w with
    queue := Function.update w.queue lane q
    notes := Function.update w.notes lane.1 (w.notes lane.1 ++ [(lane.2, note)]) }

/-- The direction in which a message crosses `edge` from `vertex` on. -/
def direction (vertex : Vertex) (edge : g.NetEdge) : LineDirection :=
  if g.isSource vertex edge then .forward else .reverse

/-- What `sendMessage` and `moveMessage` do with a message that goes over `edge` next:
give it its times, queue it, and schedule its arrival. -/
def addMessage (w : Wire σ g) (msg : Message σ g) (vertex : Vertex) (edge : g.NetEdge)
    (curTime : Nat) : Wire σ g :=
  let lane := (edge.line, direction vertex edge)
  let line := g.lines[edge.line]
  let msg := calculateMessageEventTimes line msg curTime (w.queue lane)
  (w.setQueue lane (w.queue lane ++ [(msg.mArrivesFully, msg)])
    (.enter curTime msg)).addEvent
      msg.mArrivesFully (.message edge lane.2)

/-- `SocketManager::sendMessage`. A message whose path has no line to begin with is
dropped. -/
def sendMessage (w : Wire σ g) (msg : Message σ g) : Option (Wire σ g) :=
  match msg.getNextHop with
  | none => none
  | some first_hop =>
    match msg.incNextHop.getNextHop with
    | some second_hop =>
      match g.getEdge first_hop second_hop with
      | some first_edge => some (w.addMessage msg.incNextHop first_hop first_edge w.mCurrentTime)
      | none => some w
    | none =>
      -- a loopback is delivered at once
      some ((w.addArrivedMessage msg.incNextHop).addEvent w.mCurrentTime
        (.localhostDelivery msg.mDestSock))

/-- A new message is created and sent along `path`. -/
def post (w : Wire σ g) (body : List UInt8) (path : List Vertex) (source dest : σ) :
    Option (Wire σ g) :=
  { w with sent := w.sent + 1 }.sendMessage (.withPath w.sent body path source dest)

/-- `Controller::moveMessage`. -/
def moveMessage (w : Wire σ g) (msg : Message σ g) (cur_time : Nat) : Option (Wire σ g) :=
  match msg.getNextHop with
  | none => none
  | some next_hop =>
    match msg.incNextHop.getNextHop with
    | some next_next_hop =>
      match g.getEdge next_hop next_next_hop with
      | some next_line => some (w.addMessage msg.incNextHop next_hop next_line cur_time)
      | none => none
    | none => some (w.addArrivedMessage msg.incNextHop)

/-- The branch of `processNextEvent` for a message: `getArrivedMessage` takes the first
message of the queue, which must not be empty. -/
def processMessageEvent (w : Wire σ g) (event_time : Nat) (event_edge : g.NetEdge)
    (dir : LineDirection) : Option (Wire σ g) :=
  let lane := (event_edge.line, dir)
  match w.queue lane with
  | [] => none
  | (_, msg) :: rest =>
    (w.setQueue lane rest (.leave msg)).moveMessage
      { msg with crossed := msg.crossed ++ [event_edge.line] } event_time

/-- `Controller::processNextEvent`. -/
def processNextEvent (w : Wire σ g) : Option (Wire σ g) :=
  match w.mEvents.entries with
  | [] => some w
  | (event_time, data) :: _ =>
    let w := { w.setCurrentTime event_time with mEvents := w.mEvents.tail }
    match data with
    | .message event_edge dir => w.processMessageEvent event_time event_edge dir
    | .connectionInit _ | .connectionComplete _ | .localhostDelivery _ => some w

/-- The loop of `processEvents`. -/
def processUntil (event_time : Nat) : Nat → Wire σ g → Option (Wire σ g)
  | 0, w => some w
  | fuel + 1, w =>
    match w.mEvents.entries.head? with
    | none => some w
    | some next_event =>
      if next_event.1 ≤ event_time then w.processNextEvent.bind (processUntil event_time fuel)
      else some w

/-- The hops that are left to the queued messages. -/
def hopsLeft (q : MsgQueue σ g) : Nat := (q.map fun x => x.2.mMsgPath.length - x.2.mNextHop).sum

/-- How many events can still be processed: one for each pending event that is not
about a message, and as many for a message as it has hops left. -/
def pending (w : Wire σ g) : Nat :=
  (Finset.univ.sum fun lane => hopsLeft (w.queue lane)) + w.mEvents.entries.length

/-- `Controller::processEvents`. -/
def processEvents (w : Wire σ g) (time_step : Nat) : Option (Wire σ g) :=
  let event_time := w.mCurrentTime + time_step
  let w := w.setCurrentTime event_time
  processUntil event_time w.pending w

/-- One line of `Controller::flushPath`. The times of the removed messages are read
where `std::remove_if` leaves them, and for each of them the events of the queue at
that time are deleted. (The loop goes on from an iterator that it has just erased; it is
taken here to go on with the next event.) -/
def flushLine (w : Wire σ g) (sock : σ) (source : Vertex) (current_line : g.NetEdge) :
    Wire σ g :=
  let dir := direction source current_line
  let lane := (current_line.line, dir)
  let toSock : Nat × Message σ g → Bool := fun x => x.2.mDestSock == sock
  let (rest, removed) := removeIf toSock (w.queue lane)
  let flushed := ((w.queue lane).filter toSock).map Prod.snd
  let test_event : EventData σ g → Bool := fun data => decide (data.lane? = some lane)
  { w.setQueue lane rest (.flush sock flushed) with
    mEvents := (removed.map Prod.fst).foldl (fun events i => events.eraseAll i test_event) w.mEvents
    discarded := w.discarded ++ flushed }

/-- `Controller::flushPath`. -/
def flushPath (w : Wire σ g) (sock : σ) : List Vertex → Wire σ g
  | source :: dest :: rest =>
    let w := match g.getEdge source dest with
      | some current_line => w.flushLine sock source current_line
      | none => w
    w.flushPath sock (dest :: rest)
  | _ => w

/-- `SocketImplSIM::read_i` and `SocketDatagramImplSIM::recvfrom` with a buffer of the
given length: a message that does not fit is cut down to what was not read. -/
def read (w : Wire σ g) (sock : σ) (length : Nat) : Wire σ g :=
  match w.mArrivedQueue sock with
  | [] => w
  | message :: rest =>
    let copy_len := if message.getSize < length then message.getSize else length
    let resize_amount := message.getSize - copy_len
    if resize_amount = 0 then
      { w with
        mArrivedQueue := Function.update w.mArrivedQueue sock rest
        consumed := w.consumed ++ [message] }
    else
      { w with
        mArrivedQueue := Function.update w.mArrivedQueue sock
          ({ message with mMsg := message.mMsg.drop copy_len } :: rest) }

end Wire

end VRJuggler.Sim
