import VRJuggler.Base.Ledger
import VRJuggler.Sim.EventQueue

/-!
# Where the messages are

Every message that was sent is in one place: in the queue of a line of its path, with
its destination, or discarded by a close of its destination. It crosses the lines of
its path in order, and messages on the same path are not overtaken. All of this holds
whichever events a flush deletes; but an event that is left over finds an empty queue,
and this is excluded only when events and queues agree.
-/
namespace VRJuggler.Sim

variable {σ : Type} {g : NetworkGraph}

/-! ### Lines of a path -/

namespace NetworkGraph

theorem route_getElem {path : List Vertex} {k : Nat} {u v : Vertex} {e : g.NetEdge}
    (isPath : g.IsPath path) (first : path[k]? = some u) (second : path[k + 1]? = some v)
    (found : g.getEdge u v = some e) : (g.route path)[k]? = some (u, e) := by
  induction path generalizing k with
  | nil => simp at first
  | cons a path ih =>
    cases path with
    | nil => simp at second
    | cons b rest =>
      obtain ⟨joined, rest'⟩ := List.isChain_cons_cons.mp isPath
      obtain ⟨e', found'⟩ := Option.isSome_iff_exists.mp joined
      rw [route, found']
      cases k with
      | zero =>
        obtain rfl := Option.some.inj first
        obtain rfl := Option.some.inj second
        obtain rfl := Option.some.inj (found'.symm.trans found)
        rfl
      | succ k => exact ih rest' first second

theorem length_route {path : List Vertex} (isPath : g.IsPath path) :
    (g.route path).length = path.length - 1 := by
  induction path with
  | nil => rfl
  | cons a path ih =>
    cases path with
    | nil => rfl
    | cons b rest =>
      obtain ⟨joined, rest'⟩ := List.isChain_cons_cons.mp isPath
      obtain ⟨e', found'⟩ := Option.isSome_iff_exists.mp joined
      rw [route, found', List.length_append, ih rest']
      simp only [Option.map_some, Option.toList_some, List.length_cons, List.length_nil]
      omega

theorem linesOf_getElem {path : List Vertex} {k : Nat} {u v : Vertex} {e : g.NetEdge}
    (isPath : g.IsPath path) (first : path[k]? = some u) (second : path[k + 1]? = some v)
    (found : g.getEdge u v = some e) : (g.linesOf path)[k]? = some e.line := by
  rw [linesOf, List.getElem?_map, route_getElem isPath first second found]
  rfl

theorem length_linesOf {path : List Vertex} (isPath : g.IsPath path) :
    (g.linesOf path).length = path.length - 1 := by
  rw [linesOf, List.length_map, length_route isPath]

end NetworkGraph

/-! ### A message in a queue -/

/-- The message has crossed the lines of its path up to the one of the queue, in their
order. All queues in use are forward queues. -/
structure Message.Underway (m : Message σ g) (lane : g.Lane) : Prop where
  isPath : g.IsPath m.mMsgPath
  started : 0 < m.mNextHop
  crossed : m.crossed = (g.linesOf m.mMsgPath).take (m.mNextHop - 1)
  line : (g.linesOf m.mMsgPath)[m.mNextHop - 1]? = some lane.1
  forward : lane.2 = .forward

namespace Message.Underway

variable {m n : Message σ g} {lane other : g.Lane}

theorem next_lt (underway : m.Underway lane) : m.mNextHop < m.mMsgPath.length := by
  have inside := (List.getElem?_eq_some_iff.mp underway.line).1
  have length := NetworkGraph.length_linesOf underway.isPath
  have started := underway.started
  omega

theorem crossed_eq_take (underway : m.Underway lane) :
    m.crossed ++ [lane.1] = (g.linesOf m.mMsgPath).take m.mNextHop := by
  have started := underway.started
  have split : m.mNextHop = m.mNextHop - 1 + 1 := by omega
  conv_rhs => rw [split]
  rw [List.take_add_one, underway.line, underway.crossed]
  rfl

/-- Messages that are equally far on the same path are in the same queue. -/
theorem lane_eq (underway : m.Underway lane) (too : n.Underway other)
    (path : m.mMsgPath = n.mMsgPath) (hop : m.mNextHop = n.mNextHop) : lane = other := by
  have line := underway.line
  rw [path, hop, too.line] at line
  exact Prod.ext (Option.some.inj line).symm (underway.forward.trans too.forward.symm)

theorem timed (underway : m.Underway lane) (line : LineSpec) (curTime : Nat) (q : MsgQueue σ g) :
    (calculateMessageEventTimes line m curTime q).Underway lane :=
  ⟨underway.isPath, underway.started, underway.crossed, underway.line, underway.forward⟩

theorem withPath {serial : Nat} {body : List UInt8} {path : List Vertex} {source dest : σ}
    {u v : Vertex} {edge : g.NetEdge} (isPath : g.IsPath path) (first : path[0]? = some u)
    (second : path[1]? = some v) (found : g.getEdge u v = some edge) :
    (Message.withPath serial body path source dest).incNextHop.Underway
      (edge.line, Wire.direction u edge) where
  isPath := isPath
  started := Nat.zero_lt_one
  crossed := rfl
  line := NetworkGraph.linesOf_getElem isPath first second found
  forward := Wire.direction_of_getEdge found

theorem onward (underway : m.Underway lane) {u v : Vertex} {next : g.NetEdge}
    (here : m.getNextHop = some u) (there : m.incNextHop.getNextHop = some v)
    (found : g.getEdge u v = some next) :
    (Wire.onward m lane.1).Underway (next.line, Wire.direction u next) where
  isPath := underway.isPath
  started := Nat.succ_pos _
  crossed := underway.crossed_eq_take
  line := NetworkGraph.linesOf_getElem underway.isPath here there found
  forward := Wire.direction_of_getEdge found

/-- At the end of the path, all its lines have been crossed. -/
theorem crossed_all (underway : m.Underway lane) (last : m.incNextHop.getNextHop = none) :
    (Wire.onward m lane.1).crossed = g.linesOf m.mMsgPath := by
  have length : m.mMsgPath.length ≤ m.mNextHop + 1 := List.getElem?_eq_none_iff.mp last
  have lines := NetworkGraph.length_linesOf underway.isPath
  rw [Wire.onward, underway.crossed_eq_take]
  exact List.take_of_length_le (by omega)

end Message.Underway

/-! ### Places -/

inductive Place (σ : Type) (g : NetworkGraph) where
  | queued (lane : g.Lane)
  | arrived (sock : σ)
  | consumed
  | discarded
  deriving DecidableEq

namespace Wire

/-- The serial numbers of the messages in a place. -/
def holds (w : Wire σ g) : Place σ g → List Nat
  | .queued lane => (w.queue lane).map fun x => x.2.serial
  | .arrived sock => (w.mArrivedQueue sock).map Message.serial
  | .consumed => w.consumed.map Message.serial
  | .discarded => w.discarded.map Message.serial

/-- The messages are where they should be. -/
structure Placed (w : Wire σ g) : Prop where
  underway : ∀ lane, ∀ x ∈ w.queue lane, x.2.Underway lane
  atDestination : ∀ sock, ∀ m ∈ w.mArrivedQueue sock, m.mDestSock = sock
  whole : ∀ m ∈ w.delivered, m.crossed = g.linesOf m.mMsgPath
  issued : ∀ m ∈ w.delivered, m.serial < w.sent

/-- Messages on the same path keep their order. -/
structure InOrder (w : Wire σ g) : Prop where
  queued : ∀ lane, (w.queue lane).Pairwise fun x y =>
    x.2.mMsgPath = y.2.mMsgPath → x.2.mNextHop = y.2.mNextHop → x.2.serial < y.2.serial
  ahead : ∀ lane other, ∀ x ∈ w.queue lane, ∀ y ∈ w.queue other,
    x.2.mMsgPath = y.2.mMsgPath → x.2.serial < y.2.serial → y.2.mNextHop ≤ x.2.mNextHop
  delivered : w.delivered.Pairwise fun m n => m.mMsgPath = n.mMsgPath → m.serial < n.serial
  behind : ∀ m ∈ w.delivered, ∀ lane, ∀ x ∈ w.queue lane,
    m.mMsgPath = x.2.mMsgPath → m.serial < x.2.serial

variable [DecidableEq σ]

/-! ### How the places change -/

theorem holds_setQueue (w : Wire σ g) (lane : g.Lane) (q : MsgQueue σ g) (note : LineNote σ g) :
    (w.setQueue lane q note).holds =
      Function.update w.holds (.queued lane) (q.map fun x => x.2.serial) := by
  funext place
  cases place with
  | queued other =>
    by_cases same : other = lane
    · subst same
      rw [Function.update_self, holds, setQueue_queue_self]
    · rw [Function.update_of_ne (by simpa using same), holds, setQueue_queue_of_ne _ _ _ same]
      rfl
  | arrived sock | consumed | discarded => rw [Function.update_of_ne (by simp)]; rfl

theorem holds_addMessage (w : Wire σ g) (msg : Message σ g) (vertex : Vertex) (edge : g.NetEdge)
    (curTime : Nat) : (w.addMessage msg vertex edge curTime).holds =
      Ledger.add w.holds (.queued (edge.line, direction vertex edge)) [msg.serial] := by
  have append : ∀ (lane : g.Lane) (x : Nat × Message σ g),
      (w.setQueue lane (w.queue lane ++ [x]) (.leave x.2)).holds =
        Ledger.add w.holds (.queued lane) [x.2.serial] := by
    intro lane x
    rw [holds_setQueue, Ledger.add, List.map_append]
    rfl
  -- the places do not depend on the notes and the events
  exact append _ _

theorem holds_addArrivedMessage (w : Wire σ g) (msg : Message σ g) :
    (w.addArrivedMessage msg).holds = Ledger.add w.holds (.arrived msg.mDestSock) [msg.serial] := by
  funext place
  cases place with
  | arrived sock =>
    by_cases same : sock = msg.mDestSock
    · subst same
      simp [Ledger.add, holds, addArrivedMessage]
    · rw [Ledger.add, Function.update_of_ne (by simpa using same)]
      simp [holds, addArrivedMessage, same]
  | queued lane | consumed | discarded =>
    rw [Ledger.add, Function.update_of_ne (by simp)]
    rfl

omit [DecidableEq σ] in
theorem mem_addMessage {w : Wire σ g} {msg : Message σ g} {vertex : Vertex} {edge : g.NetEdge}
    {curTime : Nat} {lane : g.Lane} {x : Nat × Message σ g}
    (member : x ∈ (w.addMessage msg vertex edge curTime).queue lane) :
    x ∈ w.queue lane ∨ lane = (edge.line, direction vertex edge) ∧
      x.2 = calculateMessageEventTimes (g.lines.get edge.line) msg curTime (w.queue lane) := by
  simp only [addMessage, addEvent] at member
  by_cases same : lane = (edge.line, direction vertex edge)
  · subst same
    rw [setQueue_queue_self] at member
    rcases List.mem_append.mp member with old | new
    · exact Or.inl old
    · rw [List.mem_singleton.mp new]
      exact Or.inr ⟨rfl, rfl⟩
  · rw [setQueue_queue_of_ne _ _ _ same] at member
    exact Or.inl member

omit [DecidableEq σ] in
theorem mem_takeFirst {w : Wire σ g} {lane other : g.Lane} {x y : Nat × Message σ g}
    {rest : MsgQueue σ g} (head : w.queue lane = x :: rest)
    (member : y ∈ (w.takeFirst lane x rest).queue other) : y ∈ w.queue other := by
  by_cases same : other = lane
  · subst same
    rw [takeFirst, setQueue_queue_self] at member
    exact head ▸ List.mem_cons_of_mem x member
  · rwa [takeFirst, setQueue_queue_of_ne _ _ _ same] at member

/-- The first message of a queue leaves for another place. -/
theorem ledger_takeFirst {w : Wire σ g} (ledger : Ledger w.holds (· < w.sent)) {lane : g.Lane}
    {x : Nat × Message σ g} {rest : MsgQueue σ g} (head : w.queue lane = x :: rest)
    (place : Place σ g) : Ledger (Ledger.add (w.takeFirst lane x rest).holds place [x.2.serial])
      (· < w.sent) := by
  have split : (w.holds (.queued lane)).Perm ((rest.map fun y => y.2.serial) ++ [x.2.serial]) := by
    simp only [holds, head, List.map_cons]
    exact (List.perm_append_singleton _ _).symm
  have moved := ledger.move (.queued lane) place split
  rwa [← holds_setQueue w lane rest (.leave x.2)] at moved

omit [DecidableEq σ] in
/-- The messages behind the first one have other serial numbers. -/
theorem serial_ne_of_takeFirst {w : Wire σ g} (ledger : Ledger w.holds (· < w.sent))
    {lane other : g.Lane} {x y : Nat × Message σ g} {rest : MsgQueue σ g}
    (head : w.queue lane = x :: rest) (member : y ∈ (w.takeFirst lane x rest).queue other) :
    y.2.serial ≠ x.2.serial := by
  intro same
  have here : x.2.serial ∈ w.holds (.queued lane) :=
    List.mem_map.mpr ⟨x, head ▸ List.mem_cons_self .., rfl⟩
  have there : x.2.serial ∈ w.holds (.queued other) :=
    List.mem_map.mpr ⟨y, mem_takeFirst head member, same⟩
  obtain rfl := Place.queued.inj (ledger.apart _ _ _ here there)
  have once := ledger.once (.queued lane)
  rw [takeFirst, setQueue_queue_self] at member
  simp only [holds, head, List.map_cons, List.nodup_cons] at once
  exact once.1 (List.mem_map.mpr ⟨y, member, same⟩)

theorem holds_flushLine (w : Wire σ g) (sock : σ) (hop : Vertex × g.NetEdge) :
    (w.flushLine sock hop.1 hop.2).holds = Ledger.add
      (Function.update w.holds (.queued (hopLane hop))
        (((w.queue (hopLane hop)).filter fun x => !addressedTo sock x).map fun x => x.2.serial))
      .discarded (((w.queue (hopLane hop)).filter (addressedTo sock)).map fun x => x.2.serial) := by
  funext place
  cases place with
  | queued other =>
    rw [Ledger.add, Function.update_of_ne (by simp)]
    by_cases same : other = hopLane hop
    · subst same
      rw [Function.update_self, holds, flushLine_queue_self]
    · rw [Function.update_of_ne (by simpa using same), holds, flushLine_queue_of_ne w sock _ same]
      rfl
  | arrived sock | consumed =>
    rw [Ledger.add, Function.update_of_ne (by simp), Function.update_of_ne (by simp)]
    rfl
  | discarded =>
    rw [Ledger.add, Function.update_self, Function.update_of_ne (by simp), holds]
    change List.map _ (_ ++ _) = _
    rw [List.map_append, List.map_map]
    rfl

/-! ### Every message is in one place -/

omit [DecidableEq σ] in
theorem ledger_start : Ledger (start : Wire σ g).holds (· < (start : Wire σ g).sent) where
  once := fun p => by cases p <;> exact .nil
  apart := fun p q k here _ => by cases p <;> simp [holds, start] at here
  covers := fun k => by
    constructor
    · intro live
      exact absurd live (Nat.not_lt_zero k)
    · rintro ⟨p, here⟩
      cases p <;> simp [holds, start] at here

variable {target : σ → Prop} {flushes : Wire σ g → σ → g.Lane → Prop}

/-- Every move keeps the ledger: a message that is sent is issued, and any other change
moves messages from one place to another. -/
theorem ledger_move {w t : Wire σ g} (ledger : Ledger w.holds (· < w.sent))
    (move : Move target flushes w t) : Ledger t.holds (· < t.sent) := by
  have issue : ∀ place : Place σ g, Ledger (Ledger.add w.holds place [w.sent]) (· < w.sent + 1) :=
    fun place => (ledger.issue place w.sent (Nat.lt_irrefl _)).of_live fun k => by omega
  cases move with
  | tick time => exact ledger
  | notify time data s about ok => exact ledger
  | skip time data rest front about => exact ledger
  | send body path source dest u v edge isPath first second found ok =>
    rw [holds_addMessage]
    exact issue _
  | loopback body u source dest ok =>
    have arrived : Ledger ({ w with sent := w.sent + 1 }.addArrivedMessage
        (Message.withPath w.sent body [u] source dest).incNextHop).holds (· < w.sent + 1) := by
      rw [holds_addArrivedMessage]
      exact issue _
    exact arrived
  | hop time edge next dir events x rest u v front head here there found =>
    rw [holds_addMessage]
    exact ledger_takeFirst ledger head _
  | arrive time edge dir events x rest u front head here last =>
    rw [holds_addArrivedMessage]
    exact ledger_takeFirst ledger head _
  | flush sock source dest edge found ok =>
    rw [w.holds_flushLine sock (source, edge)]
    refine ledger.move _ _ ?_
    rw [← List.map_append]
    refine List.Perm.map _ (List.Perm.symm ?_)
    exact List.perm_append_comm.trans (List.filter_append_perm (addressedTo sock) _)
  | consume sock message rest front =>
    have split : (w.holds (.arrived sock)).Perm (rest.map Message.serial ++ [message.serial]) := by
      simp only [holds, front, List.map_cons]
      exact (List.perm_append_singleton _ _).symm
    refine (ledger.move (.arrived sock) .consumed split).of_perm fun place => .of_eq ?_
    cases place with
    | arrived other =>
      rw [Ledger.add, Function.update_of_ne (by simp)]
      by_cases same : other = sock
      · subst same
        simp [holds]
      · simp [holds, same]
    | queued lane | discarded => simp [Ledger.add, holds]
    | consumed => simp [Ledger.add, holds]
  | cut sock message rest length front =>
    refine ledger.of_perm fun place => .of_eq ?_
    cases place with
    | arrived other =>
      by_cases same : other = sock
      · subst same
        simp [holds, front]
      · simp [holds, same]
    | queued lane | consumed | discarded => rfl

/-! ### Every message is where it should be -/

omit [DecidableEq σ] in
theorem placed_start : (start : Wire σ g).Placed where
  underway := fun _ _ hx => by simp [start] at hx
  atDestination := fun _ _ hm => by simp [start] at hm
  whole := fun _ hm => by simp [start] at hm
  issued := fun _ hm => by simp [start] at hm

omit [DecidableEq σ] in
theorem Placed.addMessage {w : Wire σ g} (placed : w.Placed) {msg : Message σ g}
    {vertex : Vertex} {edge : g.NetEdge} (curTime : Nat)
    (new : msg.Underway (edge.line, direction vertex edge)) :
    (w.addMessage msg vertex edge curTime).Placed where
  underway := fun lane x member => by
    rcases mem_addMessage member with old | ⟨rfl, same⟩
    · exact placed.underway lane x old
    · rw [same]
      exact new.timed _ _ _
  atDestination := placed.atDestination
  whole := placed.whole
  issued := placed.issued

omit [DecidableEq σ] in
theorem Placed.takeFirst {w : Wire σ g} (placed : w.Placed) {lane : g.Lane}
    {x : Nat × Message σ g} {rest : MsgQueue σ g} (head : w.queue lane = x :: rest) :
    (w.takeFirst lane x rest).Placed :=
  ⟨fun other y member => placed.underway other y (mem_takeFirst head member),
    placed.atDestination, placed.whole, placed.issued⟩

theorem mem_mArrivedQueue_addArrivedMessage {w : Wire σ g} {msg m : Message σ g} {sock : σ}
    (member : m ∈ (w.addArrivedMessage msg).mArrivedQueue sock) :
    m ∈ w.mArrivedQueue sock ∨ m = msg ∧ sock = msg.mDestSock := by
  by_cases same : sock = msg.mDestSock
  · subst same
    simpa [addArrivedMessage] using member
  · exact Or.inl (by simpa [addArrivedMessage, same] using member)

theorem Placed.addArrivedMessage {w : Wire σ g} (placed : w.Placed) {msg : Message σ g}
    (whole : msg.crossed = g.linesOf msg.mMsgPath) (issued : msg.serial < w.sent) :
    (w.addArrivedMessage msg).Placed where
  underway := placed.underway
  atDestination := fun sock m member => by
    rcases mem_mArrivedQueue_addArrivedMessage member with old | ⟨rfl, rfl⟩
    · exact placed.atDestination sock m old
    · rfl
  whole := List.forall_mem_append.mpr ⟨placed.whole, List.forall_mem_singleton.mpr whole⟩
  issued := List.forall_mem_append.mpr ⟨placed.issued, List.forall_mem_singleton.mpr issued⟩

omit [DecidableEq σ] in
/-- A new number is greater than all that were used. -/
theorem Placed.send {w : Wire σ g} (placed : w.Placed) :
    ({ w with sent := w.sent + 1 } : Wire σ g).Placed :=
  ⟨placed.underway, placed.atDestination, placed.whole,
    fun m member => Nat.lt_succ_of_lt (placed.issued m member)⟩

theorem mem_flushLine {w : Wire σ g} {sock : σ} (hop : Vertex × g.NetEdge) {lane : g.Lane}
    {x : Nat × Message σ g} (member : x ∈ (w.flushLine sock hop.1 hop.2).queue lane) :
    x ∈ w.queue lane := by
  by_cases same : lane = hopLane hop
  · subst same
    rw [flushLine_queue_self] at member
    exact (List.mem_filter.mp member).1
  · rwa [flushLine_queue_of_ne w sock _ same] at member

omit [DecidableEq σ] in
theorem serial_lt_of_mem {w : Wire σ g} (ledger : Ledger w.holds (· < w.sent)) {lane : g.Lane}
    {x : Nat × Message σ g} (member : x ∈ w.queue lane) : x.2.serial < w.sent :=
  (ledger.covers _).mpr ⟨.queued lane, List.mem_map.mpr ⟨x, member, rfl⟩⟩

theorem atDestination_update {arrived : σ → List (Message σ g)} {sock : σ}
    {q : List (Message σ g)} (all : ∀ other, ∀ m ∈ arrived other, m.mDestSock = other)
    (new : ∀ m ∈ q, m.mDestSock = sock) :
    ∀ other, ∀ m ∈ Function.update arrived sock q other, m.mDestSock = other :=
  (Function.forall_update_iff arrived fun other q => ∀ m ∈ q, m.mDestSock = other).mpr
    ⟨new, fun other _ => all other⟩

theorem Placed.move {w t : Wire σ g} (placed : w.Placed)
    (ledger : Ledger w.holds (· < w.sent)) (move : Move target flushes w t) : t.Placed := by
  cases move with
  | tick time | notify time data s about ok | skip time data rest front about =>
    exact ⟨placed.underway, placed.atDestination, placed.whole, placed.issued⟩
  | send body path source dest u v edge isPath first second found ok =>
    exact placed.send.addMessage _ (Message.Underway.withPath isPath first second found)
  | loopback body u source dest ok =>
    have arrived : (({ w with sent := w.sent + 1 } : Wire σ g).addArrivedMessage
        (Message.withPath w.sent body [u] source dest).incNextHop).Placed :=
      placed.send.addArrivedMessage rfl (Nat.lt_succ_self _)
    exact ⟨arrived.underway, arrived.atDestination, arrived.whole, arrived.issued⟩
  | hop time edge next dir events x rest u v front head here there found =>
    have underway := placed.underway (edge.line, dir) x (head ▸ List.mem_cons_self ..)
    exact (placed.takeFirst head).addMessage time (underway.onward here there found)
  | arrive time edge dir events x rest u front head here last =>
    have member : x ∈ w.queue (edge.line, dir) := head ▸ List.mem_cons_self ..
    have underway := placed.underway (edge.line, dir) x member
    exact (placed.takeFirst head).addArrivedMessage (underway.crossed_all last)
      (serial_lt_of_mem ledger member)
  | flush sock source dest edge found ok =>
    refine ⟨fun lane x member => ?_, placed.atDestination, placed.whole, placed.issued⟩
    exact placed.underway lane x (mem_flushLine (source, edge) member)
  | consume sock message rest front =>
    refine ⟨placed.underway, atDestination_update placed.atDestination fun m later => ?_,
      placed.whole, placed.issued⟩
    exact placed.atDestination sock m (front ▸ List.mem_cons_of_mem _ later)
  | cut sock message rest length front =>
    refine ⟨placed.underway, atDestination_update placed.atDestination
      (List.forall_mem_cons.mpr ⟨?_, fun m later => ?_⟩), placed.whole, placed.issued⟩
    · exact placed.atDestination sock message (front ▸ List.mem_cons_self ..)
    · exact placed.atDestination sock m (front ▸ List.mem_cons_of_mem _ later)

/-! ### No message is overtaken -/

omit [DecidableEq σ] in
theorem inOrder_start : (start : Wire σ g).InOrder where
  queued := fun _ => .nil
  ahead := fun _ _ _ hx => by simp [start] at hx
  delivered := .nil
  behind := fun _ hm => by simp [start] at hm

omit [DecidableEq σ] in
/-- Messages that are taken away do not disturb the order of the others. -/
theorem InOrder.of_sublist {w t : Wire σ g} (inOrder : w.InOrder)
    (fewer : ∀ lane, (t.queue lane).Sublist (w.queue lane)) (same : t.delivered = w.delivered) :
    t.InOrder where
  queued := fun lane => (inOrder.queued lane).sublist (fewer lane)
  ahead := fun lane other x hx y hy =>
    inOrder.ahead lane other x ((fewer lane).subset hx) y ((fewer other).subset hy)
  delivered := same ▸ inOrder.delivered
  behind := fun m hm lane x hx =>
    inOrder.behind m (same ▸ hm) lane x ((fewer lane).subset hx)

omit [DecidableEq σ] in
theorem InOrder.takeFirst {w : Wire σ g} (inOrder : w.InOrder) {lane : g.Lane}
    {x : Nat × Message σ g} {rest : MsgQueue σ g} (head : w.queue lane = x :: rest) :
    (w.takeFirst lane x rest).InOrder := by
  refine inOrder.of_sublist (fun other => ?_) rfl
  by_cases same : other = lane
  · subst same
    rw [Wire.takeFirst, setQueue_queue_self, head]
    exact List.sublist_cons_self x rest
  · rw [Wire.takeFirst, setQueue_queue_of_ne _ _ _ same]

omit [DecidableEq σ] in
/-- The messages on the path of the first message of a queue that were sent before it
are at least one hop further, and those sent after it are not further than it is. -/
theorem InOrder.around {w : Wire σ g} (inOrder : w.InOrder) (placed : w.Placed)
    (ledger : Ledger w.holds (· < w.sent)) {lane : g.Lane} {x : Nat × Message σ g}
    {rest : MsgQueue σ g} (head : w.queue lane = x :: rest) {other : g.Lane}
    {y : Nat × Message σ g} (member : y ∈ (w.takeFirst lane x rest).queue other)
    (path : y.2.mMsgPath = x.2.mMsgPath) :
    (y.2.serial < x.2.serial ∧ x.2.mNextHop + 1 ≤ y.2.mNextHop) ∨
      (x.2.serial < y.2.serial ∧ y.2.mNextHop ≤ x.2.mNextHop) := by
  have hx : x ∈ w.queue lane := head ▸ List.mem_cons_self ..
  have hy := mem_takeFirst head member
  have ne := serial_ne_of_takeFirst ledger head member
  rcases Nat.lt_or_gt_of_ne ne with older | newer
  · have ahead := inOrder.ahead other lane y hy x hx path older
    -- equally far would mean behind `x` in the same queue
    have further : y.2.mNextHop ≠ x.2.mNextHop := by
      intro hop
      obtain rfl := (placed.underway other y hy).lane_eq (placed.underway lane x hx) path hop
      rw [Wire.takeFirst, setQueue_queue_self] at member
      have queued := inOrder.queued other
      rw [head] at queued
      have later := (List.pairwise_cons.mp queued).1 y member path.symm hop.symm
      omega
    exact Or.inl ⟨older, by omega⟩
  · exact Or.inr ⟨newer, inOrder.ahead lane other x hx y hy path.symm newer⟩

omit [DecidableEq σ] in
theorem InOrder.addMessage {w : Wire σ g} (inOrder : w.InOrder) {msg : Message σ g}
    {vertex : Vertex} {edge : g.NetEdge} (curTime : Nat)
    (older : ∀ lane, ∀ y ∈ w.queue lane, y.2.mMsgPath = msg.mMsgPath →
      y.2.serial < msg.serial → msg.mNextHop ≤ y.2.mNextHop)
    (newer : ∀ lane, ∀ y ∈ w.queue lane, y.2.mMsgPath = msg.mMsgPath →
      msg.serial < y.2.serial → y.2.mNextHop ≤ msg.mNextHop)
    (level : ∀ lane, ∀ y ∈ w.queue lane, y.2.mMsgPath = msg.mMsgPath →
      y.2.mNextHop = msg.mNextHop → y.2.serial < msg.serial)
    (delivered : ∀ m ∈ w.delivered, m.mMsgPath = msg.mMsgPath → m.serial < msg.serial) :
    (w.addMessage msg vertex edge curTime).InOrder where
  queued := fun lane => by
    simp only [Wire.addMessage, addEvent]
    by_cases same : lane = (edge.line, direction vertex edge)
    · subst same
      rw [setQueue_queue_self]
      refine List.pairwise_append.mpr
        ⟨inOrder.queued _, List.pairwise_singleton _ _, fun y hy x hx path hop => ?_⟩
      obtain rfl := List.mem_singleton.mp hx
      exact level _ y hy path hop
    · rw [setQueue_queue_of_ne _ _ _ same]
      exact inOrder.queued lane
  ahead := fun lane other x hx y hy path sooner => by
    rcases mem_addMessage hx with oldX | ⟨rfl, newX⟩
    · rcases mem_addMessage hy with oldY | ⟨rfl, newY⟩
      · exact inOrder.ahead lane other x oldX y oldY path sooner
      · rw [newY] at path sooner ⊢
        exact older lane x oldX path sooner
    · rcases mem_addMessage hy with oldY | ⟨rfl, newY⟩
      · rw [newX] at path sooner ⊢
        exact newer other y oldY path.symm sooner
      · rw [newX, newY] at sooner
        exact absurd sooner (Nat.lt_irrefl _)
  delivered := inOrder.delivered
  behind := fun m hm lane x hx path => by
    rcases mem_addMessage hx with old | ⟨rfl, new⟩
    · exact inOrder.behind m hm lane x old path
    · rw [new] at path ⊢
      exact delivered m hm path

theorem InOrder.addArrivedMessage {w : Wire σ g} (inOrder : w.InOrder) {msg : Message σ g}
    (before : ∀ m ∈ w.delivered, m.mMsgPath = msg.mMsgPath → m.serial < msg.serial)
    (after : ∀ lane, ∀ y ∈ w.queue lane, msg.mMsgPath = y.2.mMsgPath →
      msg.serial < y.2.serial) : (w.addArrivedMessage msg).InOrder where
  queued := inOrder.queued
  ahead := inOrder.ahead
  delivered := by
    refine List.pairwise_append.mpr
      ⟨inOrder.delivered, List.pairwise_singleton _ _, fun m hm n hn => ?_⟩
    obtain rfl := List.mem_singleton.mp hn
    exact before m hm
  behind := List.forall_mem_append.mpr ⟨inOrder.behind, List.forall_mem_singleton.mpr after⟩

theorem InOrder.move {w t : Wire σ g} (inOrder : w.InOrder) (placed : w.Placed)
    (ledger : Ledger w.holds (· < w.sent)) (move : Move target flushes w t) : t.InOrder := by
  cases move with
  | tick time | notify time data s about ok | skip time data rest front about
  | consume sock message rest front | cut sock message rest length front =>
    exact inOrder.of_sublist (fun _ => .refl _) rfl
  | send body path source dest u v edge isPath first second found ok =>
    -- the new message is the last one that was sent, and has made no hop
    have old := fun lane y (hy : y ∈ w.queue lane) => serial_lt_of_mem ledger hy
    have sent : ({ w with sent := w.sent + 1 } : Wire σ g).InOrder :=
      inOrder.of_sublist (fun _ => .refl _) rfl
    refine sent.addMessage _ ?_ ?_ ?_ ?_
    · intro lane y hy _ _
      exact (placed.underway lane y hy).started
    · intro lane y hy _ sooner
      exact absurd sooner (Nat.lt_asymm (old lane y hy))
    · intro lane y hy _ _
      exact old lane y hy
    · intro m hm _
      exact placed.issued m hm
  | loopback body u source dest ok =>
    have sent : ({ w with sent := w.sent + 1 } : Wire σ g).InOrder :=
      inOrder.of_sublist (fun _ => .refl _) rfl
    refine (sent.addArrivedMessage (fun m hm _ => placed.issued m hm) ?_).of_sublist
      (fun _ => .refl _) rfl
    -- no message with such a path is ever queued
    intro lane y hy path
    have next := (placed.underway lane y hy).next_lt
    have started := (placed.underway lane y hy).started
    rw [← path] at next
    simp only [Message.withPath, Message.incNextHop, List.length_singleton] at next
    omega
  | hop time edge next dir events x rest u v front head here there found =>
    have around := fun lane y (hy : y ∈ (w.takeFirst (edge.line, dir) x rest).queue lane) =>
      inOrder.around placed ledger head hy
    refine (inOrder.takeFirst head).addMessage time ?_ ?_ ?_ ?_
    · intro lane y hy path older
      rcases around lane y hy path with ⟨-, further⟩ | ⟨newer, -⟩
      · exact further
      · exact absurd older (Nat.lt_asymm newer)
    · intro lane y hy path newer
      rcases around lane y hy path with ⟨older, -⟩ | ⟨-, notFurther⟩
      · exact absurd older (Nat.lt_asymm newer)
      · exact Nat.le_succ_of_le notFurther
    · intro lane y hy path level
      rcases around lane y hy path with ⟨older, -⟩ | ⟨-, notFurther⟩
      · exact older
      · simp only [onward, Message.incNextHop] at level
        omega
    · intro m hm
      exact inOrder.behind m hm (edge.line, dir) x (head ▸ List.mem_cons_self ..)
  | arrive time edge dir events x rest u front head here last =>
    refine (inOrder.takeFirst head).addArrivedMessage ?_ ?_
    · intro m hm
      exact inOrder.behind m hm (edge.line, dir) x (head ▸ List.mem_cons_self ..)
    · intro lane y hy path
      rcases inOrder.around placed ledger head hy path.symm with ⟨-, further⟩ | ⟨newer, -⟩
      · -- nothing on the path is further than its end
        have next := (placed.underway lane y (mem_takeFirst head hy)).next_lt
        have length : x.2.mMsgPath.length ≤ x.2.mNextHop + 1 := List.getElem?_eq_none_iff.mp last
        have same : x.2.mMsgPath = y.2.mMsgPath := path
        rw [← same] at next
        omega
      · exact newer
  | flush sock source dest edge found ok =>
    refine inOrder.of_sublist (fun lane => ?_) rfl
    by_cases same : lane = hopLane (source, edge)
    · subst same
      rw [w.flushLine_queue_self sock (source, edge)]
      exact List.filter_sublist
    · rw [w.flushLine_queue_of_ne sock (source, edge) same]

/-! ### Arrivals are read in their order -/

/-- The serial numbers of the messages for a socket. -/
def forSock (sock : σ) (ms : List (Message σ g)) : List Nat :=
  (ms.filter fun m => m.mDestSock = sock).map Message.serial

/-- A socket has read, or has still to read, what was delivered to it, in that order. -/
def Received (w : Wire σ g) : Prop :=
  ∀ sock, forSock sock w.consumed ++ (w.mArrivedQueue sock).map Message.serial =
    forSock sock w.delivered

theorem forSock_snoc (sock : σ) (ms : List (Message σ g)) (m : Message σ g) :
    forSock sock (ms ++ [m]) =
      forSock sock ms ++ if m.mDestSock = sock then [m.serial] else [] := by
  rw [forSock, List.filter_append, List.map_append, List.filter_singleton]
  by_cases same : m.mDestSock = sock <;> simp [forSock, same]

theorem received_start : (start : Wire σ g).Received := fun _ => rfl

theorem Received.addArrivedMessage {w : Wire σ g} (received : w.Received) (msg : Message σ g) :
    (w.addArrivedMessage msg).Received := by
  intro sock
  have before := received sock
  simp only [Wire.addArrivedMessage, forSock_snoc]
  by_cases same : sock = msg.mDestSock
  · subst same
    rw [Function.update_self, if_pos rfl, List.map_append, ← before, List.append_assoc]
    rfl
  · rw [Function.update_of_ne same, if_neg (Ne.symm same), List.append_nil]
    exact before

theorem Received.move {w t : Wire σ g} (received : w.Received) (placed : w.Placed)
    (move : Move target flushes w t) : t.Received := by
  cases move with
  | tick time | notify time data s about ok | skip time data rest front about
  | send body path source dest u v edge isPath first second found ok
  | hop time edge next dir events x rest u v front head here there found
  | flush sock source dest edge found ok => exact received
  | loopback body u source dest ok =>
    exact Received.addArrivedMessage (w := { w with sent := w.sent + 1 }) received _
  | arrive time edge dir events x rest u front head here last =>
    exact Received.addArrivedMessage (w := w.takeFirst (edge.line, dir) x rest) received _
  | consume sock message rest front =>
    have dest := placed.atDestination sock message (front ▸ List.mem_cons_self ..)
    intro other
    have before := received other
    simp only [forSock_snoc, dest]
    by_cases same : other = sock
    · subst same
      rw [front, List.map_cons] at before
      rw [Function.update_self, if_pos rfl, ← before, List.append_assoc]
      rfl
    · rw [Function.update_of_ne same, if_neg (Ne.symm same), List.append_nil]
      exact before
  | cut sock message rest length front =>
    intro other
    have before := received other
    by_cases same : other = sock
    · subst same
      rw [front] at before
      simpa using before
    · simpa [same] using before

/-! ### Discards -/

/-- A message is discarded only by a flush for its destination. -/
theorem discarded_moves {closed : σ → Prop} {w t : Wire σ g}
    (moves : Moves target (fun _ sock _ => closed sock) w t) :
    ∀ m ∈ t.discarded, m ∈ w.discarded ∨ closed m.mDestSock := by
  refine moves.keeps (fun t => ∀ m ∈ t.discarded, m ∈ w.discarded ∨ closed m.mDestSock) ?_
    fun m => Or.inl
  intro u v before move
  cases move with
  | tick time | notify time data s about ok | skip time data rest front about
  | send body path source dest u v edge isPath first second found ok
  | loopback body u source dest ok
  | hop time edge next dir events x rest u v front head here there found
  | arrive time edge dir events x rest u front head here last
  | consume sock message rest front | cut sock message rest length front => exact before
  | flush sock source dest edge found ok =>
    refine List.forall_mem_append.mpr ⟨before, fun m hm => ?_⟩
    obtain ⟨x, hx, rfl⟩ := List.mem_map.mp hm
    have dest : x.2.mDestSock = sock := by simpa using (List.mem_filter.mp hx).2
    exact Or.inr (dest ▸ ok)

/-! ### What is delivered -/

/-- Every message is in one place, on its way in order or with its destination, and
messages on the same path arrive as they were sent. -/
structure DeliversOnce (w : Wire σ g) : Prop where
  ledger : Ledger w.holds (· < w.sent)
  inTurn : ∀ lane, ∀ x ∈ w.queue lane, x.2.crossed ++ [lane.1] <+: g.linesOf x.2.mMsgPath
  whole : ∀ m ∈ w.delivered, m.crossed = g.linesOf m.mMsgPath
  atDestination : ∀ sock, ∀ m ∈ w.mArrivedQueue sock, m.mDestSock = sock
  received : w.Received
  delivered : w.delivered.Pairwise fun m n => m.mMsgPath = n.mMsgPath → m.serial < n.serial
  behind : ∀ m ∈ w.delivered, ∀ lane, ∀ x ∈ w.queue lane,
    m.mMsgPath = x.2.mMsgPath → m.serial < x.2.serial

/-- The invariants of all runs. -/
structure Sound (w : Wire σ g) : Prop where
  ledger : Ledger w.holds (· < w.sent)
  placed : w.Placed
  inOrder : w.InOrder
  received : w.Received

theorem sound_start : (start : Wire σ g).Sound :=
  ⟨ledger_start, placed_start, inOrder_start, received_start⟩

theorem Sound.move {w t : Wire σ g} (sound : w.Sound) (move : Move target flushes w t) :
    t.Sound where
  ledger := ledger_move sound.ledger move
  placed := sound.placed.move sound.ledger move
  inOrder := sound.inOrder.move sound.placed sound.ledger move
  received := sound.received.move sound.placed move

theorem Sound.deliversOnce {w : Wire σ g} (sound : w.Sound) : w.DeliversOnce where
  ledger := sound.ledger
  inTurn := fun lane x hx => by
    rw [(sound.placed.underway lane x hx).crossed_eq_take]
    exact List.take_prefix _ _
  whole := sound.placed.whole
  atDestination := sound.placed.atDestination
  received := sound.received
  delivered := sound.inOrder.delivered
  behind := sound.inOrder.behind

/-- A message that is not yet at the end of its path can go on. -/
theorem moveMessage_defined (w : Wire σ g) {msg : Message σ g} (curTime : Nat)
    (isPath : g.IsPath msg.mMsgPath) (inside : msg.mNextHop < msg.mMsgPath.length) :
    ∃ t, w.moveMessage msg curTime = some t := by
  have here : msg.getNextHop = some (msg.mMsgPath.get ⟨_, inside⟩) :=
    List.getElem?_eq_getElem inside
  rw [moveMessage, here]
  dsimp only
  cases there : msg.incNextHop.getNextHop with
  | none => exact ⟨_, rfl⟩
  | some v =>
    have joined : (g.getEdge (msg.mMsgPath.get ⟨_, inside⟩) v).isSome := by
      obtain ⟨more, rfl⟩ := List.getElem?_eq_some_iff.mp there
      exact List.isChain_iff_getElem.mp isPath msg.mNextHop more
    obtain ⟨edge, found⟩ := Option.isSome_iff_exists.mp joined
    dsimp only
    rw [found]
    exact ⟨_, rfl⟩

/-- Where events and queues agree, the next event can be processed. -/
theorem Sound.processNextEvent {w : Wire σ g} (sound : w.Sound) (scheduled : w.Scheduled) :
    ∃ t, w.processNextEvent = some t := by
  unfold Wire.processNextEvent
  split
  next => exact ⟨w, rfl⟩
  next time data events front =>
    cases data with
    | connectionInit s | connectionComplete s | localhostDelivery s => exact ⟨_, rfl⟩
    | message edge dir =>
      obtain ⟨x, rest, head, -⟩ := scheduled.eventsMatch.first time edge dir events front
      have underway := sound.placed.underway (edge.line, dir) x (head ▸ List.mem_cons_self ..)
      have queued : (w.setCurrentTime time).queue (edge.line, dir) = x :: rest := head
      simp only [processMessageEvent, queued]
      exact moveMessage_defined _ time underway.isPath underway.next_lt

theorem Sound.processUntil {time fuel : Nat} {w : Wire σ g} (sound : w.Sound)
    (scheduled : w.Scheduled) : ∃ t, processUntil time fuel w = some t := by
  induction fuel generalizing w with
  | zero => exact ⟨w, rfl⟩
  | succ fuel ih =>
    unfold Wire.processUntil
    split
    next => exact ⟨w, rfl⟩
    next =>
      split
      next =>
        obtain ⟨u, first⟩ := sound.processNextEvent scheduled
        have moves : Moves (fun _ => False) FlushedLast w u := processNextEvent_moves first
        obtain ⟨t, rest⟩ := ih (moves.keeps Sound (fun _ _ => Sound.move) sound)
          (moves.keeps Scheduled (fun _ _ => Scheduled.move) scheduled)
        exact ⟨t, by rw [first, Option.bind_some, rest]⟩
      next => exact ⟨w, rfl⟩

theorem Sound.processEvents {w : Wire σ g} (sound : w.Sound) (scheduled : w.Scheduled)
    (time_step : Nat) : ∃ t, w.processEvents time_step = some t := by
  have move : Move (fun _ => False) FlushedLast w (w.setCurrentTime (w.mCurrentTime + time_step)) :=
    .tick w _
  exact (sound.move move).processUntil (scheduled.move move)

end Wire

/-! ### Runs -/

namespace Simulator

variable [DecidableEq σ]

/-- Whichever queues are flushed, a step is a sequence of moves. -/
theorem closing_moves {s t : Simulator σ g} (routed : s.ends.Routed g) {op : Op σ}
    (stepped : s.step op = some t) :
    Wire.Moves (Targets s t op) (fun _ sock _ => op = .close sock) s.wire t.wire := by
  refine step_moves routed op stepped (fun _ _ _ _ same => same) ?_
  rintro i rfl path flushed hop member
  rfl

theorem sound_step {s t : Simulator σ g} (routed : s.ends.Routed g) (sound : s.wire.Sound)
    {op : Op σ} (stepped : s.step op = some t) : t.wire.Sound :=
  (closing_moves routed stepped).keeps Wire.Sound (fun _ _ => Wire.Sound.move) sound

theorem sound_run {type : σ → SocketType} {blocking : σ → Bool} {ops : List (Op σ)}
    {t : Simulator σ g} (reached : run step (start type blocking) ops = some t) :
    t.ends.Routed g ∧ t.wire.Sound := by
  refine run_invariant (fun s => s.ends.Routed g ∧ s.wire.Sound) ?_
    ⟨routed_start type blocking, Wire.sound_start⟩ reached
  intro s op t ⟨routed, sound⟩ stepped
  exact ⟨routed_step routed op stepped, sound_step routed sound stepped⟩

theorem discarded_run {s t : Simulator σ g} {ops : List (Op σ)} (routed : s.ends.Routed g)
    (reached : run step s ops = some t) :
    ∀ m ∈ t.wire.discarded, m ∈ s.wire.discarded ∨ .close m.mDestSock ∈ ops := by
  induction ops generalizing s with
  | nil =>
    obtain rfl := Option.some.inj reached
    exact fun m => Or.inl
  | cons op ops ih =>
    obtain ⟨u, first, rest⟩ := run_cons_eq_some.mp reached
    intro m hm
    rcases ih (routed_step routed op first) rest m hm with before | later
    · rcases Wire.discarded_moves (closing_moves routed first) m before with old | now
      · exact Or.inl old
      · exact Or.inr (now ▸ List.mem_cons_self ..)
    · exact Or.inr (List.mem_cons_of_mem _ later)

end Simulator

end VRJuggler.Sim
