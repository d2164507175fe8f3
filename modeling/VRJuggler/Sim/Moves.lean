import Mathlib.Logic.Relation
import VRJuggler.Sim.Simulator

/-!
# What can happen on the wire

Every operation of the simulator changes the wire by a sequence of moves of ten
kinds. An invariant of the wire is proved once for each move and holds in every
state that the simulator reaches.
-/
namespace VRJuggler.Sim

variable {σ : Type} [DecidableEq σ] {g : NetworkGraph}

/-! ### The hops of a path -/

namespace NetworkGraph

variable (g)

/-- The lines of a path, each with the vertex from which it is crossed. -/
def route : List Vertex → List (Vertex × g.NetEdge)
  | u :: v :: rest => ((g.getEdge u v).map fun e => (u, e)).toList ++ route (v :: rest)
  | _ => []

def linesOf (path : List Vertex) : List g.LineId := (g.route path).map fun hop => hop.2.line

variable {g}

theorem mem_route {hop : Vertex × g.NetEdge} {path : List Vertex} (member : hop ∈ g.route path) :
    ∃ v, g.getEdge hop.1 v = some hop.2 := by
  induction path with
  | nil => simp [route] at member
  | cons u path ih =>
    cases path with
    | nil => simp [route] at member
    | cons v rest =>
      rw [route, List.mem_append] at member
      rcases member with here | there
      · obtain ⟨e, found, rfl⟩ := Option.map_eq_some_iff.mp (Option.mem_toList.mp here)
        exact ⟨v, found⟩
      · exact ih there

end NetworkGraph

namespace Wire

theorem direction_of_getEdge {u v : Vertex} {e : g.NetEdge} (found : g.getEdge u v = some e) :
    direction u e = .forward := by
  simp [direction, NetworkGraph.isSource_of_getEdge found]

theorem flushPath_eq_foldl (w : Wire σ g) (sock : σ) (path : List Vertex) :
    w.flushPath sock path =
      (g.route path).foldl (fun w hop => w.flushLine sock hop.1 hop.2) w := by
  induction path generalizing w with
  | nil => rfl
  | cons u path ih =>
    cases path with
    | nil => rfl
    | cons v rest =>
      rw [flushPath, NetworkGraph.route, List.foldl_append, ih]
      cases g.getEdge u v <;> rfl

/-! ### Moves -/

/-- The first event and the first message of a queue are taken away. -/
def takeFirst (w : Wire σ g) (lane : g.Lane) (x : Nat × Message σ g) (rest : MsgQueue σ g) :
    Wire σ g :=
  { w with mEvents := w.mEvents.tail }.setQueue lane rest (.leave x.2)

/-- A message that has crossed a line and is about to go on. -/
def onward (msg : Message σ g) (line : g.LineId) : Message σ g :=
  { msg.incNextHop with crossed := msg.crossed ++ [line] }

/-- The elementary changes of the wire. `target` says to which sockets messages are
sent and events are addressed, `flushes` which queues are flushed for which socket. -/
inductive Move (target : σ → Prop) (flushes : Wire σ g → σ → g.Lane → Prop) :
    Wire σ g → Wire σ g → Prop
  | tick (w : Wire σ g) (time : Nat) : Move target flushes w (w.setCurrentTime time)
  | notify (w : Wire σ g) (time : Nat) (data : EventData σ g) (s : σ)
      (about : data.socket? = some s) (ok : target s) :
      Move target flushes w (w.addEvent time data)
  | skip (w : Wire σ g) (time : Nat) (data : EventData σ g) (rest : List (Nat × EventData σ g))
      (front : w.mEvents.entries = (time, data) :: rest) (about : data.lane? = none) :
      Move target flushes w { w with mEvents := w.mEvents.tail }
  | send (w : Wire σ g) (body : List UInt8) (path : List Vertex) (source dest : σ) (u v : Vertex)
      (edge : g.NetEdge) (isPath : g.IsPath path) (first : path[0]? = some u)
      (second : path[1]? = some v) (found : g.getEdge u v = some edge) (ok : target dest) :
      Move target flushes w ({ w with sent := w.sent + 1 }.addMessage
        (Message.withPath w.sent body path source dest).incNextHop u edge w.mCurrentTime)
  | loopback (w : Wire σ g) (body : List UInt8) (u : Vertex) (source dest : σ)
      (ok : target dest) :
      Move target flushes w (({ w with sent := w.sent + 1 }.addArrivedMessage
        (Message.withPath w.sent body [u] source dest).incNextHop).addEvent w.mCurrentTime
          (.localhostDelivery dest))
  | hop (w : Wire σ g) (time : Nat) (edge next : g.NetEdge) (dir : LineDirection)
      (events : List (Nat × EventData σ g)) (x : Nat × Message σ g) (rest : MsgQueue σ g)
      (u v : Vertex) (front : w.mEvents.entries = (time, .message edge dir) :: events)
      (head : w.queue (edge.line, dir) = x :: rest) (here : x.2.getNextHop = some u)
      (there : x.2.incNextHop.getNextHop = some v) (found : g.getEdge u v = some next) :
      Move target flushes w
        ((w.takeFirst (edge.line, dir) x rest).addMessage (onward x.2 edge.line) u next time)
  | arrive (w : Wire σ g) (time : Nat) (edge : g.NetEdge) (dir : LineDirection)
      (events : List (Nat × EventData σ g)) (x : Nat × Message σ g) (rest : MsgQueue σ g)
      (u : Vertex) (front : w.mEvents.entries = (time, .message edge dir) :: events)
      (head : w.queue (edge.line, dir) = x :: rest) (here : x.2.getNextHop = some u)
      (last : x.2.incNextHop.getNextHop = none) :
      Move target flushes w
        ((w.takeFirst (edge.line, dir) x rest).addArrivedMessage (onward x.2 edge.line))
  | flush (w : Wire σ g) (sock : σ) (source dest : Vertex) (edge : g.NetEdge)
      (found : g.getEdge source dest = some edge)
      (ok : flushes w sock (edge.line, direction source edge)) :
      Move target flushes w (w.flushLine sock source edge)
  | consume (w : Wire σ g) (sock : σ) (message : Message σ g) (rest : List (Message σ g))
      (front : w.mArrivedQueue sock = message :: rest) :
      Move target flushes w
        { w with
          mArrivedQueue := Function.update w.mArrivedQueue sock rest
          consumed := w.consumed ++ [message] }
  | cut (w : Wire σ g) (sock : σ) (message : Message σ g) (rest : List (Message σ g))
      (length : Nat) (front : w.mArrivedQueue sock = message :: rest) :
      Move target flushes w
        { w with
          mArrivedQueue := Function.update w.mArrivedQueue sock
            ({ message with mMsg := message.mMsg.drop length } :: rest) }

variable {target : σ → Prop} {flushes : Wire σ g → σ → g.Lane → Prop}

/-- Any number of moves. -/
abbrev Moves (target : σ → Prop) (flushes : Wire σ g → σ → g.Lane → Prop) :
    Wire σ g → Wire σ g → Prop := Relation.ReflTransGen (Move target flushes)

/-- What each move keeps, all moves keep. -/
theorem Moves.keeps {w t : Wire σ g} (inv : Wire σ g → Prop)
    (keeps : ∀ w t, inv w → Move target flushes w t → inv t) (start : inv w)
    (moves : Moves target flushes w t) : inv t := by
  induction moves with
  | refl => exact start
  | tail _ move ih => exact keeps _ _ ih move

/-! ### Operations are moves -/

theorem post_move {w t : Wire σ g} {body : List UInt8} {path : List Vertex} {source dest : σ}
    (isPath : g.IsPath path) (ok : target dest) (posted : w.post body path source dest = some t) :
    Move target flushes w t := by
  cases path with
  | nil => simp [post, sendMessage, Message.withPath, Message.getNextHop] at posted
  | cons u path =>
    cases path with
    | nil =>
      obtain rfl := Option.some.inj posted
      exact .loopback w body u source dest ok
    | cons v rest =>
      obtain ⟨edge, found⟩ := Option.isSome_iff_exists.mp (List.isChain_cons_cons.mp isPath).1
      simp only [post, sendMessage, Message.withPath, Message.getNextHop, Message.incNextHop,
        List.getElem?_cons_zero, Nat.zero_add, List.getElem?_cons_succ, found] at posted
      obtain rfl := Option.some.inj posted
      exact .send w body (u :: v :: rest) source dest u v edge isPath rfl rfl found ok

/-- What processing the next event can do: nothing when there is none, take the event away,
or take away the first message of its queue as well, which goes on or arrives. -/
inductive Processed (w : Wire σ g) : Wire σ g → Prop
  | idle (none : w.mEvents.entries = []) : Processed w w
  | skip (time : Nat) (data : EventData σ g) (events : List (Nat × EventData σ g))
      (front : w.mEvents.entries = (time, data) :: events) (about : data.lane? = none) :
      Processed w { w.setCurrentTime time with mEvents := w.mEvents.tail }
  | hop (time : Nat) (edge next : g.NetEdge) (dir : LineDirection)
      (events : List (Nat × EventData σ g)) (x : Nat × Message σ g) (rest : MsgQueue σ g)
      (u v : Vertex) (front : w.mEvents.entries = (time, .message edge dir) :: events)
      (head : w.queue (edge.line, dir) = x :: rest) (here : x.2.getNextHop = some u)
      (there : x.2.incNextHop.getNextHop = some v) (found : g.getEdge u v = some next) :
      Processed w (((w.setCurrentTime time).takeFirst (edge.line, dir) x rest).addMessage
        (onward x.2 edge.line) u next time)
  | arrive (time : Nat) (edge : g.NetEdge) (dir : LineDirection)
      (events : List (Nat × EventData σ g)) (x : Nat × Message σ g) (rest : MsgQueue σ g)
      (u : Vertex) (front : w.mEvents.entries = (time, .message edge dir) :: events)
      (head : w.queue (edge.line, dir) = x :: rest) (here : x.2.getNextHop = some u)
      (last : x.2.incNextHop.getNextHop = none) :
      Processed w (((w.setCurrentTime time).takeFirst (edge.line, dir) x rest).addArrivedMessage
        (onward x.2 edge.line))

theorem processNextEvent_cases {w t : Wire σ g} (processed : w.processNextEvent = some t) :
    w.Processed t := by
  unfold processNextEvent at processed
  split at processed
  next none =>
    obtain rfl := Option.some.inj processed
    exact .idle none
  next time data events front =>
    cases data with
    | connectionInit s | connectionComplete s | localhostDelivery s =>
      obtain rfl := Option.some.inj processed
      exact .skip time _ events front rfl
    | message edge dir =>
      simp only [processMessageEvent] at processed
      split at processed
      next => simp at processed
      next arrival msg rest head =>
        simp only [moveMessage] at processed
        split at processed
        next => simp at processed
        next u here =>
          split at processed
          next v there =>
            split at processed
            next next found =>
              obtain rfl := Option.some.inj processed
              exact .hop time edge next dir events (arrival, msg) rest u v front head here there
                found
            next => simp at processed
          next last =>
            obtain rfl := Option.some.inj processed
            exact .arrive time edge dir events (arrival, msg) rest u front head here last

theorem processNextEvent_moves {w t : Wire σ g} (processed : w.processNextEvent = some t) :
    Moves target flushes w t := by
  -- first the clock goes on, then the event is dealt with
  have tick (time : Nat) : Moves target flushes w (w.setCurrentTime time) :=
    .single (.tick w time)
  cases processNextEvent_cases processed with
  | idle none => exact .refl
  | skip time data events front about =>
    exact (tick time).tail (.skip (w.setCurrentTime time) time data events front about)
  | hop time edge next dir events x rest u v front head here there found =>
    exact (tick time).tail (.hop (w.setCurrentTime time) time edge next dir events x rest u v
      front head here there found)
  | arrive time edge dir events x rest u front head here last =>
    exact (tick time).tail (.arrive (w.setCurrentTime time) time edge dir events x rest u front
      head here last)

theorem processUntil_moves {time fuel : Nat} {w t : Wire σ g}
    (processed : processUntil time fuel w = some t) : Moves target flushes w t := by
  induction fuel generalizing w with
  | zero =>
    obtain rfl := Option.some.inj processed
    exact .refl
  | succ fuel ih =>
    unfold processUntil at processed
    split at processed
    next =>
      obtain rfl := Option.some.inj processed
      exact .refl
    next =>
      split at processed
      next =>
        obtain ⟨u, first, rest⟩ := Option.bind_eq_some_iff.mp processed
        exact (processNextEvent_moves first).trans (ih rest)
      next =>
        obtain rfl := Option.some.inj processed
        exact .refl

theorem processEvents_moves {w t : Wire σ g} {time_step : Nat}
    (processed : w.processEvents time_step = some t) : Moves target flushes w t :=
  .head (.tick w (w.mCurrentTime + time_step)) (processUntil_moves processed)

theorem read_moves (w : Wire σ g) (sock : σ) (length : Nat) :
    Moves target flushes w (w.read sock length) := by
  unfold read
  split
  next => exact .refl
  next message rest front =>
    dsimp only
    generalize (if message.getSize < length then message.getSize else length) = copy_len
    split
    · exact .single (.consume w sock message rest front)
    · exact .single (.cut w sock message rest copy_len front)

/-- A flush of a path is a sequence of flushes of its lines, if one flush does not
spoil the condition of the next. -/
theorem flushPath_moves {w : Wire σ g} {sock : σ} {path : List Vertex}
    (stays : ∀ (w : Wire σ g) (hop : Vertex × g.NetEdge) (lane : g.Lane),
      flushes w sock lane → flushes (w.flushLine sock hop.1 hop.2) sock lane)
    (ok : ∀ hop ∈ g.route path, flushes w sock (hop.2.line, direction hop.1 hop.2)) :
    Moves target flushes w (w.flushPath sock path) := by
  rw [flushPath_eq_foldl]
  have joined : ∀ hop ∈ g.route path, ∃ v, g.getEdge hop.1 v = some hop.2 :=
    fun hop => NetworkGraph.mem_route
  generalize g.route path = hops at ok joined
  induction hops generalizing w with
  | nil => exact .refl
  | cons hop hops ih =>
    rw [List.foldl_cons]
    obtain ⟨v, found⟩ := joined hop (List.mem_cons_self ..)
    have first : Move target flushes w (w.flushLine sock hop.1 hop.2) :=
      .flush w sock hop.1 v hop.2 found (ok hop (List.mem_cons_self ..))
    exact .head first (ih
      (fun next member => stays w hop _ (ok next (List.mem_cons_of_mem _ member)))
      fun next member => joined next (List.mem_cons_of_mem _ member))

/-! ### The loop of `processEvents` ends -/

omit [DecidableEq σ] in
theorem sum_hopsLeft_update (queue : g.Lane → MsgQueue σ g) (lane : g.Lane) (q : MsgQueue σ g) :
    (Finset.univ.sum fun other => hopsLeft (Function.update queue lane q other)) +
        hopsLeft (queue lane) =
      (Finset.univ.sum fun other => hopsLeft (queue other)) + hopsLeft q := by
  rw [← Finset.add_sum_erase _ _ (Finset.mem_univ lane),
    ← Finset.add_sum_erase _ (fun other => hopsLeft (queue other)) (Finset.mem_univ lane)]
  have others : ((Finset.univ.erase lane).sum fun other =>
        hopsLeft (Function.update queue lane q other)) =
      (Finset.univ.erase lane).sum fun other => hopsLeft (queue other) := by
    apply Finset.sum_congr rfl
    intro other member
    rw [Function.update_of_ne (Finset.ne_of_mem_erase member)]
  rw [Function.update_self, others]
  omega

omit [DecidableEq σ] in
theorem pending_addMessage (w : Wire σ g) (msg : Message σ g) (vertex : Vertex)
    (edge : g.NetEdge) (curTime : Nat) : (w.addMessage msg vertex edge curTime).pending =
      w.pending + (msg.mMsgPath.length - msg.mNextHop) + 1 := by
  have longer : ∀ (lane : g.Lane) (x : Nat × Message σ g),
      (Finset.univ.sum fun other =>
        hopsLeft (Function.update w.queue lane (w.queue lane ++ [x]) other)) =
      (Finset.univ.sum fun other => hopsLeft (w.queue other)) +
        (x.2.mMsgPath.length - x.2.mNextHop) := by
    intro lane x
    have sums := sum_hopsLeft_update w.queue lane (w.queue lane ++ [x])
    have appended : hopsLeft (w.queue lane ++ [x]) =
        hopsLeft (w.queue lane) + (x.2.mMsgPath.length - x.2.mNextHop) := by
      simp [hopsLeft]
    omega
  simp only [pending, addMessage, addEvent, setQueue]
  rw [longer, (w.mEvents.insert_perm _ _).length_eq, List.length_cons]
  simp only [calculateMessageEventTimes]
  omega

omit [DecidableEq σ] in
theorem pending_takeFirst {w : Wire σ g} {lane : g.Lane} {x : Nat × Message σ g}
    {rest : MsgQueue σ g} (head : w.queue lane = x :: rest) (due : w.mEvents.entries ≠ []) :
    (w.takeFirst lane x rest).pending + (x.2.mMsgPath.length - x.2.mNextHop) + 1 = w.pending := by
  have sums := sum_hopsLeft_update w.queue lane rest
  have first : hopsLeft (w.queue lane) =
      x.2.mMsgPath.length - x.2.mNextHop + hopsLeft rest := by
    rw [head]
    simp [hopsLeft]
  have length : w.mEvents.tail.entries.length + 1 = w.mEvents.entries.length := by
    rw [Multimap.tail, List.length_tail]
    have := List.length_pos_iff.mpr due
    omega
  simp only [pending, takeFirst, setQueue]
  omega

/-- Each event that is processed leaves fewer of them to be processed. -/
theorem processNextEvent_pending {w t : Wire σ g} (due : w.mEvents.entries ≠ [])
    (processed : w.processNextEvent = some t) : t.pending < w.pending := by
  cases processNextEvent_cases processed with
  | idle none => exact absurd none due
  | skip time data events front about =>
    simp only [pending, setCurrentTime, Multimap.tail, front, List.tail_cons, List.length_cons]
    omega
  | hop time edge next dir events x rest u v front head here there found =>
    -- the message had a hop left
    have inside : x.2.mNextHop < x.2.mMsgPath.length := (List.getElem?_eq_some_iff.mp here).1
    have taken := pending_takeFirst (w := w.setCurrentTime time) head due
    have added := pending_addMessage ((w.setCurrentTime time).takeFirst (edge.line, dir) x rest)
      (onward x.2 edge.line) u next time
    have same : (w.setCurrentTime time).pending = w.pending := rfl
    simp only [onward, Message.incNextHop] at added
    exact lt_of_eq_of_lt added (by omega)
  | arrive time edge dir events x rest u front head here last =>
    have inside : x.2.mNextHop < x.2.mMsgPath.length := (List.getElem?_eq_some_iff.mp here).1
    have taken := pending_takeFirst (w := w.setCurrentTime time) head due
    have same : (w.setCurrentTime time).pending = w.pending := rfl
    exact lt_of_lt_of_le (b := ((w.setCurrentTime time).takeFirst
      (edge.line, dir) x rest).pending + 1) (Nat.lt_succ_self _) (by omega)

/-- With fuel for all pending events, the loop goes on until no event is due. -/
theorem processUntil_done {time fuel : Nat} {w t : Wire σ g} (enough : w.pending ≤ fuel)
    (processed : processUntil time fuel w = some t) :
    ∀ b ∈ t.mEvents.entries.head?, time < b.1 := by
  induction fuel generalizing w with
  | zero =>
    obtain rfl := Option.some.inj processed
    have nothing : w.mEvents.entries = [] := by
      apply List.eq_nil_of_length_eq_zero
      simp only [pending] at enough
      omega
    simp [nothing]
  | succ fuel ih =>
    unfold processUntil at processed
    split at processed
    next nothing =>
      obtain rfl := Option.some.inj processed
      simp [nothing]
    next b front =>
      split at processed
      next =>
        obtain ⟨u, first, rest⟩ := Option.bind_eq_some_iff.mp processed
        have due : w.mEvents.entries ≠ [] := by
          intro nothing
          simp [nothing] at front
        have fewer := processNextEvent_pending due first
        exact ih (by omega) rest
      next later =>
        obtain rfl := Option.some.inj processed
        intro c hc
        obtain rfl := Option.some.inj (front.symm.trans hc)
        omega

theorem processEvents_done {w t : Wire σ g} {time_step : Nat}
    (processed : w.processEvents time_step = some t) :
    ∀ b ∈ t.mEvents.entries.head?, w.mCurrentTime + time_step < b.1 :=
  processUntil_done (Nat.le_refl _) processed

end Wire

end VRJuggler.Sim
