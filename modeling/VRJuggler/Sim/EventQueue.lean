import VRJuggler.Sim.Routes

/-!
# Events and queued messages

For each line and direction, the pending message events and the queued messages
should name the same times. Times grow along a queue, so that the first message is
the one that the first event is about. `std::remove_if` does not leave the removed
messages at the end of the queue; when a path is flushed, the right events are deleted
only if the messages of the flushed socket were the last ones of each queue.
-/
namespace VRJuggler.Sim

variable {σ : Type} {g : NetworkGraph}

theorem EventData.lane?_message (edge : g.NetEdge) (dir : LineDirection) :
    (message edge dir : EventData σ g).lane? = some (edge.line, dir) := rfl

theorem EventData.lane?_message_ne {edge : g.NetEdge} {dir : LineDirection} {other : g.Lane}
    (ne : other ≠ (edge.line, dir)) : (message edge dir : EventData σ g).lane? ≠ some other :=
  fun same => ne (Option.some.inj same).symm

namespace Wire

/-- The times of the pending message events of a line and a direction. -/
def eventTimes (w : Wire σ g) (lane : g.Lane) : List Nat :=
  (w.mEvents.entries.filter fun b => b.2.lane? = some lane).map Prod.fst

/-- The pending events that are not about messages. -/
def socketEvents (w : Wire σ g) : List (Nat × EventData σ g) :=
  w.mEvents.entries.filter fun b => b.2.lane? = none

/-- Events and queues agree. -/
structure Scheduled (w : Wire σ g) : Prop where
  ordered : ∀ lane, (w.queue lane).Pairwise fun x y => x.2.mFullyOnWire < y.2.mFullyOnWire
  stamped : ∀ lane, ∀ x ∈ w.queue lane, x.1 = x.2.mArrivesFully ∧
    x.2.mArrivesFully = x.2.mFullyOnWire + g.lines[lane.1].getBitTransmissionTime
  times : ∀ lane, (w.eventTimes lane).Perm ((w.queue lane).map Prod.fst)

theorem scheduled_start : (start : Wire σ g).Scheduled where
  ordered := fun _ => .nil
  stamped := fun lane x hx => by simp [start] at hx
  times := fun _ => .nil

/-- Only the queues and the events count. -/
theorem Scheduled.of_eq {w t : Wire σ g} (scheduled : w.Scheduled) (queue : t.queue = w.queue)
    (events : t.mEvents = w.mEvents) : t.Scheduled where
  ordered := fun lane => queue ▸ scheduled.ordered lane
  stamped := fun lane => queue ▸ scheduled.stamped lane
  times := fun lane => by
    rw [eventTimes, events, queue]
    exact scheduled.times lane

/-! ### Single events and messages -/

theorem eventTimes_addEvent (w : Wire σ g) (time : Nat) (data : EventData σ g) (lane : g.Lane) :
    ((w.addEvent time data).eventTimes lane).Perm
      ((if data.lane? = some lane then [time] else []) ++ w.eventTimes lane) := by
  have perm := ((w.mEvents.insert_perm time data).filter
    (fun b => b.2.lane? = some lane)).map Prod.fst
  simp only [List.filter_cons] at perm
  simp only [eventTimes, addEvent]
  by_cases about : data.lane? = some lane
  · simpa [about] using perm
  · simpa [about] using perm

theorem eventTimes_tail {w : Wire σ g} {time : Nat} {data : EventData σ g}
    {rest : List (Nat × EventData σ g)} (front : w.mEvents.entries = (time, data) :: rest)
    (lane : g.Lane) :
    w.eventTimes lane = (if data.lane? = some lane then [time] else []) ++
      ({ w with mEvents := w.mEvents.tail } : Wire σ g).eventTimes lane := by
  simp only [eventTimes, Multimap.tail, front, List.tail_cons, List.filter_cons]
  by_cases about : data.lane? = some lane <;> simp [about]

theorem Scheduled.addSocketEvent {w : Wire σ g} (scheduled : w.Scheduled) (time : Nat)
    {data : EventData σ g} (about : data.lane? = none) : (w.addEvent time data).Scheduled where
  ordered := scheduled.ordered
  stamped := scheduled.stamped
  times := fun lane => by
    have perm := w.eventTimes_addEvent time data lane
    simp only [about] at perm
    exact perm.trans (scheduled.times lane)

theorem Scheduled.skip {w : Wire σ g} (scheduled : w.Scheduled) {time : Nat}
    {data : EventData σ g} {rest : List (Nat × EventData σ g)}
    (front : w.mEvents.entries = (time, data) :: rest) (about : data.lane? = none) :
    ({ w with mEvents := w.mEvents.tail } : Wire σ g).Scheduled where
  ordered := scheduled.ordered
  stamped := scheduled.stamped
  times := fun lane => by
    have times := scheduled.times lane
    rw [eventTimes_tail front lane, about] at times
    exact times

/-! ### Queues -/

theorem setQueue_queue_self (w : Wire σ g) (lane : g.Lane) (q : MsgQueue σ g)
    (note : LineNote σ g) : (w.setQueue lane q note).queue lane = q := Function.update_self _ _ _
theorem setQueue_queue_of_ne (w : Wire σ g) {lane other : g.Lane} (q : MsgQueue σ g)
    (note : LineNote σ g) (ne : other ≠ lane) :
    (w.setQueue lane q note).queue other = w.queue other := Function.update_of_ne ne _ _

/-- A new message starts after every queued message is on the wire. -/
theorem lt_startTime {q : MsgQueue σ g} (curTime : Nat)
    (ordered : q.Pairwise fun x y => x.2.mFullyOnWire < y.2.mFullyOnWire) :
    ∀ x ∈ q, x.2.mFullyOnWire < startTime q curTime := by
  intro x hx
  obtain ⟨front, last, rfl⟩ : ∃ front last, q = front ++ [last] :=
    ⟨q.dropLast, q.getLast (List.ne_nil_of_mem hx),
      (List.dropLast_append_getLast (List.ne_nil_of_mem hx)).symm⟩
  have before : x.2.mFullyOnWire ≤ last.2.mFullyOnWire := by
    rcases List.mem_append.mp hx with there | here
    · exact Nat.le_of_lt ((List.pairwise_append.mp ordered).2.2 x there last (by simp))
    · rw [List.mem_singleton.mp here]
  simp only [startTime, List.getLast?_append, List.getLast?_singleton, Option.some_or]
  split <;> omega

theorem Scheduled.addMessage {w : Wire σ g} (scheduled : w.Scheduled) (msg : Message σ g)
    (vertex : Vertex) (edge : g.NetEdge) (curTime : Nat) :
    (w.addMessage msg vertex edge curTime).Scheduled where
  ordered := fun other => by
    simp only [Wire.addMessage, addEvent]
    by_cases same : other = (edge.line, direction vertex edge)
    · subst same
      rw [setQueue_queue_self]
      refine List.pairwise_append.mpr
        ⟨scheduled.ordered _, List.pairwise_singleton _ _, fun x hx y hy => ?_⟩
      obtain rfl := List.mem_singleton.mp hy
      have later := lt_startTime curTime (scheduled.ordered _) x hx
      simp only [calculateMessageEventTimes]
      omega
    · rw [setQueue_queue_of_ne _ _ _ same]
      exact scheduled.ordered other
  stamped := fun other => by
    simp only [Wire.addMessage, addEvent]
    by_cases same : other = (edge.line, direction vertex edge)
    · subst same
      rw [setQueue_queue_self]
      intro x hx
      rcases List.mem_append.mp hx with old | new
      · exact scheduled.stamped _ x old
      · obtain rfl := List.mem_singleton.mp new
        exact ⟨rfl, rfl⟩
    · rw [setQueue_queue_of_ne _ _ _ same]
      exact scheduled.stamped other
  times := fun other => by
    simp only [Wire.addMessage]
    refine (eventTimes_addEvent _ _ _ other).trans ?_
    simp only [addEvent]
    by_cases same : other = (edge.line, direction vertex edge)
    · subst same
      rw [setQueue_queue_self, List.map_append, if_pos (EventData.lane?_message edge _)]
      exact ((scheduled.times _).append_left _).trans List.perm_append_comm
    · rw [setQueue_queue_of_ne _ _ _ same, if_neg (EventData.lane?_message_ne same)]
      exact scheduled.times other

/-- The first event is due when the first message of its queue arrives, and both can
be taken away. -/
theorem Scheduled.takeFirst {w : Wire σ g} (scheduled : w.Scheduled) {time : Nat}
    {edge : g.NetEdge} {dir : LineDirection} {events : List (Nat × EventData σ g)}
    {x : Nat × Message σ g} {rest : MsgQueue σ g}
    (front : w.mEvents.entries = (time, .message edge dir) :: events)
    (head : w.queue (edge.line, dir) = x :: rest) :
    time = x.1 ∧ (w.takeFirst (edge.line, dir) x rest).Scheduled := by
  have times := scheduled.times (edge.line, dir)
  rw [eventTimes_tail front, head, if_pos (EventData.lane?_message edge dir)] at times
  simp only [List.singleton_append, List.map_cons] at times
  have ordered := scheduled.ordered (edge.line, dir)
  have stamped := scheduled.stamped (edge.line, dir)
  rw [head] at ordered stamped
  -- both are the least time of the queue
  have first : time = x.1 := by
    have below : time ≤ x.1 := by
      have here : x.1 ∈ w.eventTimes (edge.line, dir) := by
        rw [eventTimes_tail front, if_pos (EventData.lane?_message edge dir)]
        exact times.symm.subset (List.mem_cons_self ..)
      obtain ⟨b, hb, same⟩ := List.mem_map.mp here
      rw [← same]
      exact Multimap.head_le front b (List.mem_filter.mp hb).1
    have above : x.1 ≤ time := by
      rcases List.mem_cons.mp (times.subset (List.mem_cons_self ..)) with equal | later
      · exact Nat.le_of_eq equal.symm
      · obtain ⟨y, hy, rfl⟩ := List.mem_map.mp later
        have less := (List.pairwise_cons.mp ordered).1 y hy
        have hx := stamped x (List.mem_cons_self ..)
        have hy := stamped y (List.mem_cons_of_mem _ hy)
        omega
    exact Nat.le_antisymm below above
  refine ⟨first, fun other => ?_, fun other => ?_, fun other => ?_⟩
  · by_cases same : other = (edge.line, dir)
    · subst same
      rw [Wire.takeFirst, setQueue_queue_self]
      exact (List.pairwise_cons.mp ordered).2
    · rw [Wire.takeFirst, setQueue_queue_of_ne _ _ _ same]
      exact scheduled.ordered other
  · by_cases same : other = (edge.line, dir)
    · subst same
      rw [Wire.takeFirst, setQueue_queue_self]
      exact fun y hy => stamped y (List.mem_cons_of_mem _ hy)
    · rw [Wire.takeFirst, setQueue_queue_of_ne _ _ _ same]
      exact scheduled.stamped other
  · by_cases same : other = (edge.line, dir)
    · subst same
      rw [Wire.takeFirst, setQueue_queue_self]
      rw [first] at times
      exact times.cons_inv
    · rw [Wire.takeFirst, setQueue_queue_of_ne _ _ _ same]
      have elsewhere := scheduled.times other
      rw [eventTimes_tail front, if_neg (EventData.lane?_message_ne same)] at elsewhere
      exact elsewhere

/-! ### Flushing a line -/

variable [DecidableEq σ]

/-- The queued messages that are addressed to a socket. -/
def addressedTo (sock : σ) (x : Nat × Message σ g) : Bool := x.2.mDestSock == sock

/-- In the queue of `lane`, the messages for `sock` are the last ones. -/
def FlushedLast (w : Wire σ g) (sock : σ) (lane : g.Lane) : Prop :=
  RemovedLast (addressedTo sock) (w.queue lane)

instance (w : Wire σ g) (sock : σ) (lane : g.Lane) : Decidable (w.FlushedLast sock lane) :=
  inferInstanceAs (Decidable (RemovedLast _ _))

/-- The queue and the direction that a flush of a hop is about. -/
def hopLane (hop : Vertex × g.NetEdge) : g.Lane := (hop.2.line, direction hop.1 hop.2)

theorem flushLine_queue_self (w : Wire σ g) (sock : σ) (hop : Vertex × g.NetEdge) :
    (w.flushLine sock hop.1 hop.2).queue (hopLane hop) =
      (w.queue (hopLane hop)).filter fun x => !addressedTo sock x := Function.update_self _ _ _

theorem flushLine_queue_of_ne (w : Wire σ g) (sock : σ) (hop : Vertex × g.NetEdge)
    {other : g.Lane} (ne : other ≠ hopLane hop) :
    (w.flushLine sock hop.1 hop.2).queue other = w.queue other := Function.update_of_ne ne _ _

/-- The deleted events are those of the lane at the times that are left behind. -/
theorem flushLine_entries (w : Wire σ g) (sock : σ) (hop : Vertex × g.NetEdge) :
    (w.flushLine sock hop.1 hop.2).mEvents.entries = w.mEvents.entries.filter fun b =>
      !(decide (b.1 ∈ (removeIf (addressedTo sock) (w.queue (hopLane hop))).2.map Prod.fst) &&
        decide (b.2.lane? = some (hopLane hop))) :=
  Multimap.foldl_eraseAll_entries _ _ _

/-- Events about other things stay. -/
theorem flushLine_filter_entries (w : Wire σ g) (sock : σ) (hop : Vertex × g.NetEdge)
    {about : Option g.Lane} (other : about ≠ some (hopLane hop)) :
    (w.flushLine sock hop.1 hop.2).mEvents.entries.filter (fun b => b.2.lane? = about) =
      w.mEvents.entries.filter fun b => b.2.lane? = about := by
  rw [flushLine_entries, List.filter_filter]
  apply List.filter_congr
  intro b _
  by_cases same : b.2.lane? = about
  · simp [same, other]
  · simp [same]

omit [DecidableEq σ] in
/-- Arrival times grow along a queue. -/
theorem Scheduled.nodup_times {w : Wire σ g} (scheduled : w.Scheduled) (lane : g.Lane) :
    ((w.queue lane).map Prod.fst).Nodup := by
  refine List.pairwise_map.mpr ((scheduled.ordered lane).imp_of_mem ?_)
  intro x y hx hy less
  have hx := scheduled.stamped lane x hx
  have hy := scheduled.stamped lane y hy
  omega

/-- When the flushed messages are the last ones, just their events are deleted. -/
theorem Scheduled.eventTimes_flushLine {w : Wire σ g} (scheduled : w.Scheduled) {sock : σ}
    {hop : Vertex × g.NetEdge} (last : w.FlushedLast sock (hopLane hop)) :
    ((w.flushLine sock hop.1 hop.2).eventTimes (hopLane hop)).Perm
      (((w.queue (hopLane hop)).filter fun x => !addressedTo sock x).map Prod.fst) := by
  have kept : (w.flushLine sock hop.1 hop.2).eventTimes (hopLane hop) =
      (w.eventTimes (hopLane hop)).filter fun k =>
        decide (k ∉ ((w.queue (hopLane hop)).filter (addressedTo sock)).map Prod.fst) := by
    rw [eventTimes, flushLine_entries, removeIf_snd_of_last last, eventTimes, List.filter_map]
    congr 1
    rw [List.filter_filter, List.filter_filter]
    apply List.filter_congr
    intro b _
    by_cases about : b.2.lane? = some (hopLane hop)
    · simp [about]
    · simp [about]
  rw [kept]
  exact perm_filter_keys (scheduled.nodup_times _) (scheduled.times _) _

theorem Scheduled.flushLine {w : Wire σ g} (scheduled : w.Scheduled) {sock : σ}
    (hop : Vertex × g.NetEdge) (last : w.FlushedLast sock (hopLane hop)) :
    (w.flushLine sock hop.1 hop.2).Scheduled := by
  refine ⟨fun other => ?_, fun other => ?_, fun other => ?_⟩ <;>
    by_cases same : other = hopLane hop
  · subst same
    rw [flushLine_queue_self]
    exact (scheduled.ordered _).filter _
  · rw [flushLine_queue_of_ne w sock _ same]
    exact scheduled.ordered other
  · subst same
    rw [flushLine_queue_self]
    exact fun x hx => scheduled.stamped _ x (List.mem_filter.mp hx).1
  · rw [flushLine_queue_of_ne w sock _ same]
    exact scheduled.stamped other
  · subst same
    rw [flushLine_queue_self]
    exact scheduled.eventTimes_flushLine last
  · rw [flushLine_queue_of_ne w sock _ same, eventTimes,
      flushLine_filter_entries w sock hop fun equal => same (Option.some.inj equal)]
    exact scheduled.times other

/-- A flush does not disturb the next one. -/
theorem FlushedLast.flushLine {w : Wire σ g} {sock : σ} (hop : Vertex × g.NetEdge)
    {lane : g.Lane} (last : w.FlushedLast sock lane) :
    (w.flushLine sock hop.1 hop.2).FlushedLast sock lane := by
  unfold FlushedLast
  by_cases same : lane = hopLane hop
  · -- nothing is left to be removed
    subst same
    rw [flushLine_queue_self]
    intro x hx
    simp [removeIf, List.filter_filter] at hx
  · rwa [flushLine_queue_of_ne w sock _ same]

/-! ### All moves -/

theorem Scheduled.move {target : σ → Prop} {w t : Wire σ g} (scheduled : w.Scheduled)
    (move : Move target FlushedLast w t) : t.Scheduled := by
  cases move with
  | tick time => exact scheduled.of_eq rfl rfl
  | notify time data s about ok =>
    apply scheduled.addSocketEvent
    cases data with
    | message edge dir => simp [EventData.socket?] at about
    | connectionInit s | connectionComplete s | localhostDelivery s => rfl
  | skip time data rest front about => exact scheduled.skip front about
  | send body path source dest u v edge isPath first second found ok =>
    exact (scheduled.of_eq (t := { w with sent := w.sent + 1 }) rfl rfl).addMessage _ u edge _
  | loopback body u source dest ok =>
    have about : (EventData.localhostDelivery dest : EventData σ g).lane? = none := rfl
    refine Scheduled.addSocketEvent ?_ _ about
    exact scheduled.of_eq rfl rfl
  | hop time edge next dir events x rest u v front head here there found =>
    exact (scheduled.takeFirst front head).2.addMessage _ u next time
  | arrive time edge dir events x rest u front head here last =>
    exact (scheduled.takeFirst front head).2.of_eq rfl rfl
  | flush sock source dest edge found ok => exact scheduled.flushLine (source, edge) ok
  | consume sock message rest front => exact scheduled.of_eq rfl rfl
  | cut sock message rest length front => exact scheduled.of_eq rfl rfl

/-! ### Flushing a path -/

/-- The queues that the flush of a path goes through. -/
def pathLanes (path : List Vertex) : List g.Lane := (g.route path).map hopLane

theorem flushPath_queue (w : Wire σ g) (sock : σ) (path : List Vertex) (lane : g.Lane) :
    (w.flushPath sock path).queue lane = if lane ∈ pathLanes path
      then (w.queue lane).filter fun x => !addressedTo sock x else w.queue lane := by
  rw [flushPath_eq_foldl, pathLanes]
  induction g.route path generalizing w with
  | nil => simp
  | cons hop hops ih =>
    rw [List.foldl_cons, ih, List.map_cons]
    by_cases same : lane = hopLane hop
    · -- a second flush of the same queue finds nothing
      subst same
      simp [flushLine_queue_self]
    · rw [flushLine_queue_of_ne w sock _ same]
      exact if_congr (by simp [same]) rfl rfl

theorem flushPath_filter_entries (w : Wire σ g) (sock : σ) (path : List Vertex)
    (about : Option g.Lane) (other : ∀ lane ∈ pathLanes path, about ≠ some lane) :
    (w.flushPath sock path).mEvents.entries.filter (fun b => b.2.lane? = about) =
      w.mEvents.entries.filter fun b => b.2.lane? = about := by
  rw [flushPath_eq_foldl]
  unfold pathLanes at other
  generalize g.route path = hops at other
  induction hops generalizing w with
  | nil => rfl
  | cons hop hops ih =>
    rw [List.map_cons, List.forall_mem_cons] at other
    rw [List.foldl_cons, ih _ other.2, flushLine_filter_entries w sock hop other.1]

theorem Scheduled.flushPath {w : Wire σ g} (scheduled : w.Scheduled) {sock : σ}
    {path : List Vertex} (last : ∀ lane ∈ pathLanes path, w.FlushedLast sock lane) :
    (w.flushPath sock path).Scheduled := by
  have moves : Moves (fun _ => True) FlushedLast w (w.flushPath sock path) :=
    flushPath_moves (fun _ hop _ => FlushedLast.flushLine hop) fun hop member =>
      last _ (List.mem_map_of_mem member)
  exact moves.keeps Scheduled (fun _ _ => Scheduled.move) scheduled

/-! ### What the events promise -/

/-- The events of each queue are due at the arrival times of its messages, and the first
event is due when the first message of its queue arrives. -/
structure EventsMatch (w : Wire σ g) : Prop where
  times : ∀ lane, (w.eventTimes lane).Perm ((w.queue lane).map fun x => x.2.mArrivesFully)
  first : ∀ time edge dir events, w.mEvents.entries = (time, .message edge dir) :: events →
    ∃ x rest, w.queue (edge.line, dir) = x :: rest ∧ x.2.mArrivesFully = time

/-- The flush of a path removed the messages for a socket from its queues and just the
events of these messages, and nothing else. -/
structure FlushedExactly (w t : Wire σ g) (sock : σ) (path : List Vertex) : Prop where
  queues : ∀ lane, t.queue lane = if lane ∈ pathLanes path
    then (w.queue lane).filter fun x => !addressedTo sock x else w.queue lane
  events : ∀ lane ∈ pathLanes path, (w.eventTimes lane).Perm (t.eventTimes lane ++
    ((w.queue lane).filter (addressedTo sock)).map fun x => x.2.mArrivesFully)
  others : ∀ about, (∀ lane ∈ pathLanes path, about ≠ some lane) →
    (t.mEvents.entries.filter fun b => b.2.lane? = about) =
      w.mEvents.entries.filter fun b => b.2.lane? = about

omit [DecidableEq σ] in
theorem Scheduled.map_arrives {w : Wire σ g} (scheduled : w.Scheduled) (lane : g.Lane)
    (p : Nat × Message σ g → Bool) :
    ((w.queue lane).filter p).map Prod.fst =
      ((w.queue lane).filter p).map fun x => x.2.mArrivesFully :=
  List.map_congr_left fun x hx => (scheduled.stamped lane x (List.mem_filter.mp hx).1).1

omit [DecidableEq σ] in
theorem Scheduled.eventsMatch {w : Wire σ g} (scheduled : w.Scheduled) : w.EventsMatch where
  times := fun lane => by
    have same := scheduled.map_arrives lane fun _ => true
    rw [List.filter_true] at same
    exact same ▸ scheduled.times lane
  first := fun time edge dir events front => by
    have times := scheduled.times (edge.line, dir)
    rw [eventTimes_tail front, if_pos (EventData.lane?_message edge dir)] at times
    cases head : w.queue (edge.line, dir) with
    | nil => simp [head] at times
    | cons x rest =>
      refine ⟨x, rest, rfl, ?_⟩
      have stamped := scheduled.stamped (edge.line, dir) x (head ▸ List.mem_cons_self ..)
      rw [← stamped.1]
      exact (scheduled.takeFirst front head).1.symm

theorem Scheduled.flushedExactly {w : Wire σ g} (scheduled : w.Scheduled) {sock : σ}
    {path : List Vertex} (last : ∀ lane ∈ pathLanes path, w.FlushedLast sock lane) :
    FlushedExactly w (w.flushPath sock path) sock path where
  queues := w.flushPath_queue sock path
  others := w.flushPath_filter_entries sock path
  events := fun lane member => by
    have after := (scheduled.flushPath last).times lane
    rw [flushPath_queue, if_pos member] at after
    rw [← scheduled.map_arrives lane]
    -- both parts of the queue together are the queue
    have parts : (((w.queue lane).filter fun x => !addressedTo sock x) ++
        (w.queue lane).filter (addressedTo sock)).Perm (w.queue lane) := by
      have both := List.filter_append_perm (addressedTo sock) (w.queue lane)
      exact List.perm_append_comm.trans both
    calc w.eventTimes lane
      _ |>.Perm ((w.queue lane).map Prod.fst) := scheduled.times lane
      _ |>.Perm (((w.queue lane).filter fun x => !addressedTo sock x).map Prod.fst ++
          ((w.queue lane).filter (addressedTo sock)).map Prod.fst) := by
        rw [← List.map_append]
        exact (parts.map _).symm
      _ |>.Perm _ := after.symm.append_right _

end Wire

/-! ### Runs -/

namespace Simulator

variable [DecidableEq σ]

/-- The socket that an operation closes. -/
def closing : Op σ → Option σ
  | .close i => some i
  | _ => none

/-- In every queue on the path of a socket that is closed, the messages for it are the
last ones. -/
def Flushable (s : Simulator σ g) (op : Op σ) : Prop :=
  ∀ i ∈ closing op, ∀ path ∈ flushedPath s.ends i, ∀ lane ∈ Wire.pathLanes path,
    s.wire.FlushedLast i lane

instance (s : Simulator σ g) (op : Op σ) : Decidable (Flushable s op) :=
  inferInstanceAs (Decidable (∀ i ∈ closing op, ∀ path ∈ flushedPath s.ends i,
    ∀ lane ∈ Wire.pathLanes path, s.wire.FlushedLast i lane))

/-- What every move of a kind keeps, a flushable step keeps. -/
theorem flushable_moves {s t : Simulator σ g} (routed : s.ends.Routed g) {op : Op σ}
    (ok : Flushable s op) (stepped : s.step op = some t) :
    Wire.Moves (Targets s t op) Wire.FlushedLast s.wire t.wire := by
  refine step_moves routed op stepped (fun _ _ hop _ => Wire.FlushedLast.flushLine hop) ?_
  rintro i rfl path flushed hop member
  exact ok i rfl path flushed _ (List.mem_map_of_mem member)

theorem scheduled_step {s t : Simulator σ g} (routed : s.ends.Routed g)
    (scheduled : s.wire.Scheduled) {op : Op σ} (ok : Flushable s op)
    (stepped : s.step op = some t) : t.wire.Scheduled :=
  (flushable_moves routed ok stepped).keeps Wire.Scheduled (fun _ _ => Wire.Scheduled.move)
    scheduled

/-- Events and queues agree in every state of a run whose closes are flushable. -/
theorem scheduled_run {type : σ → SocketType} {blocking : σ → Bool} {ops : List (Op σ)}
    {t : Simulator σ g} (meets : Meets step Flushable (start (g := g) type blocking) ops)
    (reached : run step (start type blocking) ops = some t) :
    t.ends.Routed g ∧ t.wire.Scheduled := by
  refine run_invariant_of_meets (fun s => s.ends.Routed g ∧ s.wire.Scheduled) Flushable ?_
    ⟨routed_start type blocking, Wire.scheduled_start⟩ meets reached
  intro s op t ⟨routed, scheduled⟩ ok stepped
  exact ⟨routed_step routed op stepped, scheduled_step routed scheduled ok stepped⟩

/-- A listening socket, two connectors on the other node, and the sockets that accept
them. -/
def twoConnections : List (Op (Fin 5)) :=
  [.setLocalAddr 0 ⟨1, 80⟩, .open_ 0, .bind 0, .listen 0,
    .setLocalAddr 1 ⟨2, 0⟩, .setRemoteAddr 1 ⟨1, 80⟩, .open_ 1, .connect 1, .accept 0 3,
    .setLocalAddr 2 ⟨2, 0⟩, .setRemoteAddr 2 ⟨1, 80⟩, .open_ 2, .connect 2, .accept 0 4]

/-- Both connectors write, and one of the accepted sockets is closed. -/
def writeBothAndClose (i : Fin 5) : List (Op (Fin 5)) :=
  twoConnections ++ [.write 1 [7], .write 2 [7, 7], .close i]

/-- The events of both connections are processed before anything is written. -/
def writeBoth : List (Op (Fin 5)) :=
  twoConnections ++ List.replicate 4 .processNextEvent ++ [.write 1 [7], .write 2 [7, 7]]

def allStream : Fin 5 → SocketType := fun _ => .stream

def theLane : NetworkGraph.twoNodes.Lane := (theLine, .forward)

end Simulator

end VRJuggler.Sim
