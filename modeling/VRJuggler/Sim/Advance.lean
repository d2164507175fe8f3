import VRJuggler.Sim.Delivery

/-!
# Advancing the simulation

`processEvents` moves the clock to the end of its time step before it looks at the events.
The events that are due are then dealt with in the order of their times, each with its own
time for the next hop of its message, while the clock stands at the end already. So an event
that comes from another one is not before that event, but it may well be before the clock.
-/
namespace VRJuggler.Sim

variable {σ : Type} {g : NetworkGraph}

namespace Wire

/-- No pending event is before the clock. -/
def Timely (w : Wire σ g) : Prop := ∀ b ∈ w.mEvents.entries, w.mCurrentTime ≤ b.1

theorem timely_start : (start : Wire σ g).Timely := by
  simp [Timely, start, Multimap.empty]

/-! ### New events -/

theorem mem_addEvent {w : Wire σ g} {time : Nat} {data : EventData σ g}
    {b : Nat × EventData σ g} :
    b ∈ (w.addEvent time data).mEvents.entries ↔ b = (time, data) ∨ b ∈ w.mEvents.entries := by
  rw [addEvent, (w.mEvents.insert_perm time data).mem_iff, List.mem_cons]

/-- A message on its way arrives no earlier than it entered the line. -/
theorem mem_addMessage_entries {w : Wire σ g} {msg : Message σ g} {vertex : Vertex}
    {edge : g.NetEdge} {curTime : Nat} {b : Nat × EventData σ g}
    (member : b ∈ (w.addMessage msg vertex edge curTime).mEvents.entries) :
    b ∈ w.mEvents.entries ∨ curTime ≤ b.1 := by
  rcases mem_addEvent.mp member with rfl | old
  · right
    have starts := le_startTime (w.queue (edge.line, direction vertex edge)) curTime
    simp only [calculateMessageEventTimes]
    omega
  · exact Or.inl old

theorem Timely.addEvent {w : Wire σ g} (timely : w.Timely) (data : EventData σ g) :
    (w.addEvent w.mCurrentTime data).Timely := by
  intro b member
  rcases mem_addEvent.mp member with rfl | old
  · exact le_rfl
  · exact timely b old

variable [DecidableEq σ]

/-- Sending a message schedules its arrival, or its delivery at once. -/
theorem Timely.post {w t : Wire σ g} (timely : w.Timely) {body : List UInt8}
    {path : List Vertex} {source dest : σ} (posted : w.post body path source dest = some t) :
    t.Timely := by
  rw [Wire.post, sendMessage] at posted
  split at posted
  next => cases posted
  next =>
    split at posted
    next =>
      split at posted
      next =>
        obtain rfl := Option.some.inj posted
        intro b member
        rcases mem_addMessage_entries member with old | new
        · exact timely b old
        · exact new
      next =>
        obtain rfl := Option.some.inj posted
        exact timely
    next =>
      obtain rfl := Option.some.inj posted
      intro b member
      rcases mem_addEvent.mp member with rfl | old
      · exact le_rfl
      · exact timely b old

/-- A flush only deletes events. -/
theorem Timely.flushPath {w : Wire σ g} (timely : w.Timely) (sock : σ) (path : List Vertex) :
    (w.flushPath sock path).Timely := by
  rw [flushPath_eq_foldl]
  induction g.route path generalizing w with
  | nil => exact timely
  | cons hop hops ih =>
    apply ih
    intro b member
    rw [flushLine_entries] at member
    exact timely b (List.mem_filter.mp member).1

/-- Reading changes neither the events nor the clock. -/
theorem Timely.read {w : Wire σ g} (timely : w.Timely) (sock : σ) (length : Nat) :
    (w.read sock length).Timely := by
  have same : (w.read sock length).mEvents = w.mEvents ∧
      (w.read sock length).mCurrentTime = w.mCurrentTime := by
    rw [Wire.read]
    split
    next => simp
    next =>
      dsimp only
      split_ifs <;> simp
  rw [Timely, same.1, same.2]
  exact timely

/-! ### One event -/

omit [DecidableEq σ] in
theorem setCurrentTime_of_le {w : Wire σ g} {time : Nat} (late : time ≤ w.mCurrentTime) :
    (w.setCurrentTime time).mCurrentTime = w.mCurrentTime :=
  if_neg (Nat.not_lt.mpr late)

omit [DecidableEq σ] in
theorem setCurrentTime_of_ge {w : Wire σ g} {time : Nat} (later : w.mCurrentTime ≤ time) :
    (w.setCurrentTime time).mCurrentTime = time := by
  simp only [setCurrentTime]
  split <;> omega

/-- The clock goes on to the time of the first event, and whatever is pending afterwards is
not before that event. -/
theorem Processed.pending {w t : Wire σ g} (processed : w.Processed t) {time : Nat}
    {data : EventData σ g} {events : List (Nat × EventData σ g)}
    (front : w.mEvents.entries = (time, data) :: events) :
    t.mCurrentTime = (w.setCurrentTime time).mCurrentTime ∧
      ∀ b ∈ t.mEvents.entries, time ≤ b.1 := by
  have remaining : ∀ b ∈ w.mEvents.tail.entries, time ≤ b.1 := fun b member =>
    Multimap.head_le front b (List.mem_of_mem_tail member)
  cases processed with
  | idle none => simp [none] at front
  | skip now other rest here about =>
    obtain ⟨⟨rfl, -⟩, -⟩ : ((now = time ∧ other = data) ∧ rest = events) := by
      simpa using here.symm.trans front
    exact ⟨rfl, remaining⟩
  | hop now edge next dir rest x queue u v here head hop there found =>
    obtain rfl : now = time := by
      have same := here.symm.trans front
      simp only [List.cons.injEq, Prod.mk.injEq] at same
      exact same.1.1
    refine ⟨rfl, fun b member => ?_⟩
    rcases mem_addMessage_entries member with old | new
    · exact remaining b old
    · exact new
  | arrive now edge dir rest x queue u here head hop last =>
    obtain rfl : now = time := by
      have same := here.symm.trans front
      simp only [List.cons.injEq, Prod.mk.injEq] at same
      exact same.1.1
    exact ⟨rfl, remaining⟩

theorem Timely.processNextEvent {w t : Wire σ g} (timely : w.Timely)
    (processed : w.processNextEvent = some t) : t.Timely := by
  have cases := processNextEvent_cases processed
  cases front : w.mEvents.entries with
  | nil =>
    rw [Wire.processNextEvent, front] at processed
    obtain rfl := Option.some.inj processed
    exact timely
  | cons first events =>
    obtain ⟨clock, later⟩ := cases.pending front
    have due : w.mCurrentTime ≤ first.1 := timely first (front ▸ List.mem_cons_self ..)
    intro b member
    rw [clock, setCurrentTime_of_ge due]
    exact later b member

/-! ### The rounds of `processEvents` -/

end Wire

/-- One round of the loop: the event and its time, the state in which it is met and the
state that processing it leads to. -/
structure Round (σ : Type) (g : NetworkGraph) where
  time : Nat
  data : EventData σ g
  before : Wire σ g
  after : Wire σ g

namespace Wire

variable [DecidableEq σ]

/-- The rounds of `processUntil`. -/
def roundsUntil (event_time : Nat) : Nat → Wire σ g → List (Round σ g)
  | 0, _ => []
  | fuel + 1, w =>
    match w.mEvents.entries.head?, w.processNextEvent with
    | some (time, data), some t =>
      if time ≤ event_time then ⟨time, data, w, t⟩ :: roundsUntil event_time fuel t else []
    | _, _ => []

/-- The rounds of `processEvents`. -/
def rounds (w : Wire σ g) (time_step : Nat) : List (Round σ g) :=
  let event_time := w.mCurrentTime + time_step
  let w := w.setCurrentTime event_time
  roundsUntil event_time w.pending w

/-- The first round starts from `w`, each one where the one before ended, and the last one
ends in `t`. -/
def Linked (w : Wire σ g) : List (Round σ g) → Wire σ g → Prop
  | [], t => w = t
  | r :: rs, t => r.before = w ∧ Linked r.after rs t

/-- What a round does while the clock stands at `clock`: it takes the first event, whose
message arrives just then, and leaves no event that is before it. -/
structure InTurn (clock : Nat) (r : Round σ g) : Prop where
  first : ∃ events, r.before.mEvents.entries = (r.time, r.data) :: events
  processed : r.before.processNextEvent = some r.after
  due : r.time ≤ clock
  clockBefore : r.before.mCurrentTime = clock
  clockAfter : r.after.mCurrentTime = clock
  arrives : ∀ edge dir, r.data = .message edge dir → ∃ x rest,
    r.before.queue (edge.line, dir) = x :: rest ∧ x.2.mArrivesFully = r.time
  later : ∀ b ∈ r.after.mEvents.entries, r.time ≤ b.1

theorem roundsUntil_succ {event_time fuel : Nat} {w t : Wire σ g} {first : Nat × EventData σ g}
    {events : List (Nat × EventData σ g)} (front : w.mEvents.entries = first :: events)
    (due : first.1 ≤ event_time) (processed : w.processNextEvent = some t) :
    roundsUntil event_time (fuel + 1) w =
      ⟨first.1, first.2, w, t⟩ :: roundsUntil event_time fuel t := by
  simp [roundsUntil, front, processed, due]

/-- The loop is the sequence of its rounds, and the clock stands still. -/
theorem Scheduled.rounds {event_time fuel : Nat} {w t : Wire σ g} (scheduled : w.Scheduled)
    (clock : w.mCurrentTime = event_time) (processed : processUntil event_time fuel w = some t) :
    w.Linked (roundsUntil event_time fuel w) t ∧ t.mCurrentTime = event_time ∧
      ∀ r ∈ roundsUntil event_time fuel w, InTurn event_time r := by
  induction fuel generalizing w with
  | zero =>
    obtain rfl := Option.some.inj processed
    exact ⟨rfl, clock, by simp [roundsUntil]⟩
  | succ fuel ih =>
    cases front : w.mEvents.entries with
    | nil =>
      rw [processUntil, front] at processed
      obtain rfl := Option.some.inj processed
      have none : roundsUntil event_time (fuel + 1) w = [] := by simp [roundsUntil, front]
      simp [none, Linked, clock]
    | cons first events =>
      rw [processUntil, front] at processed
      simp only [List.head?_cons] at processed
      split at processed
      next due =>
        obtain ⟨u, one, rest⟩ := Option.bind_eq_some_iff.mp processed
        obtain ⟨still, later⟩ := (processNextEvent_cases one).pending front
        rw [setCurrentTime_of_le (clock ▸ due), clock] at still
        have moves : Moves (fun _ => False) FlushedLast w u := processNextEvent_moves one
        obtain ⟨linked, ended, all⟩ :=
          ih (moves.keeps Scheduled (fun _ _ => Scheduled.move) scheduled) still rest
        rw [roundsUntil_succ front due one]
        refine ⟨⟨rfl, linked⟩, ended, ?_⟩
        intro r member
        rcases List.mem_cons.mp member with rfl | member
        · refine ⟨⟨events, front⟩, one, due, clock, still, ?_, later⟩
          intro edge dir about
          apply scheduled.eventsMatch.first first.1 edge dir events
          rw [front, ← about]
        · exact all r member
      next early =>
        obtain rfl := Option.some.inj processed
        have none : roundsUntil event_time (fuel + 1) w = [] := by
          simp only [roundsUntil, front, List.head?_cons]
          split
          next time data _ same _ =>
            obtain rfl : first = (time, data) := Option.some.inj same
            exact if_neg early
          next => rfl
        simp [none, Linked, clock]

/-- No round is about an earlier event than the ones before. -/
theorem roundsUntil_sorted {event_time fuel low : Nat} {w : Wire σ g}
    (above : ∀ b ∈ w.mEvents.entries, low ≤ b.1) :
    (∀ r ∈ roundsUntil event_time fuel w, low ≤ r.time) ∧
      (roundsUntil event_time fuel w).Pairwise fun r s => r.time ≤ s.time := by
  induction fuel generalizing w low with
  | zero => simp [roundsUntil]
  | succ fuel ih =>
    rw [roundsUntil]
    split
    next time data t first processed =>
      split
      next due =>
        obtain ⟨events, front⟩ := List.head?_eq_some_iff.mp first
        have here : low ≤ time := above _ (front ▸ List.mem_cons_self ..)
        obtain ⟨later, sorted⟩ := ih ((processNextEvent_cases processed).pending front).2
        constructor
        · intro r member
          rcases List.mem_cons.mp member with rfl | member
          · exact here
          · exact here.trans (later r member)
        · exact List.pairwise_cons.mpr ⟨later, sorted⟩
      next => simp
    next => simp

/-- After the loop everything that is pending is after the clock. -/
theorem processEvents_later {w t : Wire σ g} {time_step : Nat}
    (processed : w.processEvents time_step = some t) :
    ∀ b ∈ t.mEvents.entries, w.mCurrentTime + time_step < b.1 := by
  intro b member
  have done := processEvents_done processed
  cases front : t.mEvents.entries with
  | nil => simp [front] at member
  | cons first events =>
    exact lt_of_lt_of_le (done first (by rw [front]; rfl)) (Multimap.head_le front b member)

end Wire

namespace Simulator

variable [DecidableEq σ]

open Wire

/-- A step leaves no event behind the clock. -/
theorem timely_step {s t : Simulator σ g} {op : Op σ} (scheduled : s.wire.Scheduled)
    (timely : s.wire.Timely) (stepped : s.step op = some t) : t.wire.Timely := by
  have now (data : Option (EventData σ g)) : (addEventNow s.wire data).Timely := by
    cases data with
    | none => exact timely
    | some data => exact timely.addEvent data
  cases op with
  | open_ i | setLocalAddr i addr | setRemoteAddr i addr =>
    obtain rfl := Option.some.inj stepped
    exact timely
  | bind i | unbind i | listen i =>
    obtain ⟨ends, -, rfl⟩ := Option.map_eq_some_iff.mp stepped
    exact timely
  | connect i | accept i clientSock =>
    obtain ⟨⟨ends, asked⟩, -, rfl⟩ := Option.map_eq_some_iff.mp stepped
    exact now _
  | close i =>
    obtain ⟨path, -, -, wire⟩ := simClose_spec stepped
    rw [wire]
    exact timely.flushPath i path
  | write i buffer =>
    simp only [step, write] at stepped
    split at stepped
    next =>
      obtain rfl := Option.some.inj stepped
      exact timely
    next =>
      obtain ⟨path, -, stepped⟩ := Option.bind_eq_some_iff.mp stepped
      obtain ⟨wire, posted, rfl⟩ := Option.map_eq_some_iff.mp stepped
      exact timely.post posted
  | sendto i msg dest =>
    have sent := (sendto_ends stepped).2
    unfold sendMessageTo at sent
    split at sent
    next =>
      rw [← congrArg Simulator.wire (Option.some.inj sent)]
      exact timely
    next v peer found =>
      obtain ⟨node, -, sent⟩ := Option.bind_eq_some_iff.mp sent
      obtain ⟨wire, posted, same⟩ := Option.map_eq_some_iff.mp sent
      rw [← same]
      exact timely.post posted
  | read i length =>
    obtain rfl := Option.some.inj stepped
    exact timely.read i length
  | processNextEvent =>
    obtain ⟨wire, processed, rfl⟩ := Option.map_eq_some_iff.mp stepped
    exact timely.processNextEvent processed
  | processEvents time_step =>
    obtain ⟨wire, processed, rfl⟩ := Option.map_eq_some_iff.mp stepped
    have ticked : (s.wire.setCurrentTime (s.wire.mCurrentTime + time_step)).Scheduled :=
      scheduled.of_eq rfl rfl
    have clock := (ticked.rounds (setCurrentTime_of_ge (Nat.le_add_right ..)) processed).2.1
    intro b member
    rw [clock]
    exact (processEvents_later processed b member).le

theorem timely_run {type : σ → SocketType} {blocking : σ → Bool} {ops : List (Op σ)}
    {t : Simulator σ g} (meets : Meets step Flushable (start (g := g) type blocking) ops)
    (reached : run step (start type blocking) ops = some t) : t.wire.Timely := by
  have kept : (t.ends.Routed g ∧ t.wire.Scheduled) ∧ t.wire.Timely := by
    refine run_invariant_of_meets
      (fun s => (s.ends.Routed g ∧ s.wire.Scheduled) ∧ s.wire.Timely) Flushable ?_
      ⟨⟨routed_start type blocking, scheduled_start⟩, timely_start⟩ meets reached
    intro s op t ⟨⟨routed, scheduled⟩, timely⟩ ok stepped
    exact ⟨⟨routed_step routed op stepped, scheduled_step routed scheduled ok stepped⟩,
      timely_step scheduled timely stepped⟩
  exact kept.2

/-- Three nodes in a row: one unit for each bit, and ten until the last one arrives. -/
def threeNodes : NetworkGraph where
  addresses := [1, 2, 3]
  lines := [⟨0, 1, fun size => size, 10⟩, ⟨1, 2, fun size => size, 10⟩]
  pred := fun s v =>
    if (s, v) = (0, 1) ∨ (s, v) = (1, 0) ∨ (s, v) = (1, 2) ∨ (s, v) = (2, 1) then s
    else if (s, v) = (0, 2) ∨ (s, v) = (2, 0) then 1 else v
  pred_joined := fun s v moves => by
    split at moves
    next joined => rcases joined with same | same | same | same <;> cases same <;> rfl
    next =>
      split at moves
      next joined => rcases joined with same | same <;> cases same <;> rfl
      next => exact absurd rfl moves

/-- A datagram from the first node to the last one. -/
def sendAcross : List (Op Bool) :=
  [.setLocalAddr false ⟨1, 5⟩, .open_ false, .bind false, .setLocalAddr true ⟨3, 7⟩,
    .open_ true, .bind true, .sendto false [9] ⟨3, 7⟩]

end Simulator

end VRJuggler.Sim
