import VRJuggler.Sim.EventQueue

/-!
# The times of a line

One direction of a line on its own: messages are given their times and queued as the clock
goes on, and the first one is taken off when it arrives. Each message starts when the one
before it is on the wire. When that one has left the queue already, the clock has passed its
arrival, and so the new message may start at once.
-/
namespace VRJuggler.Sim

variable {σ : Type} {g : NetworkGraph}

/-- `NetworkLine::addMessageToQueue`. -/
def addMessageToQueue (msg : Message σ g) (queue : MsgQueue σ g) : MsgQueue σ g :=
  queue ++ [(msg.mArrivesFully, msg)]

/-- `NetworkLine::getArrivedMessageFromQueue`, with the assertions of the source: there is a
message, and the event is about its arrival. -/
def getArrivedMessageFromQueue (eventTime : Nat) :
    MsgQueue σ g → Option (Message σ g × MsgQueue σ g)
  | [] => none
  | (_, msg) :: rest => if msg.mArrivesFully = eventTime then some (msg, rest) else none

/-- The latest time at which a message entered or arrived, the queue, and what is recorded:
the messages that entered with their times, and those that left again. -/
structure LineWay (σ : Type) (g : NetworkGraph) where
  clock : Nat
  queue : MsgQueue σ g
  entered : List (Message σ g)
  arrived : List (Message σ g)

inductive LineOp (σ : Type) (g : NetworkGraph) where
  | addMessage (curTime : Nat) (msg : Message σ g)
  | getArrivedMessage (eventTime : Nat)

namespace LineWay

def start : LineWay σ g := ⟨0, [], [], []⟩

/-- A message does not enter before what happened to the line last. An arrival moves the
clock to the time of its event, as `Clock::setCurrentTime` does. -/
def step (line : LineSpec) (s : LineWay σ g) : LineOp σ g → Option (LineWay σ g)
  | .addMessage curTime msg =>
    if s.clock ≤ curTime then
      let msg := calculateMessageEventTimes line msg curTime s.queue
      some ⟨curTime, addMessageToQueue msg s.queue, s.entered ++ [msg], s.arrived⟩
    else none
  | .getArrivedMessage eventTime =>
    (getArrivedMessageFromQueue eventTime s.queue).map fun (msg, rest) =>
      ⟨max s.clock eventTime, rest, s.entered, s.arrived ++ [msg]⟩

/-- `next` starts after `prev` is on the wire, or not before `prev` has arrived. -/
def Follows (prev next : Message σ g) : Prop :=
  prev.mFullyOnWire < next.mStartOnWire ∨ prev.mArrivesFully ≤ next.mStartOnWire

/-- What holds of one direction of a line at all times. -/
structure Timed (line : LineSpec) (s : LineWay σ g) : Prop where
  times : ∀ m ∈ s.entered, m.mStartOnWire ≤ m.mFullyOnWire ∧
    m.mArrivesFully = m.mFullyOnWire + line.getBitTransmissionTime
  keyed : ∀ x ∈ s.queue, x.1 = x.2.mArrivesFully
  order : s.arrived ++ s.queue.map Prod.snd = s.entered
  ordered : s.queue.Pairwise fun x y => x.2.mFullyOnWire < y.2.mFullyOnWire
  follows : s.entered.IsChain Follows
  past : ∀ m ∈ s.arrived, m.mArrivesFully ≤ s.clock

theorem timed_start (line : LineSpec) : Timed line (start : LineWay σ g) where
  times := by simp [start]
  keyed := by simp [start]
  order := rfl
  ordered := .nil
  follows := .nil
  past := by simp [start]

/-- The last message that entered is the last one of the queue, or it has arrived. -/
theorem Timed.last_entered {line : LineSpec} {s : LineWay σ g} (timed : s.Timed line)
    {m : Message σ g} (last : m ∈ s.entered.getLast?) :
    m ∈ s.queue.map Prod.snd ∨ (s.queue = [] ∧ m ∈ s.arrived) := by
  rw [← timed.order, List.getLast?_append] at last
  cases here : (s.queue.map Prod.snd).getLast? with
  | some n =>
    left
    rw [here, Option.some_or] at last
    obtain rfl := Option.some.inj last
    exact List.mem_of_getLast? here
  | none =>
    right
    rw [here, Option.none_or] at last
    have none : s.queue.map Prod.snd = [] := List.getLast?_eq_none_iff.mp here
    exact ⟨List.map_eq_nil_iff.mp none, List.mem_of_getLast? last⟩

theorem Timed.addMessage {line : LineSpec} {s : LineWay σ g} (timed : s.Timed line)
    {curTime : Nat} (later : s.clock ≤ curTime) (msg : Message σ g) :
    Timed line ⟨curTime,
      addMessageToQueue (calculateMessageEventTimes line msg curTime s.queue) s.queue,
      s.entered ++ [calculateMessageEventTimes line msg curTime s.queue], s.arrived⟩ where
  times := by
    intro m hm
    rcases List.mem_append.mp hm with old | new
    · exact timed.times m old
    · rw [List.mem_singleton.mp new]
      simp [calculateMessageEventTimes]
  keyed := by
    intro x hx
    rcases List.mem_append.mp hx with old | new
    · exact timed.keyed x old
    · rw [List.mem_singleton.mp new]
  order := by
    simp [addMessageToQueue, ← timed.order]
  ordered := by
    refine List.pairwise_append.mpr ⟨timed.ordered, List.pairwise_singleton _ _, ?_⟩
    intro x hx y hy
    obtain rfl := List.mem_singleton.mp hy
    have started := Wire.lt_startTime curTime timed.ordered x hx
    simp only [calculateMessageEventTimes]
    omega
  follows := by
    refine timed.follows.append (.singleton _) ?_
    intro m last n new
    simp only [List.head?_cons, Option.mem_def, Option.some.injEq] at new
    subst new
    rcases timed.last_entered last with queued | ⟨-, gone⟩
    · obtain ⟨x, hx, rfl⟩ := List.mem_map.mp queued
      exact Or.inl (Wire.lt_startTime curTime timed.ordered x hx)
    · -- the clock has passed the arrival, and the message does not start before it
      have arrived := timed.past m gone
      have starts := le_startTime s.queue curTime
      exact Or.inr (by simp only [calculateMessageEventTimes]; omega)
  past := by
    intro m gone
    exact (timed.past m gone).trans later

theorem Timed.getArrivedMessage {line : LineSpec} {s : LineWay σ g} (timed : s.Timed line)
    {eventTime : Nat} {msg : Message σ g} {rest : MsgQueue σ g}
    (taken : getArrivedMessageFromQueue eventTime s.queue = some (msg, rest)) :
    Timed line ⟨max s.clock eventTime, rest, s.entered, s.arrived ++ [msg]⟩ := by
  obtain ⟨x, front, arrives, rfl⟩ : ∃ x, s.queue = x :: rest ∧ x.2.mArrivesFully = eventTime ∧
      x.2 = msg := by
    cases queue : s.queue with
    | nil => simp [queue, getArrivedMessageFromQueue] at taken
    | cons x others =>
      rw [queue, getArrivedMessageFromQueue] at taken
      split at taken
      next arrives =>
        cases taken
        exact ⟨x, rfl, arrives, rfl⟩
      next => cases taken
  have keyed := timed.keyed
  have order := timed.order
  have ordered := timed.ordered
  rw [front] at keyed order ordered
  constructor
  · exact timed.times
  · exact fun y hy => keyed y (List.mem_cons_of_mem _ hy)
  · simpa using order
  · exact (List.pairwise_cons.mp ordered).2
  · exact timed.follows
  · intro m gone
    rcases List.mem_append.mp gone with before | now
    · exact (timed.past m before).trans (le_max_left _ _)
    · rw [List.mem_singleton.mp now, arrives]
      exact le_max_right _ _

theorem timed_step {line : LineSpec} {s t : LineWay σ g} {op : LineOp σ g}
    (timed : s.Timed line) (stepped : s.step line op = some t) : t.Timed line := by
  cases op with
  | addMessage curTime msg =>
    rw [step] at stepped
    split at stepped
    next later =>
      obtain rfl := Option.some.inj stepped
      exact timed.addMessage later msg
    next => cases stepped
  | getArrivedMessage eventTime =>
    obtain ⟨⟨msg, rest⟩, taken, rfl⟩ := Option.map_eq_some_iff.mp stepped
    exact timed.getArrivedMessage taken

/-- The messages of a line start, are on the wire and arrive in this order; each starts when
the one before is on the wire, and later unless that one had arrived; arrivals grow
strictly along the queue; and the messages leave as they entered. -/
theorem line_timing {line : LineSpec} {ops : List (LineOp σ g)} {s : LineWay σ g}
    (reached : run (step line) start ops = some s) :
    (∀ m ∈ s.entered, m.mStartOnWire ≤ m.mFullyOnWire ∧ m.mFullyOnWire ≤ m.mArrivesFully) ∧
      s.entered.IsChain (fun prev next => prev.mFullyOnWire ≤ next.mStartOnWire ∧
        Follows prev next) ∧
      (∀ x ∈ s.queue, x.1 = x.2.mArrivesFully) ∧
      s.queue.Pairwise (fun x y => x.2.mArrivesFully < y.2.mArrivesFully) ∧
      s.arrived ++ s.queue.map Prod.snd = s.entered := by
  have timed : s.Timed line := run_invariant (Timed line) (fun _ _ _ => timed_step)
    (timed_start line) reached
  have member : ∀ x ∈ s.queue, x.2 ∈ s.entered := by
    intro x hx
    rw [← timed.order]
    exact List.mem_append_right _ (List.mem_map_of_mem hx)
  refine ⟨?_, ?_, timed.keyed, ?_, timed.order⟩
  · intro m hm
    obtain ⟨started, arrives⟩ := timed.times m hm
    omega
  · refine timed.follows.imp_of_mem_imp ?_
    intro prev next hprev _ follows
    refine ⟨?_, follows⟩
    have arrives := (timed.times prev hprev).2
    rcases follows with later | later <;> omega
  · -- the arrival is a fixed time after the message is on the wire
    refine timed.ordered.imp_of_mem ?_
    intro x y hx hy before
    have first := (timed.times x.2 (member x hx)).2
    have second := (timed.times y.2 (member y hy)).2
    omega

/-- A message of three bytes, two that enter while it is on the wire, and one that enters
after it has left. -/
def fourMessages : List (LineOp Unit .twoNodes) :=
  [.addMessage 5 (.withPath 0 [1, 2, 3] [0, 1] () ()), .addMessage 6 (.withPath 1 [] [0, 1] () ()),
    .addMessage 20 (.withPath 2 [4] [0, 1] () ()), .getArrivedMessage 39,
    .addMessage 40 (.withPath 3 [] [0, 1] () ())]

theorem line_timing_fourMessages :
    ∃ s, run (step (NetworkGraph.twoNodes.lines.get theLine)) start fourMessages = some s ∧
      s.queue.map Prod.fst = [40, 49, 50] ∧
      s.arrived ++ s.queue.map Prod.snd = s.entered := by
  obtain ⟨s, reached, times⟩ := Option.map_eq_some_iff.mp (show
    (run (step (NetworkGraph.twoNodes.lines.get theLine)) start fourMessages).map
      (fun s => s.queue.map Prod.fst) = some [40, 49, 50] by decide +kernel)
  exact ⟨s, reached, times, (line_timing reached).2.2.2.2⟩

end LineWay

end VRJuggler.Sim
