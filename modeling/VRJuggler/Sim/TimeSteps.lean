import VRJuggler.Sim.Advance

/-!
# Time steps

A program may advance the simulation in large steps, in small ones, or event by event. What a
message meets on its way depends on the times of the events only, and not on the clock, so that
all these lead to the same state.
-/
namespace VRJuggler.Sim

variable {σ : Type} [DecidableEq σ] {g : NetworkGraph}

namespace Wire

omit [DecidableEq σ] in
theorem setCurrentTime_eq (w : Wire σ g) (time : Nat) :
    w.setCurrentTime time = { w with mCurrentTime := max w.mCurrentTime time } := by
  simp only [setCurrentTime]
  congr 1
  split <;> omega

omit [DecidableEq σ] in
theorem setCurrentTime_setCurrentTime (w : Wire σ g) {time later : Nat} (le : time ≤ later) :
    (w.setCurrentTime time).setCurrentTime later = w.setCurrentTime later := by
  simp only [setCurrentTime_eq, max_assoc, max_eq_right le]

omit [DecidableEq σ] in
theorem setCurrentTime_comm (w : Wire σ g) (time other : Nat) :
    (w.setCurrentTime time).setCurrentTime other =
      (w.setCurrentTime other).setCurrentTime time := by
  simp only [setCurrentTime_eq, max_right_comm]

/-! ### An event and the clock -/

omit [DecidableEq σ] in
theorem addMessage_setCurrentTime (w : Wire σ g) (msg : Message σ g) (vertex : Vertex)
    (edge : g.NetEdge) (curTime time : Nat) :
    (w.setCurrentTime time).addMessage msg vertex edge curTime =
      (w.addMessage msg vertex edge curTime).setCurrentTime time := rfl

theorem moveMessage_setCurrentTime (w : Wire σ g) (msg : Message σ g) (cur_time time : Nat) :
    (w.setCurrentTime time).moveMessage msg cur_time =
      (w.moveMessage msg cur_time).map (·.setCurrentTime time) := by
  unfold moveMessage
  split
  next => rfl
  next =>
    split
    next => split <;> rfl
    next => rfl

theorem processMessageEvent_setCurrentTime (w : Wire σ g) (event_time : Nat)
    (event_edge : g.NetEdge) (dir : LineDirection) (time : Nat) :
    (w.setCurrentTime time).processMessageEvent event_time event_edge dir =
      (w.processMessageEvent event_time event_edge dir).map (·.setCurrentTime time) := by
  unfold processMessageEvent
  have queue : (w.setCurrentTime time).queue = w.queue := rfl
  simp only [queue]
  split
  next => rfl
  next msg rest front =>
    exact moveMessage_setCurrentTime (w.setQueue (event_edge.line, dir) rest (.leave msg)) _ _ _

/-- It makes no difference if the clock goes on before or after an event. -/
theorem processNextEvent_setCurrentTime (w : Wire σ g) (time : Nat) :
    (w.setCurrentTime time).processNextEvent =
      w.processNextEvent.map (·.setCurrentTime time) := by
  have events : (w.setCurrentTime time).mEvents = w.mEvents := rfl
  unfold processNextEvent
  rw [events]
  split
  next => rfl
  next event_time data rest front =>
    rw [setCurrentTime_comm]
    cases data with
    | message event_edge dir =>
      exact processMessageEvent_setCurrentTime
        { w.setCurrentTime event_time with mEvents := w.mEvents.tail } event_time event_edge dir
        time
    | connectionInit | connectionComplete | localhostDelivery => rfl

theorem processUntil_setCurrentTime (event_time fuel : Nat) (w : Wire σ g) (time : Nat) :
    processUntil event_time fuel (w.setCurrentTime time) =
      (processUntil event_time fuel w).map (·.setCurrentTime time) := by
  induction fuel generalizing w with
  | zero => rfl
  | succ fuel ih =>
    have events : (w.setCurrentTime time).mEvents = w.mEvents := rfl
    unfold processUntil
    rw [events]
    split
    next => rfl
    next =>
      split
      next =>
        rw [processNextEvent_setCurrentTime, Option.bind_map, Option.map_bind]
        exact congrArg (Option.bind _) (funext ih)
      next => rfl

/-! ### The loop and its fuel -/

/-- The loop with the fuel that it has in `processEvents`. -/
def processDue (event_time : Nat) (w : Wire σ g) : Option (Wire σ g) :=
  processUntil event_time w.pending w

theorem processUntil_enough (event_time : Nat) {fuel : Nat} {w : Wire σ g}
    (enough : w.pending ≤ fuel) : processUntil event_time fuel w = w.processDue event_time := by
  -- any two amounts of fuel that are enough give the same
  suffices ∀ {m n : Nat} {w : Wire σ g}, w.pending ≤ m → w.pending ≤ n →
      processUntil event_time m w = processUntil event_time n w from this enough le_rfl
  intro m
  induction m with
  | zero =>
    intro n w none enough'
    have nothing : w.mEvents.entries = [] := by
      apply List.eq_nil_of_length_eq_zero
      simp only [pending] at none
      omega
    cases n with
    | zero => rfl
    | succ n => simp [processUntil, nothing]
  | succ m ih =>
    intro n w enough enough'
    cases front : w.mEvents.entries with
    | nil => cases n <;> simp [processUntil, front]
    | cons first events =>
      have some' : w.mEvents.entries ≠ [] := by simp [front]
      cases n with
      | zero =>
        simp only [pending, front, List.length_cons] at enough'
        omega
      | succ n =>
        simp only [processUntil, front, List.head?_cons]
        split
        next =>
          cases processed : w.processNextEvent with
          | none => rfl
          | some t =>
            have fewer := processNextEvent_pending some' processed
            exact ih (by omega) (by omega)
        next => rfl

/-- One round of the loop. -/
theorem processDue_eq (event_time : Nat) (w : Wire σ g) : w.processDue event_time =
    match w.mEvents.entries.head? with
    | none => some w
    | some next_event =>
      if next_event.1 ≤ event_time then w.processNextEvent.bind (processDue event_time)
      else some w := by
  rw [← processUntil_enough event_time (Nat.le_succ w.pending), processUntil]
  cases front : w.mEvents.entries.head? with
  | none => rfl
  | some next_event =>
    dsimp only
    split
    next =>
      cases processed : w.processNextEvent with
      | none => rfl
      | some t =>
        have some' : w.mEvents.entries ≠ [] := by
          intro nothing
          simp [nothing] at front
        exact processUntil_enough event_time (processNextEvent_pending some' processed).le
    next => rfl

/-- The loop may stop on its way and go on from there. -/
theorem processDue_processDue {event_time later : Nat} (le : event_time ≤ later) (w : Wire σ g) :
    (w.processDue event_time).bind (processDue later) = w.processDue later := by
  induction left : w.pending using Nat.strong_induction_on generalizing w with
  | _ n ih =>
    subst left
    rw [processDue_eq event_time w]
    split
    next => rfl
    next next_event front =>
      split
      next due =>
        have due' : next_event.1 ≤ later := due.trans le
        rw [processDue_eq later w]
        simp only [front, due', if_true]
        cases processed : w.processNextEvent with
        | none => rfl
        | some t =>
          have some' : w.mEvents.entries ≠ [] := by
            intro nothing
            simp [nothing] at front
          exact ih t.pending (processNextEvent_pending some' processed) t rfl
      next => rfl

theorem processDue_setCurrentTime (event_time : Nat) (w : Wire σ g) (time : Nat) :
    (w.setCurrentTime time).processDue event_time =
      (w.processDue event_time).map (·.setCurrentTime time) :=
  processUntil_setCurrentTime event_time w.pending w time

/-- The events that are due are not after the clock. -/
theorem processUntil_clock {event_time fuel : Nat} {w t : Wire σ g}
    (clock : w.mCurrentTime ≤ event_time) (processed : processUntil event_time fuel w = some t) :
    t.mCurrentTime ≤ event_time ∧ w.mCurrentTime ≤ t.mCurrentTime := by
  induction fuel generalizing w with
  | zero =>
    obtain rfl := Option.some.inj processed
    exact ⟨clock, le_rfl⟩
  | succ fuel ih =>
    cases front : w.mEvents.entries with
    | nil =>
      rw [processUntil, front] at processed
      obtain rfl := Option.some.inj processed
      exact ⟨clock, le_rfl⟩
    | cons first events =>
      rw [processUntil, front] at processed
      simp only [List.head?_cons] at processed
      split at processed
      next due =>
        obtain ⟨u, one, rest⟩ := Option.bind_eq_some_iff.mp processed
        obtain ⟨goes, -⟩ := (processNextEvent_cases one).pending front
        rw [setCurrentTime_eq] at goes
        obtain ⟨above, later⟩ := ih (goes.trans_le (max_le clock due)) rest
        exact ⟨above, (le_max_left _ _).trans (goes.symm.trans_le later)⟩
      next =>
        obtain rfl := Option.some.inj processed
        exact ⟨clock, le_rfl⟩

theorem processEvents_eq (w : Wire σ g) (time_step : Nat) : w.processEvents time_step =
    (w.processDue (w.mCurrentTime + time_step)).map
      (·.setCurrentTime (w.mCurrentTime + time_step)) :=
  processDue_setCurrentTime ..

theorem processEvents_clock {w t : Wire σ g} {time_step : Nat}
    (processed : w.processEvents time_step = some t) :
    t.mCurrentTime = w.mCurrentTime + time_step := by
  rw [processEvents_eq] at processed
  obtain ⟨u, done, rfl⟩ := Option.map_eq_some_iff.mp processed
  exact setCurrentTime_of_ge (processUntil_clock (Nat.le_add_right ..) done).1

/-- Two steps are one. -/
theorem processEvents_add (w : Wire σ g) (first second : Nat) :
    (w.processEvents first).bind (·.processEvents second) = w.processEvents (first + second) := by
  have later : w.mCurrentTime + first ≤ w.mCurrentTime + (first + second) := by omega
  calc (w.processEvents first).bind (·.processEvents second)
    _ = (w.processEvents first).bind fun t =>
        (t.processDue (w.mCurrentTime + (first + second))).map
          (·.setCurrentTime (w.mCurrentTime + (first + second))) := by
      refine Option.bind_congr fun t processed => ?_
      rw [processEvents_eq, processEvents_clock processed, Nat.add_assoc]
    _ = ((w.processDue (w.mCurrentTime + first)).bind
          (processDue (w.mCurrentTime + (first + second)))).map
        (·.setCurrentTime (w.mCurrentTime + (first + second))) := by
      rw [processEvents_eq, Option.bind_map, Option.map_bind]
      refine congrArg (Option.bind _) (funext fun t => ?_)
      -- the clock has been moved to the end of the first step before, and is now moved on
      simp only [Function.comp_apply, processDue_setCurrentTime, Option.map_map]
      refine congrFun (congrArg Option.map (funext fun u => ?_)) _
      exact setCurrentTime_setCurrentTime u later
    _ = w.processEvents (first + second) := by
      rw [processDue_processDue later, processEvents_eq]

/-! ### Event by event -/

/-- The loop as calls of `processNextEvent`. -/
theorem processUntil_eq_run (event_time fuel : Nat) (w : Wire σ g) :
    ∃ n, processUntil event_time fuel w =
      run (fun w (_ : Unit) => w.processNextEvent) w (List.replicate n ()) := by
  induction fuel generalizing w with
  | zero => exact ⟨0, rfl⟩
  | succ fuel ih =>
    unfold processUntil
    split
    next => exact ⟨0, rfl⟩
    next =>
      split
      next =>
        cases processed : w.processNextEvent with
        | none => exact ⟨1, by simp [run_cons, processed]⟩
        | some t =>
          obtain ⟨n, same⟩ := ih t
          exact ⟨n + 1, by simp [List.replicate_succ, run_cons, processed, same]⟩
      next => exact ⟨0, rfl⟩

end Wire

namespace Simulator

/-- Time steps are divided into smaller ones. -/
inductive Divided : List (Op σ) → List (Op σ) → Prop where
  | nil : Divided [] []
  | keep {ops ops' : List (Op σ)} (op : Op σ) (rest : Divided ops ops') :
    Divided (op :: ops) (op :: ops')
  | divide {ops ops' : List (Op σ)} (first : Nat) (others : List Nat) (rest : Divided ops ops') :
    Divided (.processEvents (first :: others).sum :: ops)
      ((first :: others).map .processEvents ++ ops')

theorem step_processEvents_add (s : Simulator σ g) (first second : Nat) :
    ((s.step (.processEvents first)).bind fun t => t.step (.processEvents second)) =
      s.step (.processEvents (first + second)) := by
  simp only [step, ← Wire.processEvents_add, Option.bind_map, Option.map_bind]
  rfl

theorem run_steps (s : Simulator σ g) (first : Nat) (others : List Nat) :
    run step s ((first :: others).map .processEvents) =
      s.step (.processEvents (first :: others).sum) := by
  induction others generalizing s first with
  | nil => simp [run_cons]
  | cons second others ih =>
    rw [List.map_cons, run_cons, List.sum_cons, ← step_processEvents_add]
    exact congrArg (Option.bind _) (funext fun t => ih t second)

/-- What happens in a run does not depend on the steps in which its time goes by. -/
theorem run_divided {ops ops' : List (Op σ)} (divided : Divided ops ops') (s : Simulator σ g) :
    run step s ops' = run step s ops := by
  induction divided generalizing s with
  | nil => rfl
  | keep op _ ih =>
    rw [run_cons, run_cons]
    exact congrArg (Option.bind _) (funext ih)
  | divide first others _ ih =>
    rw [run_append, run_steps, run_cons]
    exact congrArg (Option.bind _) (funext ih)

/-- `processEvents` does what `processNextEvent` does with all events that are due, one by one, and
moves the clock. -/
theorem processEvents_event_by_event (s : Simulator σ g) (time_step : Nat) :
    ∃ n, (s.step (.processEvents time_step) =
        (run step s (List.replicate n .processNextEvent)).map fun t =>
          { t with wire := t.wire.setCurrentTime (s.wire.mCurrentTime + time_step) }) ∧
      ∀ t, run step s (List.replicate n .processNextEvent) = some t →
        t.wire.mCurrentTime ≤ s.wire.mCurrentTime + time_step ∧
          ∀ b ∈ t.wire.mEvents.entries, s.wire.mCurrentTime + time_step < b.1 := by
  obtain ⟨n, loop⟩ :=
    Wire.processUntil_eq_run (s.wire.mCurrentTime + time_step) s.wire.pending s.wire
  have steps (n : Nat) (s : Simulator σ g) : run step s (List.replicate n .processNextEvent) =
      (run (fun w (_ : Unit) => w.processNextEvent) s.wire (List.replicate n ())).map
        fun wire => { s with wire } := by
    induction n generalizing s with
    | zero => rfl
    | succ n ih =>
      rw [List.replicate_succ, List.replicate_succ, run_cons, run_cons, Option.map_bind, step,
        Option.bind_map]
      exact congrArg (Option.bind _) (funext fun wire => ih { s with wire })
  refine ⟨n, ?_, fun t reached => ?_⟩
  · rw [steps, ← loop, step, Wire.processEvents_eq, Option.map_map, Option.map_map]
    rfl
  · rw [steps, ← loop] at reached
    obtain ⟨wire, done, rfl⟩ := Option.map_eq_some_iff.mp reached
    refine ⟨(Wire.processUntil_clock (Nat.le_add_right ..) done).1, fun b member => ?_⟩
    have none := Wire.processUntil_done le_rfl done
    cases front : wire.mEvents.entries with
    | nil => simp [front] at member
    | cons first events =>
      exact lt_of_lt_of_le (none first (by rw [front]; rfl)) (Multimap.head_le front b member)

/-- The datagram that crosses two lines, in three steps. -/
theorem run_divided_across :
    run step (start (g := threeNodes) (fun _ => .datagram) fun _ => true)
        (sendAcross ++ [.processEvents 10, .processEvents 80, .processEvents 10]) =
      run step (start (fun _ => .datagram) fun _ => true) (sendAcross ++ [.processEvents 100]) := by
  refine run_divided ?_ _
  have last : Divided [.processEvents (σ := Bool) 100]
      [.processEvents 10, .processEvents 80, .processEvents 10] :=
    .divide 10 [80, 10] .nil
  simp only [sendAcross, List.cons_append, List.nil_append]
  repeat' apply Divided.keep
  exact last

end Simulator

end VRJuggler.Sim
