import Mathlib.Data.List.Basic
import Mathlib.Logic.Function.Basic
import VRJuggler.Draw.DrawManager

/-!
# The frames of the draw manager

In every frame each pipe renders once and then swaps once; no pipe swaps before all pipes have
rendered, and `sync` returns when all have swapped. The invariant gives each pipe a stage of
the frame, from which the counts of its semaphores, the place of its thread and what it has
done so far follow; where the manager is says which stages its pipes can be in.
-/
namespace VRJuggler.Draw

/-! ## Frames of a log -/

def Event.workOf (pipe_num : Nat) : Event → Option Work
  | draw _ => none
  | pipe work i => if i = pipe_num then some work else none
  | sync => none

/-- What one pipe did, in order. -/
def worksOf (pipe_num : Nat) (events : List Event) : List Work :=
  events.filterMap (Event.workOf pipe_num)

/-- The events are about pipes below `n`, and about that work. -/
def OnPipes (n : Nat) (works : List Work) (events : List Event) : Prop :=
  ∀ e ∈ events, ∃ work ∈ works, ∃ i < n, e = .pipe work i

/-- Every pipe did the work, once and in that order. -/
def Whole (n : Nat) (works : List Work) (events : List Event) : Prop :=
  OnPipes n works events ∧ ∀ i < n, worksOf i events = works

/-- Every pipe did a part of the work, once and in that order. -/
def Begun (n : Nat) (works : List Work) (events : List Event) : Prop :=
  OnPipes n works events ∧ ∀ i < n, worksOf i events <+: works

/-- Between `draw` and the return of `sync` all pipes render, and then all pipes swap. -/
def IsFrame (events : List Event) : Prop :=
  ∃ n renders swaps, events = .draw n :: renders ++ swaps ++ [.sync] ∧
    Whole n [.render, .rendered] renders ∧ Whole n [.swap, .swapped] swaps

/-- A frame that is not finished: pipes may swap if all of them have rendered. -/
def IsBegun (n : Nat) (events : List Event) : Prop :=
  ∃ renders swaps, events = .draw n :: renders ++ swaps ∧
    Begun n [.render, .rendered] renders ∧ Begun n [.swap, .swapped] swaps ∧
    (swaps = [] ∨ Whole n [.render, .rendered] renders)

@[simp] theorem worksOf_nil (i : Nat) : worksOf i [] = [] := rfl

@[simp] theorem worksOf_append (i : Nat) (events events' : List Event) :
    worksOf i (events ++ events') = worksOf i events ++ worksOf i events' :=
  List.filterMap_append

theorem worksOf_singleton (i j : Nat) (work : Work) :
    worksOf i [.pipe work j] = if j = i then [work] else [] := by
  by_cases here : j = i <;> simp [worksOf, Event.workOf, here]

theorem OnPipes.snoc {n : Nat} {works : List Work} {events : List Event} {work : Work} {i : Nat}
    (on : OnPipes n works events) (listed : work ∈ works) (small : i < n) :
    OnPipes n works (events ++ [.pipe work i]) := by
  intro e member
  rcases List.mem_append.mp member with old | new
  · exact on e old
  · exact ⟨work, listed, i, small, List.mem_singleton.mp new⟩

/-- Events of which no pipe did anything are none. -/
theorem OnPipes.eq_nil {n : Nat} {works : List Work} {events : List Event}
    (on : OnPipes n works events) (none' : ∀ i < n, worksOf i events = []) : events = [] := by
  cases events with
  | nil => rfl
  | cons e rest =>
    obtain ⟨work, _, i, small, rfl⟩ := on e (List.mem_cons_self ..)
    have nothing := none' i small
    simp [worksOf, Event.workOf] at nothing

/-! ## The stages of a pipe -/

/-- How far a pipe is in the frame. -/
inductive Stage where
  | idle
  | renderAsked
  | rendering
  | rendered
  | waiting
  | swapAsked
  | swapping
  | swapped
  | finished
  deriving DecidableEq

namespace Stage

/-- The rendering that was done in the frame. -/
def renders : Stage → List Work
  | idle | renderAsked => []
  | rendering => [.render]
  | rendered | waiting | swapAsked | swapping | swapped | finished => [.render, .rendered]

def swaps : Stage → List Work
  | idle | renderAsked | rendering | rendered | waiting | swapAsked => []
  | swapping => [.swap]
  | swapped | finished => [.swap, .swapped]

/-- The places of a thread that goes round without a look at the swap trigger. -/
def Outside (place : ControlLoop) : Prop :=
  place = .head ∨ place = .awaitRender ∨ place = .windows

def Allows : Stage → ControlLoop → Prop
  | idle, place => place = .starting ∨ Outside place
  | renderAsked, place | swapped, place | finished, place => Outside place
  | rendering, place => place = .rendering
  | rendered, place | waiting, place | swapAsked, place => place = .awaitSwap
  | swapping, place => place = .swapping

def count (stage here : Stage) : Nat := if stage = here then 1 else 0

theorem count_le (stage here : Stage) : count stage here ≤ 1 := by
  unfold count
  split <;> omega

structure Holds (stage : Stage) (p : Pipe) : Prop where
  running : p.mThreadRunning = true ↔ p.controlLoop ≠ .starting
  place : stage.Allows p.controlLoop
  renderTrigger : p.mRenderTriggerSema = count stage renderAsked
  renderComplete : p.mRenderCompleteSema = count stage rendered
  swapTrigger : p.mSwapTriggerSema = count stage swapAsked
  swapComplete : p.mSwapCompleteSema = count stage swapped

/-- What a step of the pipe's thread does to its stage. -/
inductive Works : Stage → Option Work → Stage → Prop where
  | stays (stage : Stage) : Works stage none stage
  | render : Works renderAsked (some .render) rendering
  | rendered : Works rendering (some .rendered) rendered
  | swap : Works swapAsked (some .swap) swapping
  | swapped : Works swapping (some .swapped) swapped

theorem renders_part (stage : Stage) : stage.renders <+: [.render, .rendered] := by
  cases stage <;> decide

theorem swaps_part (stage : Stage) : stage.swaps <+: [.swap, .swapped] := by
  cases stage <;> decide

theorem holds_create : idle.Holds Pipe.create where
  running := by simp [Pipe.create]
  place := Or.inl rfl
  renderTrigger := rfl
  renderComplete := rfl
  swapTrigger := rfl
  swapComplete := rfl

/-- The trigger or the completion of a stage can be acquired in that stage only. -/
theorem acquire_count {stage here : Stage} {left : Nat}
    (acquired : acquire (count stage here) = some left) : stage = here ∧ left = 0 := by
  by_cases same : stage = here
  · rw [count, if_pos same] at acquired
    exact ⟨same, (Option.some.inj acquired).symm⟩
  · rw [count, if_neg same] at acquired
    simp [acquire] at acquired

theorem Allows.outside {stage : Stage} {place place' : ControlLoop} (allowed : stage.Allows place)
    (out : Outside place) (out' : Outside place') : stage.Allows place' := by
  cases stage with
  | idle => exact Or.inr out'
  | renderAsked | swapped | finished => exact out'
  | rendering | rendered | waiting | swapAsked | swapping =>
    rw [Allows] at allowed
    subst allowed
    simp [Outside] at out

theorem Holds.step {stage : Stage} {p p' : Pipe} {ready : Bool} {work : Option Work}
    (holds : stage.Holds p) (stepped : p.step ready = some (p', work)) :
    ∃ stage', stage.Works work stage' ∧ stage'.Holds p' := by
  obtain ⟨running, renderTrigger, renderComplete, swapTrigger, swapComplete, place⟩ := p
  obtain ⟨started, allowed, asked, rendered', swapAsked', swapped'⟩ := holds
  simp only at asked rendered' swapAsked' swapped' allowed
  subst asked rendered' swapAsked' swapped'
  have known (out : place ≠ .starting) : running = true := started.mpr out
  cases place with
  | starting =>
    have idle' : stage = idle := by cases stage <;> simp [Allows, Outside] at allowed ⊢
    subst idle'
    simp only [Pipe.step, Option.some.injEq, Prod.mk.injEq] at stepped
    obtain ⟨rfl, rfl⟩ := stepped
    exact ⟨_, Works.stays _, by simp, Or.inr (Or.inl rfl), rfl, rfl, rfl, rfl⟩
  | head =>
    have out : Outside (if ready then .awaitRender else .windows) := by
      cases ready <;> simp [Outside]
    simp only [Pipe.step, Option.some.injEq, Prod.mk.injEq] at stepped
    obtain ⟨rfl, rfl⟩ := stepped
    refine ⟨_, Works.stays _, ?_, allowed.outside (Or.inl rfl) out, rfl, rfl, rfl, rfl⟩
    cases ready <;> simp [known]
  | windows =>
    simp only [Pipe.step, Option.some.injEq, Prod.mk.injEq] at stepped
    obtain ⟨rfl, rfl⟩ := stepped
    have out : Outside .windows := Or.inr (Or.inr rfl)
    exact ⟨_, Works.stays _, by simp [known], allowed.outside out (Or.inl rfl), rfl, rfl, rfl, rfl⟩
  | awaitRender =>
    simp only [Pipe.step, Option.map_eq_some_iff, Prod.mk.injEq] at stepped
    obtain ⟨left, acquired, rfl, rfl⟩ := stepped
    obtain ⟨rfl, rfl⟩ := acquire_count acquired
    exact ⟨_, Works.render, by simp [known], rfl, rfl, rfl, rfl, rfl⟩
  | awaitSwap =>
    simp only [Pipe.step, Option.map_eq_some_iff, Prod.mk.injEq] at stepped
    obtain ⟨left, acquired, rfl, rfl⟩ := stepped
    obtain ⟨rfl, rfl⟩ := acquire_count acquired
    exact ⟨_, Works.swap, by simp [known], rfl, rfl, rfl, rfl, rfl⟩
  | rendering =>
    have here : stage = .rendering := by cases stage <;> simp [Allows, Outside] at allowed ⊢
    subst here
    simp only [Pipe.step, Option.some.injEq, Prod.mk.injEq] at stepped
    obtain ⟨rfl, rfl⟩ := stepped
    exact ⟨_, Works.rendered, by simp [known], rfl, rfl, rfl, rfl, rfl⟩
  | swapping =>
    have here : stage = .swapping := by cases stage <;> simp [Allows, Outside] at allowed ⊢
    subst here
    simp only [Pipe.step, Option.some.injEq, Prod.mk.injEq] at stepped
    obtain ⟨rfl, rfl⟩ := stepped
    have out : Outside .windows := Or.inr (Or.inr rfl)
    exact ⟨_, Works.swapped, by simp [known], out, rfl, rfl, rfl, rfl⟩

/-! ### What a call does to the stage -/

/-- The stages of a pipe for which the call is still to be made. -/
def Before : Call → Stage → Prop
  | .triggerRender, stage => stage = idle
  | .completeRender, stage => stage = renderAsked ∨ stage = rendering ∨ stage = rendered
  | .triggerSwap, stage => stage = waiting
  | .completeSwap, stage => stage = swapAsked ∨ stage = swapping ∨ stage = swapped

/-- The stages of a pipe for which the call has been made in the same loop. -/
def After : Call → Stage → Prop
  | .triggerRender, stage => stage = renderAsked ∨ stage = rendering ∨ stage = rendered
  | .completeRender, stage => stage = waiting
  | .triggerSwap, stage => stage = swapAsked ∨ stage = swapping ∨ stage = swapped
  | .completeSwap, stage => stage = finished

theorem Works.before {stage stage' : Stage} {work : Option Work} {call : Call}
    (works : stage.Works work stage') (before : stage.Before call) : stage'.Before call := by
  cases works with
  | stays => exact before
  | render | rendered | swap | swapped => cases call <;> simp [Before] at before ⊢

theorem Works.after {stage stage' : Stage} {work : Option Work} {call : Call}
    (works : stage.Works work stage') (after : stage.After call) : stage'.After call := by
  cases works with
  | stays => exact after
  | render | rendered | swap | swapped => cases call <;> simp [After] at after ⊢

/-- A call changes the stage, but not what the pipe has done. -/
theorem Holds.perform {stage : Stage} {p p' : Pipe} {call : Call} (holds : stage.Holds p)
    (before : stage.Before call) (performed : call.perform p = some p') :
    ∃ stage' : Stage, stage'.After call ∧ stage'.Holds p' ∧
      stage'.renders = stage.renders ∧ stage'.swaps = stage.swaps := by
  obtain ⟨running, renderTrigger, renderComplete, swapTrigger, swapComplete, place⟩ := p
  obtain ⟨started, allowed, asked, rendered', swapAsked', swapped'⟩ := holds
  simp only at asked rendered' swapAsked' swapped' allowed
  subst asked rendered' swapAsked' swapped'
  cases call with
  | triggerRender =>
    obtain rfl : stage = idle := before
    simp only [Call.perform, Pipe.triggerRender, Option.ite_none_right_eq_some,
      Option.some.injEq] at performed
    obtain ⟨ran, rfl⟩ := performed
    have out : Outside place := allowed.resolve_left (started.mp ran)
    exact ⟨renderAsked, Or.inl rfl, ⟨started, out, rfl, rfl, rfl, rfl⟩, rfl, rfl⟩
  | completeRender =>
    simp only [Call.perform, Pipe.completeRender, Option.map_eq_some_iff] at performed
    obtain ⟨left, acquired, rfl⟩ := performed
    obtain ⟨rfl, rfl⟩ := acquire_count acquired
    exact ⟨waiting, rfl, ⟨started, allowed, rfl, rfl, rfl, rfl⟩, rfl, rfl⟩
  | triggerSwap =>
    obtain rfl : stage = waiting := before
    simp only [Call.perform, Pipe.triggerSwap, Option.some.injEq] at performed
    subst performed
    exact ⟨swapAsked, Or.inl rfl, ⟨started, allowed, rfl, rfl, rfl, rfl⟩, rfl, rfl⟩
  | completeSwap =>
    simp only [Call.perform, Pipe.completeSwap, Option.map_eq_some_iff] at performed
    obtain ⟨left, acquired, rfl⟩ := performed
    obtain ⟨rfl, rfl⟩ := acquire_count acquired
    exact ⟨finished, rfl, ⟨started, allowed, rfl, rfl, rfl, rfl⟩, rfl, rfl⟩

end Stage

/-! ## The moments of a frame -/

/-- Where the kernel and the manager are in a frame: between two frames, triggered, in a loop
of calls, at the barrier, past the last loop, or with the end of the frame signalled. -/
inductive Moment where
  | between
  | triggered
  | calls (call : Call) (pipe_num : Nat)
  | swapBarrier
  | done
  | signalled

namespace Moment

def kernel : Moment → Kernel
  | between => .between
  | triggered | calls _ _ | swapBarrier | done | signalled => .drawing

def main : Moment → Main
  | between | triggered | signalled => .awaitDraw
  | calls call pipe_num => .calls call pipe_num
  | swapBarrier => .swapBarrier
  | done => .done

def drawTrigger : Moment → Nat
  | triggered => 1
  | between | calls _ _ | swapBarrier | done | signalled => 0

def drawDone : Moment → Nat
  | signalled => 1
  | between | triggered | calls _ _ | swapBarrier | done => 0

/-- The stages that a pipe can be in. -/
def Allows (i : Nat) (stage : Stage) : Moment → Prop
  | between | triggered => stage = .idle
  | calls call pipe_num => if i < pipe_num then stage.After call else stage.Before call
  | swapBarrier => stage = .waiting
  | done | signalled => stage = .finished

theorem Allows.works {m : Moment} {i : Nat} {stage stage' : Stage} {work : Option Work}
    (allowed : m.Allows i stage) (works : stage.Works work stage') : m.Allows i stage' := by
  cases m with
  | calls call pipe_num =>
    rw [Allows] at allowed ⊢
    split at allowed
    next earlier => rw [if_pos earlier]; exact works.after allowed
    next later => rw [if_neg later]; exact works.before allowed
  | between | triggered | swapBarrier | done | signalled =>
    rw [Allows] at allowed
    subst allowed
    cases works
    rfl

theorem Allows.of_call {call : Call} {pipe_num i : Nat} {stage : Stage}
    (allowed : (calls call pipe_num).Allows i stage) : stage.Before call ∨ stage.After call := by
  rw [Allows] at allowed
  split at allowed
  · exact Or.inr allowed
  · exact Or.inl allowed

theorem eq_between {m : Moment} (between' : m.kernel = .between) : m = between := by
  cases m with
  | between => rfl
  | triggered | calls | swapBarrier | done | signalled => simp [kernel] at between'

theorem Allows.drawing {m : Moment} {i : Nat} {stage : Stage} (allowed : m.Allows i stage)
    (busy : stage ≠ .idle) : m.kernel = .drawing := by
  cases m with
  | between => exact absurd allowed busy
  | triggered | calls | swapBarrier | done | signalled => rfl

/-- As long as a pipe renders, no pipe swaps. -/
theorem swaps_of_rendering {m : Moment} {i j : Nat} {stage other : Stage}
    (allowed : m.Allows i stage) (early : stage = .renderAsked ∨ stage = .rendering)
    (others : m.Allows j other) : other.swaps = [] := by
  cases m with
  | calls call pipe_num =>
    have here := allowed.of_call
    have there := others.of_call
    cases call with
    | triggerRender | completeRender =>
      simp only [Stage.Before, Stage.After] at there
      rcases there with (rfl | rfl | rfl) | rfl | rfl | rfl <;> rfl
    | triggerSwap | completeSwap =>
      rcases early with rfl | rfl <;> simp [Stage.Before, Stage.After] at here
  | between | triggered | swapBarrier | done | signalled =>
    rcases early with rfl | rfl <;> simp [Allows] at allowed

/-- When a pipe swaps, all pipes have rendered. -/
theorem renders_of_swapping {m : Moment} {i j : Nat} {stage other : Stage}
    (allowed : m.Allows i stage) (late : stage.swaps ≠ []) (others : m.Allows j other) :
    other.renders = [.render, .rendered] := by
  cases m with
  | calls call pipe_num =>
    have here := allowed.of_call
    have there := others.of_call
    cases call with
    | triggerRender | completeRender =>
      simp only [Stage.Before, Stage.After] at here
      rcases here with (rfl | rfl | rfl) | rfl | rfl | rfl <;> simp [Stage.swaps] at late
    | triggerSwap | completeSwap =>
      simp only [Stage.Before, Stage.After] at there
      rcases there with (rfl | rfl | rfl) | rfl | rfl | rfl <;> rfl
  | between | triggered | swapBarrier =>
    rw [Allows] at allowed
    subst allowed
    exact absurd rfl late
  | done | signalled =>
    rw [Allows] at others
    subst others
    rfl

end Moment

/-! ## The invariant -/

namespace DrawManager

/-- The events of the frame that is being drawn. -/
def current (m : Moment) (n : Nat) (renders swaps : List Event) : List Event :=
  match m.kernel with
  | .between => []
  | .drawing => .draw n :: renders ++ swaps

/-- At moment `m` of a frame, after `frames` and with these events of the frame so far. -/
structure InFrame (s : DrawManager) (frames : List (List Event)) (renders swaps : List Event)
    (m : Moment) (stage : Nat → Stage) : Prop where
  log : s.log = frames.flatten ++ current m s.pipes.length renders swaps
  frames : ∀ frame ∈ frames, IsFrame frame
  kernel : s.kernel = m.kernel
  main : s.main = m.main
  drawTrigger : s.drawTriggerSema = m.drawTrigger
  drawDone : s.drawDoneSema = m.drawDone
  allows : ∀ i < s.pipes.length, m.Allows i (stage i)
  holds : ∀ i p, s.pipes[i]? = some p → (stage i).Holds p
  onRenders : OnPipes s.pipes.length [.render, .rendered] renders
  onSwaps : OnPipes s.pipes.length [.swap, .swapped] swaps
  renders : ∀ i < s.pipes.length, worksOf i renders = (stage i).renders
  swaps : ∀ i < s.pipes.length, worksOf i swaps = (stage i).swaps

theorem inFrame_create : create.InFrame [] [] [] .between fun _ => .idle where
  log := rfl
  frames := by simp
  kernel := rfl
  main := rfl
  drawTrigger := rfl
  drawDone := rfl
  allows := fun _ _ => rfl
  holds := by simp [create]
  onRenders := by simp [OnPipes]
  onSwaps := by simp [OnPipes]
  renders := by simp [create]
  swaps := by simp [create]

namespace InFrame

variable {s t : DrawManager} {frames : List (List Event)} {renders swaps : List Event}
  {m : Moment} {stage : Nat → Stage} {call : Call} {pipe_num : Nat}

/-- Nothing was done yet in a frame in which all pipes are idle. -/
theorem nothing (inv : s.InFrame frames renders swaps m stage)
    (idle : ∀ i < s.pipes.length, stage i = .idle) : renders = [] ∧ swaps = [] := by
  constructor
  · apply inv.onRenders.eq_nil
    intro i small
    rw [inv.renders i small, idle i small]
    rfl
  · apply inv.onSwaps.eq_nil
    intro i small
    rw [inv.swaps i small, idle i small]
    rfl

theorem addDisplay (inv : s.InFrame frames renders swaps .between stage) (pipe_num : Nat) :
    (s.addDisplay pipe_num).InFrame frames [] [] .between fun _ => .idle where
  log := inv.log
  frames := inv.frames
  kernel := inv.kernel
  main := inv.main
  drawTrigger := inv.drawTrigger
  drawDone := inv.drawDone
  allows := fun _ _ => rfl
  holds := by
    intro i p found
    rcases List.mem_append.mp (List.mem_of_getElem? found) with old | new
    · obtain ⟨j, small, rfl⟩ := List.mem_iff_getElem.mp old
      have idle : stage j = .idle := inv.allows j small
      rw [← idle]
      exact inv.holds j _ (List.getElem?_eq_getElem small)
    · rw [List.eq_of_mem_replicate new]
      exact Stage.holds_create
  onRenders := by simp [OnPipes]
  onSwaps := by simp [OnPipes]
  renders := fun _ _ => rfl
  swaps := fun _ _ => rfl

theorem draw (inv : s.InFrame frames renders swaps .between stage) :
    s.draw.InFrame frames renders swaps .triggered stage where
  log := by
    obtain ⟨rfl, rfl⟩ := inv.nothing inv.allows
    simp [DrawManager.draw, inv.log, current, Moment.kernel]
  frames := inv.frames
  kernel := rfl
  main := inv.main
  drawTrigger := by simp [DrawManager.draw, inv.drawTrigger, Moment.drawTrigger, release]
  drawDone := inv.drawDone
  allows := inv.allows
  holds := inv.holds
  onRenders := inv.onRenders
  onSwaps := inv.onSwaps
  renders := inv.renders
  swaps := inv.swaps

/-- When the end of the frame is signalled, every pipe has rendered and swapped. -/
theorem isFrame (inv : s.InFrame frames renders swaps .signalled stage) :
    IsFrame (.draw s.pipes.length :: renders ++ swaps ++ [.sync]) := by
  refine ⟨_, renders, swaps, rfl, ⟨inv.onRenders, ?_⟩, inv.onSwaps, ?_⟩
  · intro i small
    have finished : stage i = .finished := inv.allows i small
    rw [inv.renders i small, finished]
    rfl
  · intro i small
    have finished : stage i = .finished := inv.allows i small
    rw [inv.swaps i small, finished]
    rfl

theorem sync (inv : s.InFrame frames renders swaps m stage) (stepped : s.sync = some t) :
    ∃ frames', t.InFrame frames' [] [] .between fun _ => .idle := by
  simp only [DrawManager.sync, Option.map_eq_some_iff] at stepped
  obtain ⟨left, acquired, rfl⟩ := stepped
  rw [inv.drawDone] at acquired
  cases m with
  | between | triggered | calls | swapBarrier | done => simp [Moment.drawDone, acquire] at acquired
  | signalled =>
    refine ⟨frames ++ [.draw s.pipes.length :: renders ++ swaps ++ [.sync]], ?_⟩
    exact {
      log := by simp [inv.log, current, Moment.kernel]
      frames := by
        intro frame member
        rcases List.mem_append.mp member with old | new
        · exact inv.frames frame old
        · rw [List.mem_singleton.mp new]
          exact inv.isFrame
      kernel := rfl
      main := inv.main
      drawTrigger := inv.drawTrigger
      drawDone := (Option.some.inj acquired).symm
      allows := fun _ _ => rfl
      holds := by
        intro i p found
        have finished : stage i = .finished := inv.allows i (List.getElem?_eq_some_iff.mp found).1
        have holds := inv.holds i p found
        rw [finished] at holds
        exact { holds with place := Or.inr holds.place }
      onRenders := by simp [OnPipes]
      onSwaps := by simp [OnPipes]
      renders := fun _ _ => rfl
      swaps := fun _ _ => rfl }

/-! ### Steps of the manager -/

theorem goOn {m' : Moment} (inv : s.InFrame frames renders swaps m stage)
    (log : t.log = s.log) (pipes : t.pipes = s.pipes) (kernel : t.kernel = s.kernel)
    (drawing : m'.kernel = m.kernel) (main : t.main = m'.main)
    (trigger : t.drawTriggerSema = m'.drawTrigger) (finish : t.drawDoneSema = m'.drawDone)
    (allows : ∀ i < s.pipes.length, m'.Allows i (stage i)) :
    t.InFrame frames renders swaps m' stage where
  log := by rw [log, pipes, inv.log, current, current, drawing]
  frames := inv.frames
  kernel := kernel.trans (inv.kernel.trans drawing.symm)
  main := main
  drawTrigger := trigger
  drawDone := finish
  allows := by rw [pipes]; exact allows
  holds := by rw [pipes]; exact inv.holds
  onRenders := by rw [pipes]; exact inv.onRenders
  onSwaps := by rw [pipes]; exact inv.onSwaps
  renders := by rw [pipes]; exact inv.renders
  swaps := by rw [pipes]; exact inv.swaps

/-- Pipe `i` changes its stage and adds `r` to the rendering or `w` to the swapping. -/
theorem setPipe {m' : Moment} {i : Nat} {p p' : Pipe} {stage' : Stage} {r w : List Event}
    (inv : s.InFrame frames renders swaps m stage) (found : s.pipes[i]? = some p)
    (pipes : t.pipes = s.pipes.set i p')
    (log : t.log = frames.flatten ++ current m' s.pipes.length (renders ++ r) (swaps ++ w))
    (kernel : t.kernel = m'.kernel) (main : t.main = m'.main)
    (trigger : t.drawTriggerSema = m'.drawTrigger) (finish : t.drawDoneSema = m'.drawDone)
    (here : m'.Allows i stage')
    (others : ∀ j < s.pipes.length, j ≠ i → m'.Allows j (stage j)) (holds : stage'.Holds p')
    (onRenders : OnPipes s.pipes.length [.render, .rendered] (renders ++ r))
    (onSwaps : OnPipes s.pipes.length [.swap, .swapped] (swaps ++ w))
    (alone : ∀ j ≠ i, worksOf j r = [] ∧ worksOf j w = [])
    (renders' : stage'.renders = (stage i).renders ++ worksOf i r)
    (swaps' : stage'.swaps = (stage i).swaps ++ worksOf i w) :
    t.InFrame frames (renders ++ r) (swaps ++ w) m' (Function.update stage i stage') := by
  have length : t.pipes.length = s.pipes.length := by rw [pipes, List.length_set]
  exact {
    log := by rw [log, length]
    frames := inv.frames
    kernel := kernel
    main := main
    drawTrigger := trigger
    drawDone := finish
    allows := by
      intro j small
      rw [length] at small
      by_cases same : j = i
      · subst same
        rw [Function.update_self]
        exact here
      · rw [Function.update_of_ne same]
        exact others j small same
    holds := by
      intro j q found'
      rw [pipes] at found'
      by_cases same : j = i
      · subst same
        rw [List.getElem?_set_self (List.getElem?_eq_some_iff.mp found).1] at found'
        rw [Function.update_self, ← Option.some.inj found']
        exact holds
      · rw [List.getElem?_set_ne (Ne.symm same)] at found'
        rw [Function.update_of_ne same]
        exact inv.holds j q found'
    onRenders := by rw [length]; exact onRenders
    onSwaps := by rw [length]; exact onSwaps
    renders := by
      intro j small
      rw [length] at small
      rw [worksOf_append, inv.renders j small]
      by_cases same : j = i
      · rw [same, Function.update_self, renders']
      · rw [Function.update_of_ne same, (alone j same).1, List.append_nil]
    swaps := by
      intro j small
      rw [length] at small
      rw [worksOf_append, inv.swaps j small]
      by_cases same : j = i
      · rw [same, Function.update_self, swaps']
      · rw [Function.update_of_ne same, (alone j same).2, List.append_nil] }

/-- A change of stage with which nothing is done. -/
theorem setStage {m' : Moment} {i : Nat} {p p' : Pipe} {stage' : Stage}
    (inv : s.InFrame frames renders swaps m stage) (found : s.pipes[i]? = some p)
    (pipes : t.pipes = s.pipes.set i p') (log : t.log = s.log) (kernel : t.kernel = s.kernel)
    (drawing : m'.kernel = m.kernel) (main : t.main = m'.main)
    (trigger : t.drawTriggerSema = m'.drawTrigger) (finish : t.drawDoneSema = m'.drawDone)
    (here : m'.Allows i stage')
    (others : ∀ j < s.pipes.length, j ≠ i → m'.Allows j (stage j)) (holds : stage'.Holds p')
    (renders' : stage'.renders = (stage i).renders) (swaps' : stage'.swaps = (stage i).swaps) :
    t.InFrame frames renders swaps m' (Function.update stage i stage') := by
  have after : t.InFrame frames (renders ++ []) (swaps ++ []) m'
      (Function.update stage i stage') := inv.setPipe found pipes
    (by rw [log, inv.log, current, current, drawing, List.append_nil, List.append_nil])
    (kernel.trans (inv.kernel.trans drawing.symm)) main trigger finish here others holds
    (by rw [List.append_nil]; exact inv.onRenders) (by rw [List.append_nil]; exact inv.onSwaps)
    (fun _ _ => ⟨rfl, rfl⟩) (by rw [renders', worksOf_nil, List.append_nil])
    (by rw [swaps', worksOf_nil, List.append_nil])
  rwa [List.append_nil, List.append_nil] at after

theorem perform (inv : s.InFrame frames renders swaps (.calls call pipe_num) stage)
    {p p' : Pipe} (found : s.pipes[pipe_num]? = some p) (performed : call.perform p = some p') :
    ∃ stage', InFrame { s with
      pipes := s.pipes.set pipe_num p'
      main := .calls call (pipe_num + 1) } frames renders swaps (.calls call (pipe_num + 1))
        stage' := by
  have small := (List.getElem?_eq_some_iff.mp found).1
  have before : (stage pipe_num).Before call := by
    have allowed := inv.allows pipe_num small
    rwa [Moment.Allows, if_neg (Nat.lt_irrefl _)] at allowed
  obtain ⟨stage', after, holds, renders', swaps'⟩ :=
    (inv.holds pipe_num p found).perform before performed
  refine ⟨_, inv.setStage found rfl rfl rfl rfl rfl inv.drawTrigger inv.drawDone ?_ ?_ holds
    renders' swaps'⟩
  · rwa [Moment.Allows, if_pos (Nat.lt_succ_self _)]
  · intro j small' other
    have allowed := inv.allows j small'
    rw [Moment.Allows] at allowed ⊢
    by_cases earlier : j < pipe_num
    · rw [if_pos earlier] at allowed
      rwa [if_pos (Nat.lt_succ_of_lt earlier)]
    · rw [if_neg earlier] at allowed
      rwa [if_neg (by omega)]

/-- The loop of a call ends when no pipe is left. -/
theorem next (inv : s.InFrame frames renders swaps (.calls call pipe_num) stage)
    (none' : s.pipes[pipe_num]? = none) :
    ∃ m', InFrame { s with main := call.next } frames renders swaps m' stage := by
  have after (i : Nat) (small : i < s.pipes.length) : (stage i).After call := by
    have allowed := inv.allows i small
    rwa [Moment.Allows, if_pos (Nat.lt_of_lt_of_le small (List.getElem?_eq_none_iff.mp none'))]
      at allowed
  cases call with
  | triggerRender =>
    exact ⟨.calls .completeRender 0,
      inv.goOn rfl rfl rfl rfl rfl inv.drawTrigger inv.drawDone after⟩
  | completeRender =>
    exact ⟨.swapBarrier, inv.goOn rfl rfl rfl rfl rfl inv.drawTrigger inv.drawDone after⟩
  | triggerSwap =>
    exact ⟨.calls .completeSwap 0, inv.goOn rfl rfl rfl rfl rfl inv.drawTrigger inv.drawDone after⟩
  | completeSwap =>
    exact ⟨.done, inv.goOn rfl rfl rfl rfl rfl inv.drawTrigger inv.drawDone after⟩

theorem mainStep (inv : s.InFrame frames renders swaps m stage)
    (stepped : s.mainStep = some t) :
    ∃ m' stage', t.InFrame frames renders swaps m' stage' := by
  rw [DrawManager.mainStep, inv.main] at stepped
  cases m with
  | between | signalled =>
    simp [Moment.main, inv.drawTrigger, Moment.drawTrigger, acquire] at stepped
  | triggered =>
    simp only [Moment.main, inv.drawTrigger, Moment.drawTrigger, acquire, Option.map_some,
      Option.some.injEq] at stepped
    subst stepped
    exact ⟨.calls .triggerRender 0, stage,
      inv.goOn rfl rfl rfl rfl rfl rfl inv.drawDone inv.allows⟩
  | calls call pipe_num =>
    simp only [Moment.main] at stepped
    cases found : s.pipes[pipe_num]? with
    | none =>
      rw [found] at stepped
      obtain ⟨m', after⟩ := inv.next found
      exact ⟨m', stage, Option.some.inj stepped ▸ after⟩
    | some p =>
      simp only [found, Option.map_eq_some_iff] at stepped
      obtain ⟨p', performed, rfl⟩ := stepped
      exact ⟨_, inv.perform found performed⟩
  | swapBarrier =>
    obtain rfl := Option.some.inj stepped
    exact ⟨.calls .triggerSwap 0, stage,
      inv.goOn rfl rfl rfl rfl rfl inv.drawTrigger inv.drawDone inv.allows⟩
  | done =>
    obtain rfl := Option.some.inj stepped
    have signalled : release s.drawDoneSema = Moment.signalled.drawDone := by
      rw [inv.drawDone]
      rfl
    exact ⟨.signalled, stage, inv.goOn rfl rfl rfl rfl rfl inv.drawTrigger signalled inv.allows⟩

/-! ### Steps of a pipe -/

theorem alone {i j : Nat} (other : j ≠ i) (work : Work) : worksOf j [.pipe work i] = [] := by
  rw [worksOf_singleton, if_neg (Ne.symm other)]

theorem render {i : Nat} {p p' : Pipe} {stage' : Stage} {work : Work}
    (inv : s.InFrame frames renders swaps m stage) (found : s.pipes[i]? = some p)
    (works : (stage i).Works (some work) stage') (holds : stage'.Holds p')
    (early : stage i = .renderAsked ∨ stage i = .rendering)
    (listed : work ∈ [Work.render, .rendered])
    (renders' : stage'.renders = (stage i).renders ++ [work])
    (swaps' : stage'.swaps = (stage i).swaps) :
    InFrame { s with
      pipes := s.pipes.set i p'
      log := s.log ++ [.pipe work i] } frames (renders ++ [.pipe work i]) swaps m
        (Function.update stage i stage') := by
  have small := (List.getElem?_eq_some_iff.mp found).1
  have allowed := inv.allows i small
  -- no pipe has begun to swap
  obtain rfl : swaps = [] := by
    apply inv.onSwaps.eq_nil
    intro j small'
    rw [inv.swaps j small']
    exact Moment.swaps_of_rendering allowed early (inv.allows j small')
  have drawing : m.kernel = .drawing := by
    apply allowed.drawing
    rcases early with here | here <;> simp [here]
  change InFrame _ frames _ ([] ++ []) m _
  apply inv.setPipe found
  case pipes => rfl
  case log => simp [inv.log, current, drawing]
  case kernel => exact inv.kernel
  case main => exact inv.main
  case trigger => exact inv.drawTrigger
  case finish => exact inv.drawDone
  case here => exact allowed.works works
  case others => exact fun j small' _ => inv.allows j small'
  case holds => exact holds
  case onRenders => exact inv.onRenders.snoc listed small
  case onSwaps => exact inv.onSwaps
  case alone => exact fun j other => ⟨alone other work, rfl⟩
  case renders' => rw [renders', worksOf_singleton, if_pos rfl]
  case swaps' => rw [swaps', worksOf_nil, List.append_nil]

theorem swap {i : Nat} {p p' : Pipe} {stage' : Stage} {work : Work}
    (inv : s.InFrame frames renders swaps m stage) (found : s.pipes[i]? = some p)
    (works : (stage i).Works (some work) stage') (holds : stage'.Holds p')
    (busy : stage i ≠ .idle) (listed : work ∈ [Work.swap, .swapped])
    (renders' : stage'.renders = (stage i).renders)
    (swaps' : stage'.swaps = (stage i).swaps ++ [work]) :
    InFrame { s with
      pipes := s.pipes.set i p'
      log := s.log ++ [.pipe work i] } frames renders (swaps ++ [.pipe work i]) m
        (Function.update stage i stage') := by
  have small := (List.getElem?_eq_some_iff.mp found).1
  have allowed := inv.allows i small
  have drawing := allowed.drawing busy
  rw [← List.append_nil renders]
  apply inv.setPipe found
  case pipes => rfl
  case log => simp [inv.log, current, drawing]
  case kernel => exact inv.kernel
  case main => exact inv.main
  case trigger => exact inv.drawTrigger
  case finish => exact inv.drawDone
  case here => exact allowed.works works
  case others => exact fun j small' _ => inv.allows j small'
  case holds => exact holds
  case onRenders => rw [List.append_nil]; exact inv.onRenders
  case onSwaps => exact inv.onSwaps.snoc listed small
  case alone => exact fun j other => ⟨rfl, alone other work⟩
  case renders' => rw [renders', worksOf_nil, List.append_nil]
  case swaps' => rw [swaps', worksOf_singleton, if_pos rfl]

theorem pipeStep {ready : Bool} (inv : s.InFrame frames renders swaps m stage)
    (stepped : s.pipeStep pipe_num ready = some t) :
    ∃ renders' swaps' stage', t.InFrame frames renders' swaps' m stage' := by
  simp only [DrawManager.pipeStep, Option.bind_eq_some_iff, Option.map_eq_some_iff] at stepped
  obtain ⟨p, found, ⟨p', work⟩, stepped, rfl⟩ := stepped
  have small := (List.getElem?_eq_some_iff.mp found).1
  obtain ⟨stage', works, holds⟩ := (inv.holds pipe_num p found).step stepped
  generalize here : stage pipe_num = before at works
  cases works with
  | stays =>
    refine ⟨_, _, _, inv.setStage found rfl (List.append_nil _) rfl rfl inv.main inv.drawTrigger
      inv.drawDone (inv.allows pipe_num small) (fun j small' _ => inv.allows j small')
      (by rw [here]; exact holds) rfl rfl⟩
  | render =>
    refine ⟨_, _, _, inv.render found (by rw [here]; exact .render) holds (Or.inl here)
      (by simp) (by rw [here]; rfl) (by rw [here]; rfl)⟩
  | rendered =>
    refine ⟨_, _, _, inv.render found (by rw [here]; exact .rendered) holds (Or.inr here)
      (by simp) (by rw [here]; rfl) (by rw [here]; rfl)⟩
  | swap =>
    refine ⟨_, _, _, inv.swap found (by rw [here]; exact .swap) holds (by simp [here])
      (by simp) (by rw [here]; rfl) (by rw [here]; rfl)⟩
  | swapped =>
    refine ⟨_, _, _, inv.swap found (by rw [here]; exact .swapped) holds (by simp [here])
      (by simp) (by rw [here]; rfl) (by rw [here]; rfl)⟩

theorem step {act : Act} (inv : s.InFrame frames renders swaps m stage)
    (stepped : s.step act = some t) :
    ∃ frames' renders' swaps' m' stage', t.InFrame frames' renders' swaps' m' stage' := by
  cases act with
  | addDisplay pipe_num =>
    simp only [DrawManager.step, Option.ite_none_right_eq_some, Option.some.injEq] at stepped
    obtain ⟨between, rfl⟩ := stepped
    obtain rfl := Moment.eq_between (inv.kernel.symm.trans between)
    exact ⟨_, _, _, _, _, inv.addDisplay pipe_num⟩
  | draw =>
    simp only [DrawManager.step, Option.ite_none_right_eq_some, Option.some.injEq] at stepped
    obtain ⟨between, rfl⟩ := stepped
    obtain rfl := Moment.eq_between (inv.kernel.symm.trans between)
    exact ⟨_, _, _, _, _, inv.draw⟩
  | sync =>
    simp only [DrawManager.step, Option.ite_none_right_eq_some] at stepped
    obtain ⟨frames', after⟩ := inv.sync stepped.2
    exact ⟨frames', _, _, _, _, after⟩
  | main =>
    obtain ⟨m', stage', after⟩ := inv.mainStep stepped
    exact ⟨_, _, _, m', stage', after⟩
  | controlLoop pipe_num ready =>
    obtain ⟨renders', swaps', stage', after⟩ := inv.pipeStep stepped
    exact ⟨_, renders', swaps', _, stage', after⟩

end InFrame

/-! ## The protocol -/

/-- Everything that the frames of a run keep to. -/
structure KeepsFrames (s : DrawManager) : Prop where
  frames : ∃ (frames : List (List Event)) (now : List Event), s.log = frames.flatten ++ now ∧
    (∀ frame ∈ frames, IsFrame frame) ∧
    (s.kernel = .between → now = []) ∧ (s.kernel = .drawing → IsBegun s.pipes.length now)
  managerCounts : s.drawTriggerSema ≤ 1 ∧ s.drawDoneSema ≤ 1
  pipeCounts : ∀ p ∈ s.pipes, p.mRenderTriggerSema ≤ 1 ∧ p.mRenderCompleteSema ≤ 1 ∧
    p.mSwapTriggerSema ≤ 1 ∧ p.mSwapCompleteSema ≤ 1
  betweenFrames : s.kernel = .between → s.drawTriggerSema = 0 ∧ s.drawDoneSema = 0 ∧
    ∀ p ∈ s.pipes, p.mRenderTriggerSema = 0 ∧ p.mRenderCompleteSema = 0 ∧
      p.mSwapTriggerSema = 0 ∧ p.mSwapCompleteSema = 0

namespace InFrame

variable {s : DrawManager} {frames : List (List Event)} {renders swaps : List Event}
  {m : Moment} {stage : Nat → Stage}

theorem isBegun (inv : s.InFrame frames renders swaps m stage) (drawing : m.kernel = .drawing) :
    IsBegun s.pipes.length (current m s.pipes.length renders swaps) := by
  refine ⟨renders, swaps, by rw [current, drawing], ⟨inv.onRenders, ?_⟩, ⟨inv.onSwaps, ?_⟩, ?_⟩
  · intro i small
    rw [inv.renders i small]
    exact (stage i).renders_part
  · intro i small
    rw [inv.swaps i small]
    exact (stage i).swaps_part
  · by_cases quiet : ∀ i < s.pipes.length, worksOf i swaps = []
    · exact Or.inl (inv.onSwaps.eq_nil quiet)
    · right
      push Not at quiet
      obtain ⟨i, small, busy⟩ := quiet
      rw [inv.swaps i small] at busy
      refine ⟨inv.onRenders, fun j small' => ?_⟩
      rw [inv.renders j small']
      exact Moment.renders_of_swapping (inv.allows i small) busy (inv.allows j small')

theorem keepsFrames (inv : s.InFrame frames renders swaps m stage) : s.KeepsFrames where
  frames := by
    refine ⟨frames, _, inv.log, inv.frames, ?_, ?_⟩
    · intro between
      rw [Moment.eq_between (inv.kernel.symm.trans between)]
      rfl
    · exact fun drawing => inv.isBegun (inv.kernel.symm.trans drawing)
  managerCounts := by
    rw [inv.drawTrigger, inv.drawDone]
    cases m <;> simp [Moment.drawTrigger, Moment.drawDone]
  pipeCounts := by
    intro p member
    obtain ⟨i, found⟩ := List.getElem?_of_mem member
    obtain ⟨_, _, asked, rendered, swapAsked, swapped⟩ := inv.holds i p found
    rw [asked, rendered, swapAsked, swapped]
    exact ⟨Stage.count_le _ _, Stage.count_le _ _, Stage.count_le _ _, Stage.count_le _ _⟩
  betweenFrames := by
    intro between
    obtain rfl := Moment.eq_between (inv.kernel.symm.trans between)
    refine ⟨inv.drawTrigger, inv.drawDone, fun p member => ?_⟩
    obtain ⟨i, found⟩ := List.getElem?_of_mem member
    have idle : stage i = .idle := inv.allows i (List.getElem?_eq_some_iff.mp found).1
    obtain ⟨_, _, asked, rendered, swapAsked, swapped⟩ := inv.holds i p found
    rw [asked, rendered, swapAsked, swapped, idle]
    exact ⟨rfl, rfl, rfl, rfl⟩

end InFrame

/-- In every run of the threads each pipe renders once and then swaps once in a frame, the pipes
swap after all have rendered, and `sync` returns after all have swapped; and no semaphore counts
more than one, or anything between two frames. -/
theorem draw_frames {acts : List Act} {s : DrawManager} (reached : run step create acts = some s) :
    s.KeepsFrames := by
  have inv : ∃ frames renders swaps m stage, s.InFrame frames renders swaps m stage := by
    refine run_invariant (fun s : DrawManager =>
      ∃ frames renders swaps m stage, s.InFrame frames renders swaps m stage) ?_ ?_ reached
    · rintro s act t ⟨_, _, _, _, _, before⟩ stepped
      exact before.step stepped
    · exact ⟨[], [], [], .between, _, inFrame_create⟩
  obtain ⟨_, _, _, _, _, inv⟩ := inv
  exact inv.keepsFrames

/-- Two pipes; the second one renders first. -/
def oneFrame : List Act :=
  [.addDisplay 1, .draw, .controlLoop 0 true, .controlLoop 1 true, .main, .main, .main, .main,
    .controlLoop 1 true, .controlLoop 1 true, .controlLoop 1 true, .controlLoop 0 true,
    .controlLoop 0 true, .controlLoop 0 true, .main, .main, .main, .main, .main, .main,
    .controlLoop 0 true, .controlLoop 1 true, .main, .controlLoop 1 true, .controlLoop 0 true,
    .main, .main, .main, .main, .sync]

theorem draw_frames_oneFrame : ∃ s, run step create oneFrame = some s ∧ s.KeepsFrames ∧
    s.log = [.draw 2, .pipe .render 1, .pipe .rendered 1, .pipe .render 0, .pipe .rendered 0,
      .pipe .swap 0, .pipe .swap 1, .pipe .swapped 1, .pipe .swapped 0, .sync] := by
  obtain ⟨s, reached, events⟩ := Option.map_eq_some_iff.mp (show
    (run step create oneFrame).map DrawManager.log = some [.draw 2, .pipe .render 1,
      .pipe .rendered 1, .pipe .render 0, .pipe .rendered 0, .pipe .swap 0, .pipe .swap 1,
      .pipe .swapped 1, .pipe .swapped 0, .sync] by decide +kernel)
  exact ⟨s, reached, draw_frames reached, events⟩

end DrawManager

end VRJuggler.Draw
