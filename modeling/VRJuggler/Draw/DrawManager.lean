import Mathlib.Data.List.Basic
import VRJuggler.Base.Run

/-!
# The OpenGL draw manager

The kernel thread triggers a frame and waits for its end; the thread of
`vrj::opengl::DrawManager` has every `vrj::opengl::Pipe` render and then swap; every pipe has a
thread of its own. The threads meet at semaphores only, which are counters here. `stop`,
`closeAPI` and the windows of a pipe are left out, and so is what the threads do between two
operations on the semaphores.
-/
namespace VRJuggler.Draw

/-! ## Semaphores -/

def acquire : Nat → Option Nat
  | 0 => none
  | count + 1 => some count

def release (count : Nat) : Nat := count + 1

/-! ## Pipes -/

/-- Where the thread of a pipe is in `controlLoop`: before the loop, at its head, at the two
triggers, rendering, swapping, or at the lists of windows to close and to open. -/
inductive ControlLoop where
  | starting
  | head
  | awaitRender
  | rendering
  | awaitSwap
  | swapping
  | windows
  deriving DecidableEq, Repr

structure Pipe where
  mThreadRunning : Bool
  mRenderTriggerSema : Nat
  mRenderCompleteSema : Nat
  mSwapTriggerSema : Nat
  mSwapCompleteSema : Nat
  controlLoop : ControlLoop
  deriving DecidableEq, Repr

/-- What a pipe does in a frame; `rendered` and `swapped` are the ends of it. -/
inductive Work where
  | render
  | rendered
  | swap
  | swapped
  deriving DecidableEq, Repr

namespace Pipe

/-- The constructor and `start`. -/
def create : Pipe := ⟨false, 0, 0, 0, 0, .starting⟩

/-- `triggerRender` waits as long as the thread of the pipe has not started. -/
def triggerRender (p : Pipe) : Option Pipe :=
  if p.mThreadRunning then some { p with mRenderTriggerSema := release p.mRenderTriggerSema }
  else none

def completeRender (p : Pipe) : Option Pipe :=
  (acquire p.mRenderCompleteSema).map fun count => { p with mRenderCompleteSema := count }

def triggerSwap (p : Pipe) : Option Pipe :=
  some { p with mSwapTriggerSema := release p.mSwapTriggerSema }

def completeSwap (p : Pipe) : Option Pipe :=
  (acquire p.mSwapCompleteSema).map fun count => { p with mSwapCompleteSema := count }

/-- One step of `controlLoop`. `ready` is false if the cluster is active and not yet ready: then
the loop goes round without a look at the triggers. -/
def step (ready : Bool) (p : Pipe) : Option (Pipe × Option Work) :=
  match p.controlLoop with
  | .starting => some ({ p with mThreadRunning := true, controlLoop := .head }, none)
  | .head => some ({ p with controlLoop := if ready then .awaitRender else .windows }, none)
  | .awaitRender => (acquire p.mRenderTriggerSema).map fun count =>
      ({ p with mRenderTriggerSema := count, controlLoop := .rendering }, some .render)
  | .rendering => some ({ p with
      mRenderCompleteSema := release p.mRenderCompleteSema
      controlLoop := .awaitSwap }, some .rendered)
  | .awaitSwap => (acquire p.mSwapTriggerSema).map fun count =>
      ({ p with mSwapTriggerSema := count, controlLoop := .swapping }, some .swap)
  | .swapping => some ({ p with
      mSwapCompleteSema := release p.mSwapCompleteSema
      controlLoop := .windows }, some .swapped)
  | .windows => some ({ p with controlLoop := .head }, none)

end Pipe

/-! ## The threads of the kernel and of the manager -/

/-- The four calls that `drawAllPipes` makes for one pipe after the other. -/
inductive Call where
  | triggerRender
  | completeRender
  | triggerSwap
  | completeSwap
  deriving DecidableEq, Repr

def Call.perform : Call → Pipe → Option Pipe
  | triggerRender => Pipe.triggerRender
  | completeRender => Pipe.completeRender
  | triggerSwap => Pipe.triggerSwap
  | completeSwap => Pipe.completeSwap

/-- Where the manager's thread is in `main`: at the trigger, in one of the loops of
`drawAllPipes`, at the barrier of the cluster, or done with the pipes. -/
inductive Main where
  | awaitDraw
  | calls (call : Call) (pipe_num : Nat)
  | swapBarrier
  | done
  deriving DecidableEq, Repr

/-- What follows the loop of a call. -/
def Call.next : Call → Main
  | triggerRender => .calls completeRender 0
  | completeRender => .swapBarrier
  | triggerSwap => .calls completeSwap 0
  | completeSwap => .done

/-- Whether the kernel's thread is between two frames or between `draw` and `sync`. -/
inductive Kernel where
  | between
  | drawing
  deriving DecidableEq, Repr

/-- The trigger of a frame with its number of pipes, the work of a pipe, and the return of
`sync`. -/
inductive Event where
  | draw (pipes : Nat)
  | pipe (work : Work) (pipe_num : Nat)
  | sync
  deriving DecidableEq, Repr

/-- The state of all threads; `log` records what happened. -/
structure DrawManager where
  kernel : Kernel
  main : Main
  drawTriggerSema : Nat
  drawDoneSema : Nat
  pipes : List Pipe
  log : List Event
  deriving DecidableEq, Repr

/-- A step of one of the threads. -/
inductive Act where
  | addDisplay (pipe_num : Nat)
  | draw
  | sync
  | main
  | controlLoop (pipe_num : Nat) (ready : Bool)
  deriving DecidableEq, Repr

namespace DrawManager

def create : DrawManager := ⟨.between, .awaitDraw, 0, 0, [], []⟩

/-- `addDisplay` starts the pipes that are missing up to the one of the display. -/
def addDisplay (s : DrawManager) (pipe_num : Nat) : DrawManager :=
  { s with pipes := s.pipes ++ List.replicate (pipe_num + 1 - s.pipes.length) Pipe.create }

def draw (s : DrawManager) : DrawManager :=
  { s with
    kernel := .drawing
    drawTriggerSema := release s.drawTriggerSema
    log := s.log ++ [.draw s.pipes.length] }

def sync (s : DrawManager) : Option DrawManager :=
  (acquire s.drawDoneSema).map fun count =>
    { s with kernel := .between, drawDoneSema := count, log := s.log ++ [.sync] }

/-- One step of `main` and `drawAllPipes`. -/
def mainStep (s : DrawManager) : Option DrawManager :=
  match s.main with
  | .awaitDraw => (acquire s.drawTriggerSema).map fun count =>
      { s with drawTriggerSema := count, main := .calls .triggerRender 0 }
  | .calls call pipe_num =>
    match s.pipes[pipe_num]? with
    | none => some { s with main := call.next }
    | some p => (call.perform p).map fun p' =>
        { s with pipes := s.pipes.set pipe_num p', main := .calls call (pipe_num + 1) }
  | .swapBarrier => some { s with main := .calls .triggerSwap 0 }
  | .done => some { s with drawDoneSema := release s.drawDoneSema, main := .awaitDraw }

/-- One step of the thread of a pipe. -/
def pipeStep (s : DrawManager) (pipe_num : Nat) (ready : Bool) : Option DrawManager :=
  s.pipes[pipe_num]?.bind fun p => (p.step ready).map fun (p', work) =>
    { s with
      pipes := s.pipes.set pipe_num p'
      log := s.log ++ (work.map fun work => Event.pipe work pipe_num).toList }

/-- Displays are added between two frames only. -/
def step (s : DrawManager) : Act → Option DrawManager
  | .addDisplay pipe_num => if s.kernel = .between then some (s.addDisplay pipe_num) else none
  | .draw => if s.kernel = .between then some s.draw else none
  | .sync => if s.kernel = .drawing then s.sync else none
  | .main => s.mainStep
  | .controlLoop pipe_num ready => s.pipeStep pipe_num ready

end DrawManager

end VRJuggler.Draw
