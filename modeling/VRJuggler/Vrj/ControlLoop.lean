import Mathlib.Logic.Function.Basic
import VRJuggler.Vrj.ChangeApplication

/-!
# The control loop

The control thread of the kernel runs frames of its application, and after each frame takes up a
request for another one. Other threads make the requests, without a lock, and stop the kernel.
Calls that applications make themselves are like those of another thread: what a frame does
depends on none of the members that they write.
-/
namespace VRJuggler.Vrj

/-- A call to an application or a manager. -/
inductive ControlCall (α δ σ : Type) where
  | change (call : AppCall α δ σ)
  | preFrame (a : α)
  | latePreFrame (a : α)
  | draw (drawMgr : δ)
  | update (soundMgr : σ)
  | intraFrame (a : α)
  | syncSound (soundMgr : σ)
  | syncDraw (drawMgr : δ)
  | postFrame (a : α)
  deriving DecidableEq

/-- Where the control thread is. -/
inductive ControlPoint where
  | unstarted
  | starting
  | loop
  | frame (call_app : Bool)
  | reconfig
  | newAppSet
  | depSatisfied
  | satisfied
  | changing
  | signalButtons
  | stop
  | stopSet
  | leaving
  | left
  | crashed
  deriving DecidableEq

/-- Another thread: it has written `mNewApp` and not yet the flag, or it is in `stop` and has
written `mExitFlag`. -/
inductive CallerPoint where
  | idle
  | assigned
  | stopping
  deriving DecidableEq

/-- The members that the threads share, and the calls so far. `waited`: some
`waitForKernelStop` has returned. -/
structure ControlLoop (φ α δ σ ι : Type) where
  kernel : Kernel φ α δ σ
  mNewApp : Option α := none
  mNewAppSet : Bool := false
  mExitFlag : Bool := false
  mIsRunning : Bool := false
  point : ControlPoint := .unstarted
  callers : ι → CallerPoint := fun _ => .idle
  calls : List (ControlCall α δ σ) := []
  waited : Bool := false

/-- A step of the control thread, with the answer that it gets at this point (is the cluster ready,
are the dependencies satisfied, was the stop button pressed), or one of another thread. -/
inductive ControlAction (α ι : Type) where
  | control (answer : Bool)
  | assignNewApp (i : ι) (newApp : Option α)
  | setNewApp (i : ι)
  | stop (i : ι)
  | stopApp (i : ι)
  | waitForKernelStop (i : ι)
  deriving DecidableEq

namespace ControlLoop

variable {φ α δ σ ι : Type} [DecidableEq φ] [DecidableEq α] [DecidableEq δ] [DecidableEq σ]
  [DecidableEq ι] (lib : AppLibrary α δ σ) (s : ControlLoop φ α δ σ ι)

def goto (point : ControlPoint) : ControlLoop φ α δ σ ι := { s with point }

def caller (i : ι) (point : CallerPoint) : ControlLoop φ α δ σ ι :=
  { s with callers := Function.update s.callers i point }

/-- A frame, from `preFrame` to `postFrame`. -/
def frameCalls (a : α) (drawMgr : δ) (soundMgr : σ) : List (ControlCall α δ σ) :=
  [.preFrame a, .latePreFrame a, .draw drawMgr, .update soundMgr, .intraFrame a,
    .syncSound soundMgr, .syncDraw drawMgr, .postFrame a]

/-- The sound manager is not looked at before it is used. -/
def frame : ControlLoop φ α δ σ ι :=
  match s.kernel.mApp, s.kernel.mDrawManager, s.kernel.mSoundManager with
  | some a, some drawMgr, some soundMgr =>
    { s with calls := s.calls ++ frameCalls a drawMgr soundMgr }.goto .reconfig
  | some _, some _, none => s.goto .crashed
  | _, _, _ => s.goto .reconfig

/-- The change of the application, with the calls that it makes. -/
def changeApp (newApp : Option α) : ControlLoop φ α δ σ ι :=
  let kernel := s.kernel.changeApplication lib newApp
  { s with
    kernel
    calls := s.calls ++ (kernel.calls.drop s.kernel.calls.length).map .change }

/-- The next step of the control thread: `start`, `controlLoop` and `checkForReconfig`. -/
def controlStep (answer : Bool) : Option (ControlLoop φ α δ σ ι) :=
  match s.point with
  | .unstarted => some ({ s with mIsRunning := true }.goto .starting)
  | .starting =>
    if s.mExitFlag then some ({ s with mIsRunning := false }.goto .left) else some (s.goto .loop)
  | .loop =>
    if s.mExitFlag ∧ s.kernel.mApp = none then some (s.goto .leaving)
    else some (s.goto (.frame answer))
  | .frame call_app => if call_app then some s.frame else some (s.goto .reconfig)
  | .reconfig => some (s.goto (if s.mNewAppSet then .newAppSet else .signalButtons))
  -- `mNewApp` is read once for each time that the source names it
  | .newAppSet => some (s.goto (if s.mNewApp = none then .satisfied else .depSatisfied))
  | .depSatisfied =>
    match s.mNewApp with
    | some _ => some (s.goto (if answer then .satisfied else .signalButtons))
    | none => some (s.goto .crashed)
  | .satisfied => some ({ s with mNewAppSet := false }.goto .changing)
  | .changing => some ((s.changeApp lib s.mNewApp).goto .signalButtons)
  | .signalButtons =>
    if answer then some ({ s with mExitFlag := true }.goto .stop) else some (s.goto .loop)
  | .stop => some ({ s with mNewApp := none }.goto .stopSet)
  | .stopSet => some ({ s with mNewAppSet := true }.goto .loop)
  | .leaving => some ({ s with mIsRunning := false }.goto .left)
  | .left | .crashed => none

def step : ControlAction α ι → Option (ControlLoop φ α δ σ ι)
  | .control answer => s.controlStep lib answer
  | .assignNewApp i newApp =>
    if s.callers i = .idle then some ({ s with mNewApp := newApp }.caller i .assigned) else none
  | .setNewApp i =>
    if s.callers i = .assigned then some ({ s with mNewAppSet := true }.caller i .idle) else none
  | .stop i =>
    if s.callers i = .idle then some ({ s with mExitFlag := true }.caller i .stopping) else none
  | .stopApp i =>
    if s.callers i = .stopping then some ({ s with mNewApp := none }.caller i .assigned) else none
  | .waitForKernelStop i =>
    if s.callers i = .idle ∧ s.mIsRunning = false ∧ s.mExitFlag = true then
      some { s with waited := true }
    else none

/-- The kernel before `start`. -/
def initial (fixed : List φ) : ControlLoop φ α δ σ ι := { kernel := Kernel.idle fixed }

end ControlLoop

/-! ## What the application sees -/

/-- The calls of an application and for its frames, without the opening and closing of managers. -/
def ControlCall.ofApp {α δ σ : Type} : ControlCall α δ σ → Bool
  | .change (.init _) | .change (.apiInit _) | .change (.exit _) => true
  | .change _ => false
  | _ => true

section Lived

variable {α δ σ : Type}

/-- An application is initialized unless its draw manager rejects it. -/
def startCalls (lib : AppLibrary α δ σ) (a : α) : List (ControlCall α δ σ) :=
  if lib.accepts (lib.getDrawManager a) a then [.change (.init a), .change (.apiInit a)] else []

/-- Applications one after the other, each started once, run for whole frames with its own
managers, and exited once; the last one may be running. -/
inductive Lived (lib : AppLibrary α δ σ) : List (ControlCall α δ σ) → Option α → Prop where
  | nothing : Lived lib [] none
  | start {calls : List (ControlCall α δ σ)} (lived : Lived lib calls none) (a : α) :
    Lived lib (calls ++ startCalls lib a) (some a)
  | frame {calls : List (ControlCall α δ σ)} {a : α} (lived : Lived lib calls (some a)) :
    Lived lib (calls ++ ControlLoop.frameCalls a (lib.getDrawManager a) (lib.getSoundManager a))
      (some a)
  | exit {calls : List (ControlCall α δ σ)} {a : α} (lived : Lived lib calls (some a)) :
    Lived lib (calls ++ [.change (.exit a)]) none

/-- The old application exits, if there is one, and the new one is started, if there is one. -/
theorem Lived.change {lib : AppLibrary α δ σ} {calls : List (ControlCall α δ σ)} {mApp : Option α}
    (lived : Lived lib calls mApp) (newApp : Option α) (other : newApp ≠ mApp) :
    Lived lib (calls ++ (mApp.toList.map (fun a => .change (.exit a)) ++
      newApp.toList.flatMap (startCalls lib))) newApp := by
  have closed : Lived lib (calls ++ mApp.toList.map fun a => .change (.exit a)) none := by
    cases mApp with
    | none => simpa using lived
    | some a => exact lived.exit
  rw [← List.append_assoc]
  cases newApp with
  | none => simpa using closed
  | some b => simpa using closed.start b

theorem filter_frameCalls (a : α) (drawMgr : δ) (soundMgr : σ) :
    (ControlLoop.frameCalls a drawMgr soundMgr).filter ControlCall.ofApp =
      ControlLoop.frameCalls a drawMgr soundMgr := rfl

end Lived

/-! ## The calls of a change -/

namespace Kernel

variable {φ α δ σ : Type} [DecidableEq φ] [DecidableEq α] [DecidableEq δ] [DecidableEq σ]
  {lib : AppLibrary α δ σ} {k : Kernel φ α δ σ}

/-- The calls that one kernel has more than another, as far as they are of applications. -/
def Adds (k t : Kernel φ α δ σ) (calls : List (ControlCall α δ σ)) : Prop :=
  ∃ more, t.calls = k.calls ++ more ∧
    (more.map ControlCall.change).filter ControlCall.ofApp = calls

omit [DecidableEq φ] [DecidableEq α] [DecidableEq δ] [DecidableEq σ] in
theorem Adds.refl : Adds k k [] := ⟨[], by simp, rfl⟩

omit [DecidableEq φ] [DecidableEq α] [DecidableEq δ] [DecidableEq σ] in
theorem Adds.trans {t u : Kernel φ α δ σ} {xs ys : List (ControlCall α δ σ)}
    (first : Adds k t xs) (second : Adds t u ys) : Adds k u (xs ++ ys) := by
  obtain ⟨more, here, rfl⟩ := first
  obtain ⟨most, there, rfl⟩ := second
  exact ⟨more ++ most, by rw [there, here, List.append_assoc], by simp⟩

omit [DecidableEq φ] [DecidableEq α] [DecidableEq δ] [DecidableEq σ] in
theorem adds_stopDrawManager : Adds k k.stopDrawManager [] := by
  unfold stopDrawManager
  cases k.mDrawManager with
  | none => exact Adds.refl
  | some drawMgr => exact ⟨[.closeDrawAPI drawMgr, .setDrawManager none], rfl, rfl⟩

omit [DecidableEq φ] [DecidableEq α] [DecidableEq δ] [DecidableEq σ] in
theorem adds_stopSoundManager : Adds k k.stopSoundManager [] := by
  unfold stopSoundManager
  cases k.mSoundManager with
  | none => exact Adds.refl
  | some soundMgr => exact ⟨[.closeSoundAPI soundMgr], rfl, rfl⟩

omit [DecidableEq φ] [DecidableEq α] [DecidableEq δ] [DecidableEq σ] in
theorem adds_startDrawManager (newMgr : Bool) (a : α) :
    Adds k (k.startDrawManager lib newMgr (lib.getDrawManager a) a) (startCalls lib a) := by
  unfold startDrawManager startCalls
  cases accepted : lib.accepts (lib.getDrawManager a) a with
  | false => exact ⟨[.setApp (lib.getDrawManager a) a], rfl, rfl⟩
  | true =>
    cases newMgr with
    | false => exact ⟨[.setApp (lib.getDrawManager a) a, .init a, .apiInit a], rfl, rfl⟩
    | true =>
      exact ⟨[.setApp (lib.getDrawManager a) a, .init a, .initAPI (lib.getDrawManager a),
        .apiInit a, .setDrawManager (some (lib.getDrawManager a))], rfl, rfl⟩

/-- A change lets the old application exit and starts the new one. -/
theorem adds_changeApplication (newApp : Option α) (other : newApp ≠ k.mApp) :
    Adds k (k.changeApplication lib newApp)
      (k.mApp.toList.map (fun a => .change (.exit a)) ++
        newApp.toList.flatMap (startCalls lib)) := by
  have left : Adds k ((k.leaveDrawManager lib newApp).leaveSoundManager lib newApp) [] := by
    have draw : Adds k (k.leaveDrawManager lib newApp) [] := by
      rw [leaveDrawManager_eq]
      split
      · exact Adds.refl
      · exact adds_stopDrawManager
    rw [leaveSoundManager_eq]
    split
    · exact draw
    · exact draw.trans adds_stopSoundManager
  obtain ⟨⟨app, -, -⟩, -⟩ := leave_spec lib k newApp rfl
  unfold changeApplication
  rw [if_neg other]
  dsimp only
  generalize (k.leaveDrawManager lib newApp).leaveSoundManager lib newApp = t at left app
  have exited : Adds k t.exitApp (k.mApp.toList.map fun a => .change (.exit a)) := by
    rw [← app]
    unfold exitApp
    cases t.mApp with
    | none => exact left
    | some a => exact left.trans ⟨[.exit a], rfl, rfl⟩
  cases newApp with
  | none =>
    rw [Option.toList_none, List.flatMap_nil, List.append_nil]
    exact exited
  | some b =>
    have entered : Adds t.exitApp (({ t.exitApp with mApp := some b }.enterDrawManager lib
        b).enterSoundManager lib b) (startCalls lib b) := by
      have draw : Adds t.exitApp ({ t.exitApp with mApp := some b }.enterDrawManager lib b)
          (startCalls lib b) := by
        unfold enterDrawManager
        dsimp only
        split
        · exact adds_startDrawManager true b
        · exact adds_startDrawManager false b
      unfold enterSoundManager
      dsimp only
      split
      · exact draw
      · exact draw
    rw [Option.toList_some, List.flatMap_singleton]
    exact exited.trans entered

end Kernel

/-! ## What every step keeps -/

namespace ControlLoop

variable {φ α δ σ ι : Type} {lib : AppLibrary α δ σ} {s t : ControlLoop φ α δ σ ι}

/-- The control thread has not entered the loop. -/
def ControlPoint.Before (point : ControlPoint) : Prop := point = .unstarted ∨ point = .starting

/-- The control thread has come out of the loop. -/
def ControlPoint.After (point : ControlPoint) : Prop := point = .leaving ∨ point = .left

structure Inv (lib : AppLibrary α δ σ) (s : ControlLoop φ α δ σ ι) : Prop where
  knows : s.kernel.Knows lib
  lived : Lived lib (s.calls.filter ControlCall.ofApp) s.kernel.mApp
  /-- no request is lost between two writes of a caller and those of the control thread -/
  served : s.mNewAppSet = false → s.point ≠ .changing → s.point ≠ .stopSet →
    (∀ i, s.callers i ≠ .assigned) → s.kernel.mApp = s.mNewApp
  before : ControlPoint.Before s.point → s.kernel.mApp = none
  after : ControlPoint.After s.point → s.kernel.mApp = none ∧ s.mExitFlag = true
  running : s.mIsRunning = false → s.point = .unstarted ∨ s.point = .left
  waited : s.waited = true → s.mExitFlag = true ∧ (ControlPoint.Before s.point ∨ s.point = .left)

theorem inv_initial (fixed : List φ) : Inv lib (initial fixed : ControlLoop φ α δ σ ι) where
  knows := ⟨rfl, rfl⟩
  lived := .nothing
  served := fun _ _ _ _ => rfl
  before := fun _ => rfl
  after := by rintro (here | here) <;> cases here
  running := fun _ => .inl rfl
  waited := nofun

/-- In the loop no wait has returned, and the kernel is running. -/
theorem Inv.inLoop (inv : Inv lib s) (inside : ¬ ControlPoint.Before s.point)
    (open' : s.point ≠ .left) : s.waited = false ∧ s.mIsRunning = true := by
  constructor
  · by_contra waited
    rcases (inv.waited (by simpa using waited)).2 with here | here
    · exact inside here
    · exact open' here
  · by_contra stopped
    rcases inv.running (by simpa using stopped) with here | here
    · exact inside (.inl here)
    · exact open' here

/-- A step of the control thread inside the loop. -/
theorem Inv.next (inv : Inv lib s) (inside : ¬ ControlPoint.Before s.point)
    (open' : s.point ≠ .left) (flags : t.waited = s.waited ∧ t.mIsRunning = s.mIsRunning)
    (knows : t.kernel.Knows lib)
    (lived : Lived lib (t.calls.filter ControlCall.ofApp) t.kernel.mApp)
    (served : t.mNewAppSet = false → t.point ≠ .changing → t.point ≠ .stopSet →
      (∀ i, t.callers i ≠ .assigned) → t.kernel.mApp = t.mNewApp)
    (next : ¬ ControlPoint.Before t.point)
    (after : ControlPoint.After t.point → t.kernel.mApp = none ∧ t.mExitFlag = true) :
    Inv lib t := by
  obtain ⟨waited, running⟩ := inv.inLoop inside open'
  rw [← flags.1] at waited
  rw [← flags.2] at running
  exact {
    knows, lived, served, after
    before := fun here => absurd here next
    running := fun stopped => absurd (running.symm.trans stopped) (by simp)
    waited := fun here => absurd (waited.symm.trans here) (by simp) }

/-- A step inside the loop that changes no member but the point. -/
theorem Inv.goto (inv : Inv lib s) {point : ControlPoint} (inside : ¬ ControlPoint.Before s.point)
    (open' : s.point ≠ .left) (request : s.point ≠ .changing ∧ s.point ≠ .stopSet)
    (next : ¬ ControlPoint.Before point) (after : ¬ ControlPoint.After point) :
    Inv lib (s.goto point) :=
  inv.next inside open' ⟨rfl, rfl⟩ inv.knows inv.lived
    (fun set _ _ others => inv.served set request.1 request.2 others) next
    fun here => absurd here after

/-- A frame is run for the application, with its managers; the sound manager is there. -/
theorem Inv.frame {call_app : Bool} (inv : Inv lib s) (here : s.point = .frame call_app) :
    Inv lib s.frame ∧ s.frame.point = .reconfig := by
  have inside : ¬ ControlPoint.Before s.point := by simp [ControlPoint.Before, here]
  have stays : Inv lib (s.goto .reconfig) := by
    refine inv.goto inside ?_ ?_ ?_ ?_ <;> simp [here, ControlPoint.Before, ControlPoint.After]
  obtain ⟨draw, sound⟩ := inv.knows
  cases app : s.kernel.mApp with
  | none => simpa [ControlLoop.frame, app] using ⟨stays, rfl⟩
  | some a =>
    rw [app, Option.map_some] at draw sound
    simp only [ControlLoop.frame, app, draw, sound]
    refine ⟨stays.next ?_ ?_ ⟨rfl, rfl⟩ inv.knows ?_ stays.served ?_ ?_, rfl⟩
    · simp [ControlLoop.goto, ControlPoint.Before]
    · simp [ControlLoop.goto]
    · have lived := inv.lived
      rw [app] at lived
      have more := lived.frame
      simpa only [ControlLoop.goto, app, List.filter_append, filter_frameCalls] using more
    · simp [ControlLoop.goto, ControlPoint.Before]
    · simp [ControlLoop.goto, ControlPoint.After]

/-- A step of another thread, which writes members of requests only. -/
theorem Inv.other (inv : Inv lib s) (kernel : t.kernel = s.kernel) (calls : t.calls = s.calls)
    (point : t.point = s.point) (running : t.mIsRunning = s.mIsRunning)
    (exits : s.mExitFlag = true → t.mExitFlag = true)
    (served : t.mNewAppSet = false → t.point ≠ .changing → t.point ≠ .stopSet →
      (∀ i, t.callers i ≠ .assigned) → s.kernel.mApp = t.mNewApp)
    (waited : t.waited = true → s.waited = true ∨ t.mIsRunning = false ∧ t.mExitFlag = true) :
    Inv lib t where
  knows := by rw [kernel]; exact inv.knows
  lived := by rw [kernel, calls]; exact inv.lived
  served := by rw [kernel]; exact served
  before := by rw [kernel, point]; exact inv.before
  after := by
    rw [kernel, point]
    exact fun here => ⟨(inv.after here).1, exits (inv.after here).2⟩
  running := by rw [running, point]; exact inv.running
  waited := by
    intro returned
    rw [point]
    rcases waited returned with earlier | ⟨stopped, flag⟩
    · exact ⟨exits (inv.waited earlier).1, (inv.waited earlier).2⟩
    · rw [running] at stopped
      exact ⟨flag, (inv.running stopped).imp_left .inl⟩

variable [DecidableEq φ] [DecidableEq α] [DecidableEq δ] [DecidableEq σ]

/-- After a change, the application is the requested one. -/
theorem Inv.changeApp (inv : Inv lib s) (here : s.point = .changing) :
    Inv lib ((s.changeApp lib s.mNewApp).goto .signalButtons) := by
  obtain ⟨knows, app, -⟩ := Kernel.knows_changeApplication inv.knows s.mNewApp
  refine inv.next ?_ ?_ ⟨rfl, rfl⟩ knows ?_ (fun _ _ _ _ => app) ?_ ?_
  · simp [here, ControlPoint.Before]
  · simp [here]
  · have lived := inv.lived
    by_cases same : s.mNewApp = s.kernel.mApp
    · have stays : s.kernel.changeApplication lib s.mNewApp = s.kernel := if_pos same
      simpa [ControlLoop.changeApp, ControlLoop.goto, stays] using lived
    · obtain ⟨more, calls, ofApp⟩ := Kernel.adds_changeApplication s.mNewApp same
      have changed := lived.change s.mNewApp same
      rw [← ofApp, ← List.filter_append] at changed
      simpa [ControlLoop.changeApp, ControlLoop.goto, calls, app] using changed
  · simp [ControlLoop.goto, ControlPoint.Before]
  · simp [ControlLoop.goto, ControlPoint.After]

/-- The kernel is started, unless it was stopped before. -/
theorem Inv.start (inv : Inv lib s) {answer : Bool} (here : ControlPoint.Before s.point)
    (stepped : s.controlStep lib answer = some t) : Inv lib t := by
  have app := inv.before here
  rcases here with here | here
  · simp only [controlStep, here, Option.some.injEq] at stepped
    subst stepped
    exact {
      knows := inv.knows
      lived := inv.lived
      served := fun set _ _ others => inv.served set (by simp [here]) (by simp [here]) others
      before := fun _ => app
      after := by simp [ControlLoop.goto, ControlPoint.After]
      running := by simp [ControlLoop.goto]
      waited := fun returned => ⟨(inv.waited returned).1, .inl (.inr rfl)⟩ }
  · simp only [controlStep, here] at stepped
    split at stepped
    next stopped =>
      obtain rfl := Option.some.inj stepped
      exact {
        knows := inv.knows
        lived := inv.lived
        served := fun set _ _ others => inv.served set (by simp [here]) (by simp [here]) others
        before := fun _ => app
        after := fun _ => ⟨app, stopped⟩
        running := fun _ => .inr rfl
        waited := fun _ => ⟨stopped, .inr rfl⟩ }
    next runs =>
      obtain rfl := Option.some.inj stepped
      exact {
        knows := inv.knows
        lived := inv.lived
        served := fun set _ _ others => inv.served set (by simp [here]) (by simp [here]) others
        before := fun _ => app
        after := by simp [ControlLoop.goto, ControlPoint.After]
        running := fun stopped => by
          rcases inv.running stopped with other | other <;> simp [here] at other
        waited := fun returned => absurd (inv.waited returned).1 runs }

theorem Inv.controlStep (inv : Inv lib s) {answer : Bool}
    (stepped : s.controlStep lib answer = some t) : Inv lib t := by
  by_cases outside : ControlPoint.Before s.point
  · exact inv.start outside stepped
  · unfold ControlLoop.controlStep at stepped
    -- a step that only goes on to the next point
    have goto {point : ControlPoint} (open' : s.point ≠ .left)
        (request : s.point ≠ .changing ∧ s.point ≠ .stopSet)
        (next : ¬ ControlPoint.Before point ∧ ¬ ControlPoint.After point) :
        Inv lib (s.goto point) := inv.goto outside open' request next.1 next.2
    split at stepped
    case h_1 here => exact absurd (.inl here) outside
    case h_2 here => exact absurd (.inr here) outside
    case h_3 here =>
      split at stepped
      next closed =>
        obtain rfl := Option.some.inj stepped
        refine inv.next outside (by simp [here]) ⟨rfl, rfl⟩ inv.knows inv.lived ?_ ?_ ?_
        · exact fun set _ _ others => inv.served set (by simp [here]) (by simp [here]) others
        · simp [ControlLoop.goto, ControlPoint.Before]
        · exact fun _ => ⟨closed.2, closed.1⟩
      next =>
        obtain rfl := Option.some.inj stepped
        apply goto <;> simp [here, ControlPoint.Before, ControlPoint.After]
    case h_4 here =>
      split at stepped
      · obtain rfl := Option.some.inj stepped
        exact (inv.frame here).1
      · obtain rfl := Option.some.inj stepped
        apply goto <;> simp [here, ControlPoint.Before, ControlPoint.After]
    case h_5 here =>
      obtain rfl := Option.some.inj stepped
      apply goto
      · simp [here]
      · simp [here]
      · split <;> simp [ControlPoint.Before, ControlPoint.After]
    case h_6 here =>
      obtain rfl := Option.some.inj stepped
      apply goto
      · simp [here]
      · simp [here]
      · split <;> simp [ControlPoint.Before, ControlPoint.After]
    case h_7 here =>
      split at stepped
      · obtain rfl := Option.some.inj stepped
        apply goto
        · simp [here]
        · simp [here]
        · split <;> simp [ControlPoint.Before, ControlPoint.After]
      · obtain rfl := Option.some.inj stepped
        apply goto <;> simp [here, ControlPoint.Before, ControlPoint.After]
    case h_8 here =>
      obtain rfl := Option.some.inj stepped
      refine inv.next outside (by simp [here]) ⟨rfl, rfl⟩ inv.knows inv.lived ?_ ?_ ?_
      · exact fun _ away _ _ => absurd rfl away
      · simp [ControlLoop.goto, ControlPoint.Before]
      · simp [ControlLoop.goto, ControlPoint.After]
    case h_9 here =>
      obtain rfl := Option.some.inj stepped
      exact inv.changeApp here
    case h_10 here =>
      split at stepped
      · obtain rfl := Option.some.inj stepped
        refine inv.next outside (by simp [here]) ⟨rfl, rfl⟩ inv.knows inv.lived ?_ ?_ ?_
        · exact fun set _ _ others => inv.served set (by simp [here]) (by simp [here]) others
        · simp [ControlLoop.goto, ControlPoint.Before]
        · simp [ControlLoop.goto, ControlPoint.After]
      · obtain rfl := Option.some.inj stepped
        apply goto <;> simp [here, ControlPoint.Before, ControlPoint.After]
    case h_11 here =>
      obtain rfl := Option.some.inj stepped
      refine inv.next outside (by simp [here]) ⟨rfl, rfl⟩ inv.knows inv.lived ?_ ?_ ?_
      · exact fun _ _ away _ => absurd rfl away
      · simp [ControlLoop.goto, ControlPoint.Before]
      · simp [ControlLoop.goto, ControlPoint.After]
    case h_12 here =>
      obtain rfl := Option.some.inj stepped
      refine inv.next outside (by simp [here]) ⟨rfl, rfl⟩ inv.knows inv.lived ?_ ?_ ?_
      · exact fun unset => absurd unset (by simp [ControlLoop.goto])
      · simp [ControlLoop.goto, ControlPoint.Before]
      · simp [ControlLoop.goto, ControlPoint.After]
    case h_13 here =>
      obtain rfl := Option.some.inj stepped
      obtain ⟨app, stopped⟩ := inv.after (.inl here)
      exact {
        knows := inv.knows
        lived := inv.lived
        served := fun set _ _ others => inv.served set (by simp [here]) (by simp [here]) others
        before := fun _ => app
        after := fun _ => ⟨app, stopped⟩
        running := fun _ => .inr rfl
        waited := fun _ => ⟨stopped, .inr rfl⟩ }
    case h_14 => simp at stepped
    case h_15 => simp at stepped

theorem Inv.step [DecidableEq ι] (inv : Inv lib s) {action : ControlAction α ι}
    (stepped : s.step lib action = some t) : Inv lib t := by
  cases action with
  | control answer => exact inv.controlStep stepped
  | assignNewApp i newApp =>
    obtain ⟨-, stepped⟩ := Option.ite_none_right_eq_some.mp stepped
    obtain rfl := Option.some.inj stepped
    refine inv.other rfl rfl rfl rfl id ?_ .inl
    exact fun _ _ _ others => absurd (Function.update_self ..) (others i)
  | setNewApp i =>
    obtain ⟨-, stepped⟩ := Option.ite_none_right_eq_some.mp stepped
    obtain rfl := Option.some.inj stepped
    exact inv.other rfl rfl rfl rfl id (fun unset => absurd unset (by simp [caller])) .inl
  | stop i =>
    obtain ⟨idle, stepped⟩ := Option.ite_none_right_eq_some.mp stepped
    obtain rfl := Option.some.inj stepped
    refine inv.other rfl rfl rfl rfl (fun _ => rfl) ?_ .inl
    intro unset changing stopSet others
    refine inv.served unset changing stopSet fun j => ?_
    by_cases same : j = i
    · simp [same, idle]
    · simpa [caller, same] using others j
  | stopApp i =>
    obtain ⟨-, stepped⟩ := Option.ite_none_right_eq_some.mp stepped
    obtain rfl := Option.some.inj stepped
    refine inv.other rfl rfl rfl rfl id ?_ .inl
    exact fun _ _ _ others => absurd (Function.update_self ..) (others i)
  | waitForKernelStop i =>
    obtain ⟨⟨-, stopped, flag⟩, stepped⟩ := Option.ite_none_right_eq_some.mp stepped
    obtain rfl := Option.some.inj stepped
    exact inv.other rfl rfl rfl rfl id inv.served fun _ => .inr ⟨stopped, flag⟩

/-! ## Runs -/

variable [DecidableEq ι]

/-- The control thread is out of its loop, or a wait for the end of the kernel has returned. -/
def Ended (s : ControlLoop φ α δ σ ι) : Prop := s.point = .left ∨ s.waited = true

omit [DecidableEq φ] [DecidableEq α] [DecidableEq δ] [DecidableEq σ] [DecidableEq ι] in
theorem Inv.app_of_ended (inv : Inv lib s) (ended : Ended s) : s.kernel.mApp = none := by
  rcases ended with here | returned
  · exact (inv.after (.inr here)).1
  · rcases (inv.waited returned).2 with outside | here
    · exact inv.before outside
    · exact (inv.after (.inr here)).1

theorem Inv.step_ended (inv : Inv lib s) (ended : Ended s) {action : ControlAction α ι}
    (stepped : s.step lib action = some t) : Ended t ∧ t.calls = s.calls := by
  -- the control thread has left its loop, or it does not come into it any more
  have outside : s.point = .left ∨ ControlPoint.Before s.point ∧ s.waited = true := by
    rcases ended with here | returned
    · exact .inl here
    · exact (inv.waited returned).2.symm.imp_right fun before => ⟨before, returned⟩
  cases action with
  | control answer =>
    rcases outside with here | ⟨here | here, returned⟩
    · simp [ControlLoop.step, ControlLoop.controlStep, here] at stepped
    · simp only [ControlLoop.step, ControlLoop.controlStep, here, Option.some.injEq] at stepped
      subst stepped
      exact ⟨.inr returned, rfl⟩
    · simp only [ControlLoop.step, ControlLoop.controlStep, here, (inv.waited returned).1, if_true,
        Option.some.injEq] at stepped
      subst stepped
      exact ⟨.inl rfl, rfl⟩
  | assignNewApp i newApp | setNewApp i | stop i | stopApp i =>
    obtain ⟨-, stepped⟩ := Option.ite_none_right_eq_some.mp stepped
    obtain rfl := Option.some.inj stepped
    exact ⟨ended, rfl⟩
  | waitForKernelStop i =>
    obtain ⟨-, stepped⟩ := Option.ite_none_right_eq_some.mp stepped
    obtain rfl := Option.some.inj stepped
    exact ⟨.inr rfl, rfl⟩

/-- In every interleaving, applications are started, run for whole frames and exited one after the
other. When the control thread has left its loop, or a wait for the end of the kernel has returned,
each of them has exited, and none is called from then on. -/
theorem applications_live (lib : AppLibrary α δ σ) (fixed : List φ)
    (actions later : List (ControlAction α ι)) (s t : ControlLoop φ α δ σ ι)
    (reached : run (step lib) (initial fixed) actions = some s)
    (goesOn : run (step lib) s later = some t) :
    Lived lib (s.calls.filter ControlCall.ofApp) s.kernel.mApp ∧
      (Ended s → t.kernel.mApp = none ∧ t.calls = s.calls) := by
  have inv : Inv lib s :=
    run_invariant (Inv lib) (fun _ _ _ inv stepped => inv.step stepped) (inv_initial fixed) reached
  refine ⟨inv.lived, fun ended => ?_⟩
  obtain ⟨after, still, calls⟩ :=
    run_invariant (fun u => Inv lib u ∧ Ended u ∧ u.calls = s.calls) (by
      rintro u action v ⟨inv, ended, calls⟩ stepped
      obtain ⟨still, same⟩ := inv.step_ended ended stepped
      exact ⟨inv.step stepped, still, same.trans calls⟩) ⟨inv, ended, rfl⟩ goesOn
  exact ⟨after.app_of_ended still, calls⟩

/-- One application is set, runs one frame and is asked to stop. -/
def oneFrame : List (ControlAction Bool Unit) :=
  [.control false, .control false, .assignNewApp () (some true), .setNewApp ()] ++
    [true, false, false, false, true, false, false, false, true, false, false].map .control ++
    [.stop (), .stopApp (), .setNewApp ()]

/-- The steps that end the kernel. -/
def oneEnd : List (ControlAction Bool Unit) := (List.replicate 10 false).map .control

theorem applications_live_frame :
    ∃ s t : ControlLoop Unit Bool Bool Bool Unit,
      run (step Kernel.twoApps) (initial [()]) (oneFrame ++ oneEnd) = some s ∧
      run (step Kernel.twoApps) s [.waitForKernelStop ()] = some t ∧
      Lived Kernel.twoApps (s.calls.filter ControlCall.ofApp) none ∧
      s.calls.filter ControlCall.ofApp = [.change (.init true), .change (.apiInit true)] ++
        frameCalls true true true ++ [.change (.exit true)] ∧ t.calls = s.calls := by
  obtain ⟨s, t, reached, goesOn, point, app, calls⟩ :
      ∃ s t : ControlLoop Unit Bool Bool Bool Unit,
        run (step Kernel.twoApps) (initial [()]) (oneFrame ++ oneEnd) = some s ∧
        run (step Kernel.twoApps) s [.waitForKernelStop ()] = some t ∧ s.point = .left ∧
        s.kernel.mApp = none ∧
        s.calls.filter ControlCall.ofApp = [.change (.init true), .change (.apiInit true)] ++
          frameCalls true true true ++ [.change (.exit true)] :=
    ⟨_, _, rfl, rfl, rfl, rfl, rfl⟩
  obtain ⟨lived, after⟩ :=
    applications_live Kernel.twoApps [()] _ [.waitForKernelStop ()] s t reached goesOn
  rw [app] at lived
  exact ⟨s, t, reached, goesOn, lived, calls, (after (.inl point)).2⟩

/-- No request is lost: when no thread is between its two writes, the kernel runs the application
that was asked for last, or it still has the request. -/
theorem requests_served (lib : AppLibrary α δ σ) (fixed : List φ)
    (actions : List (ControlAction α ι)) (s : ControlLoop φ α δ σ ι)
    (reached : run (step lib) (initial fixed) actions = some s)
    (others : ∀ i, s.callers i ≠ .assigned) (control : s.point ≠ .changing ∧ s.point ≠ .stopSet) :
    s.kernel.mApp = s.mNewApp ∨ s.mNewAppSet = true := by
  have inv : Inv lib s :=
    run_invariant (Inv lib) (fun _ _ _ inv stepped => inv.step stepped) (inv_initial fixed) reached
  cases set : s.mNewAppSet with
  | false => exact .inl (inv.served set control.1 control.2 others)
  | true => exact .inr rfl

/-- The request of the run above waits for the control thread. -/
theorem requests_served_frame :
    ∃ s : ControlLoop Unit Bool Bool Bool Unit,
      run (step Kernel.twoApps) (initial [()]) oneFrame = some s ∧
      (s.kernel.mApp = s.mNewApp ∨ s.mNewAppSet = true) ∧ s.kernel.mApp ≠ s.mNewApp := by
  obtain ⟨s, reached, idle, control, apart⟩ : ∃ s : ControlLoop Unit Bool Bool Bool Unit,
      run (step Kernel.twoApps) (initial [()]) oneFrame = some s ∧ s.callers () ≠ .assigned ∧
      (s.point ≠ .changing ∧ s.point ≠ .stopSet) ∧ s.kernel.mApp ≠ s.mNewApp :=
    ⟨_, rfl, by decide, by decide, by decide⟩
  exact ⟨s, reached, requests_served Kernel.twoApps [()] oneFrame s reached (fun _ => idle) control,
    apart⟩

/-! ## The pointer that is read twice -/

/-- No other thread takes the new application away when the control thread, having found one, is to
ask it for its dependencies. -/
def LetsAsk (s : ControlLoop φ α δ σ ι) (action : ControlAction α ι) : Prop :=
  s.point = .depSatisfied → ∀ i, action ≠ .assignNewApp i none ∧ action ≠ .stopApp i

omit [DecidableEq ι] in
/-- A step of the control thread into an asking or a crash. -/
theorem Inv.control_asks (inv : Inv lib s) {answer : Bool}
    (safe : s.point ≠ .crashed ∧ (s.point = .depSatisfied → s.mNewApp ≠ none))
    (stepped : s.controlStep lib answer = some t) :
    t.point ≠ .crashed ∧ (t.point = .depSatisfied → t.mNewApp ≠ none) := by
  cases here : s.point with
  | frame call_app =>
    cases call_app with
    | false =>
      simp only [ControlLoop.controlStep, here, Bool.false_eq_true, if_false,
        Option.some.injEq] at stepped
      subst stepped
      simp [ControlLoop.goto]
    | true =>
      simp only [ControlLoop.controlStep, here, if_true, Option.some.injEq] at stepped
      subst stepped
      simp [(inv.frame here).2]
  | newAppSet =>
    simp only [ControlLoop.controlStep, here, Option.some.injEq] at stepped
    subst stepped
    by_cases none' : s.mNewApp = none
    · simp [ControlLoop.goto, none']
    · simp [ControlLoop.goto, none']
  | depSatisfied =>
    obtain ⟨a, asked⟩ := Option.ne_none_iff_exists'.mp (safe.2 here)
    simp only [ControlLoop.controlStep, here, asked, Option.some.injEq] at stepped
    subst stepped
    cases answer <;> simp [ControlLoop.goto]
  | starting | loop =>
    simp only [ControlLoop.controlStep, here] at stepped
    split at stepped <;> (obtain rfl := Option.some.inj stepped; simp [ControlLoop.goto])
  | reconfig =>
    simp only [ControlLoop.controlStep, here, Option.some.injEq] at stepped
    subst stepped
    cases s.mNewAppSet <;> simp [ControlLoop.goto]
  | signalButtons =>
    simp only [ControlLoop.controlStep, here] at stepped
    split at stepped <;> (obtain rfl := Option.some.inj stepped; simp [ControlLoop.goto])
  | unstarted | satisfied | changing | stop | stopSet | leaving =>
    simp only [ControlLoop.controlStep, here, Option.some.injEq] at stepped
    subst stepped
    simp [ControlLoop.goto]
  | left | crashed => simp [ControlLoop.controlStep, here] at stepped

/-- The kernel does not crash but when another thread takes the new application away between the two
times that it is read; a frame finds both managers. -/
theorem never_crashes (lib : AppLibrary α δ σ) (fixed : List φ) (actions : List (ControlAction α ι))
    (s : ControlLoop φ α δ σ ι) (reached : run (step lib) (initial fixed) actions = some s)
    (letsAsk : Meets (step lib) LetsAsk (initial fixed) actions) : s.point ≠ .crashed := by
  have safe := run_invariant_of_meets
    (fun s : ControlLoop φ α δ σ ι => Inv lib s ∧
      s.point ≠ .crashed ∧ (s.point = .depSatisfied → s.mNewApp ≠ none)) LetsAsk (by
    rintro s action t ⟨inv, safe⟩ lets stepped
    refine ⟨inv.step stepped, ?_⟩
    cases action with
    | control answer => exact inv.control_asks safe stepped
    | assignNewApp i newApp =>
      obtain ⟨-, stepped⟩ := Option.ite_none_right_eq_some.mp stepped
      obtain rfl := Option.some.inj stepped
      refine ⟨safe.1, fun here none' => (lets here i).1 ?_⟩
      rw [show newApp = none from none']
    | stopApp i =>
      obtain ⟨-, stepped⟩ := Option.ite_none_right_eq_some.mp stepped
      obtain rfl := Option.some.inj stepped
      exact ⟨safe.1, fun here => absurd rfl (lets here i).2⟩
    | setNewApp i | stop i | waitForKernelStop i =>
      obtain ⟨-, stepped⟩ := Option.ite_none_right_eq_some.mp stepped
      obtain rfl := Option.some.inj stepped
      exact safe)
    ⟨inv_initial fixed, by simp [initial], by simp [initial]⟩ letsAsk reached
  exact safe.2.1

/-- An application is found and asked. -/
theorem never_crashes_asked :
    let asked : List (ControlAction Bool Unit) :=
      [.control false, .control false, .assignNewApp () (some true), .setNewApp (),
        .control true, .control false, .control false, .control false, .control true]
    ∃ s : ControlLoop Unit Bool Bool Bool Unit,
      run (step Kernel.twoApps) (initial [()]) asked = some s ∧ s.point = .satisfied ∧
        s.point ≠ .crashed := by
  intro asked
  obtain ⟨s, reached, point⟩ : ∃ s : ControlLoop Unit Bool Bool Bool Unit,
      run (step Kernel.twoApps) (initial [()]) asked = some s ∧ s.point = .satisfied :=
    ⟨_, rfl, rfl⟩
  have kept : ∀ o ∈ asked, o ≠ .assignNewApp () none ∧ o ≠ .stopApp () := by decide
  refine ⟨s, reached, point, never_crashes Kernel.twoApps [()] asked s reached ?_⟩
  exact meets_iff_forall.mpr fun front o t u part _ _ _ _ => kept o (part.subset (by simp))

/-! ## Stopping -/

/-- The kernel was stopped, the last application that was asked for is none, and no thread is
between its two writes. -/
structure Stopped (s : ControlLoop φ α δ σ ι) : Prop where
  flag : s.mExitFlag = true
  newApp : s.mNewApp = none
  others : ∀ i, s.callers i ≠ .assigned
  /-- the null pointer was not written while the control thread was to ask it -/
  inside : s.point ≠ .unstarted ∧ s.point ≠ .depSatisfied ∧ s.point ≠ .crashed

/-- The steps that are left to the control thread of a stopped kernel, at most. -/
def stepsLeft (s : ControlLoop φ α δ σ ι) : Nat :=
  match s.point with
  | .left | .unstarted | .depSatisfied | .crashed => 0
  | .leaving | .starting => 1
  | .loop => if s.kernel.mApp = none then 2 else 11
  | .stopSet => if s.kernel.mApp = none then 3 else 12
  | .stop => if s.kernel.mApp = none then 4 else 13
  | .signalButtons => if s.kernel.mApp = none then 5 else 14
  | .changing => 6
  | .satisfied => 7
  | .newAppSet => 8
  | .reconfig => 9
  | .frame _ => 10

omit [DecidableEq φ] [DecidableEq α] [DecidableEq δ] [DecidableEq σ] [DecidableEq ι] in
/-- A frame leaves the requests as they are. -/
theorem frame_keeps (s : ControlLoop φ α δ σ ι) : s.frame.mExitFlag = s.mExitFlag ∧
    s.frame.mNewApp = s.mNewApp ∧ s.frame.callers = s.callers := by
  unfold frame
  split <;> exact ⟨rfl, rfl, rfl⟩

omit [DecidableEq ι] in
/-- The control thread goes on, and comes nearer to its end. -/
theorem Stopped.next (inv : Inv lib s) (stopped : Stopped s) (open' : s.point ≠ .left)
    (answer : Bool) : ∃ t, s.controlStep lib answer = some t ∧ Inv lib t ∧ Stopped t ∧
      t.stepsLeft < s.stepsLeft := by
  have goes (t : ControlLoop φ α δ σ ι) (stepped : s.controlStep lib answer = some t)
      (flag : t.mExitFlag = true) (newApp : t.mNewApp = none) (others : t.callers = s.callers)
      (inside : t.point ≠ .unstarted ∧ t.point ≠ .depSatisfied ∧ t.point ≠ .crashed)
      (fewer : t.stepsLeft < s.stepsLeft) : ∃ t, s.controlStep lib answer = some t ∧ Inv lib t ∧
        Stopped t ∧ t.stepsLeft < s.stepsLeft :=
    ⟨t, stepped, inv.controlStep stepped, ⟨flag, newApp, by rw [others]; exact stopped.others,
      inside⟩, fewer⟩
  obtain ⟨flag, newApp, others, inside⟩ := stopped
  cases here : s.point with
  | unstarted => exact absurd here inside.1
  | depSatisfied => exact absurd here inside.2.1
  | crashed => exact absurd here inside.2.2
  | left => exact absurd here open'
  | starting =>
    refine goes ({ s with mIsRunning := false }.goto .left)
      (by simp [controlStep, here, flag]) flag newApp rfl ?_ ?_ <;>
      simp [ControlLoop.goto, stepsLeft, here]
  | loop =>
    by_cases app : s.kernel.mApp = none
    · refine goes (s.goto .leaving) (by simp [controlStep, here, flag, app]) flag newApp rfl ?_ ?_
        <;> simp [ControlLoop.goto, stepsLeft, here, app]
    · refine goes (s.goto (.frame answer)) (by simp [controlStep, here, app]) flag newApp rfl ?_ ?_
        <;> simp [ControlLoop.goto, stepsLeft, here, app]
  | frame call_app =>
    cases call_app with
    | false =>
      refine goes (s.goto .reconfig) (by simp [controlStep, here]) flag newApp rfl ?_ ?_ <;>
        simp [ControlLoop.goto, stepsLeft, here]
    | true =>
      have point := (inv.frame here).2
      obtain ⟨sameFlag, sameApp, sameCallers⟩ := frame_keeps s
      refine goes s.frame (by simp [controlStep, here]) (sameFlag.trans flag)
        (sameApp.trans newApp) sameCallers ?_ ?_ <;> simp [stepsLeft, point, here]
  | reconfig =>
    cases set : s.mNewAppSet with
    | true =>
      refine goes (s.goto .newAppSet) (by simp [controlStep, here, set]) flag newApp rfl ?_ ?_ <;>
        simp [ControlLoop.goto, stepsLeft, here]
    | false =>
      -- the request was served
      have app := (inv.served set (by simp [here]) (by simp [here]) others).trans newApp
      refine goes (s.goto .signalButtons) (by simp [controlStep, here, set]) flag newApp rfl ?_ ?_
        <;> simp [ControlLoop.goto, stepsLeft, here, app]
  | newAppSet =>
    refine goes (s.goto .satisfied) (by simp [controlStep, here, newApp]) flag newApp rfl ?_ ?_ <;>
      simp [ControlLoop.goto, stepsLeft, here]
  | satisfied =>
    refine goes ({ s with mNewAppSet := false }.goto .changing) (by simp [controlStep, here]) flag
      newApp rfl ?_ ?_ <;> simp [ControlLoop.goto, stepsLeft, here]
  | changing =>
    have app := (Kernel.knows_changeApplication inv.knows s.mNewApp).2.1.trans newApp
    refine goes ((s.changeApp lib s.mNewApp).goto .signalButtons) (by simp [controlStep, here]) flag
      newApp rfl ?_ ?_ <;> simp [ControlLoop.goto, stepsLeft, here, changeApp, app]
  | signalButtons =>
    cases answer with
    | true =>
      refine goes ({ s with mExitFlag := true }.goto .stop) (by simp [controlStep, here]) rfl newApp
        rfl ?_ ?_
      · simp [ControlLoop.goto]
      · by_cases app : s.kernel.mApp = none <;> simp [ControlLoop.goto, stepsLeft, here, app]
    | false =>
      refine goes (s.goto .loop) (by simp [controlStep, here]) flag newApp rfl ?_ ?_
      · simp [ControlLoop.goto]
      · by_cases app : s.kernel.mApp = none <;> simp [ControlLoop.goto, stepsLeft, here, app]
  | stop =>
    refine goes ({ s with mNewApp := none }.goto .stopSet) (by simp [controlStep, here]) flag rfl
      rfl ?_ ?_
    · simp [ControlLoop.goto]
    · by_cases app : s.kernel.mApp = none <;> simp [ControlLoop.goto, stepsLeft, here, app]
  | stopSet =>
    refine goes ({ s with mNewAppSet := true }.goto .loop) (by simp [controlStep, here]) flag newApp
      rfl ?_ ?_
    · simp [ControlLoop.goto]
    · by_cases app : s.kernel.mApp = none <;> simp [ControlLoop.goto, stepsLeft, here, app]
  | leaving =>
    refine goes ({ s with mIsRunning := false }.goto .left) (by simp [controlStep, here]) flag
      newApp rfl ?_ ?_ <;> simp [ControlLoop.goto, stepsLeft, here]

end ControlLoop

end VRJuggler.Vrj
