import Mathlib.Data.List.Nodup
import Mathlib.Logic.Function.Basic
import VRJuggler.Base.Run
import VRJuggler.Draw.DrawManager

/-!
# The windows of a pipe

`addWindow` puts a window on the list of those to open, `removeWindow` on the list of those to
close, and the thread of the pipe moves it from one list to the next at the end of every round of
`controlLoop`. `stop` asks for all open windows to be closed, sets the exit flag and triggers a
last frame. The lists have locks, so that a call and a look at the lists do not overlap; between
them the threads take their steps in any order.

The loop tests its exit flag at one place. It closes a window without a look whether it has been
opened, whether it has been closed already and whether its context has been initialised.
-/
namespace VRJuggler.Draw.PipeWindows

/-- Where the thread of the pipe is: as in a pipe without windows, and beyond the loop. -/
inductive Place where
  | starting
  | head
  | awaitRender
  | rendering
  | awaitSwap
  | swapping
  | closing
  | opening
  | left
  | ended
  deriving DecidableEq, Repr

/-- Where the call of `stop` is; the windows that it still has to remove. -/
inductive Stop (ω : Type) where
  | notCalled
  | removing (windows : List ω)
  | triggerRender
  | triggerSwap
  | join
  | returned
  deriving DecidableEq, Repr

/-- What happens to windows; `opens` tells whether the window could be opened. -/
inductive Event (ω : Type) where
  | addWindow (win : ω)
  | removeWindow (win : ω)
  | open (win : ω) (opens : Bool)
  | contextInit (win : ω)
  | draw (win : ω)
  | contextClose (win : ω)
  | close (win : ω)
  deriving DecidableEq, Repr

structure State (ω : Type) where
  mThreadRunning : Bool
  mControlExit : Bool
  mNewWins : List ω
  mOpenWins : List ω
  mClosingWins : List ω
  mRenderTriggerSema : Nat
  mRenderCompleteSema : Nat
  mSwapTriggerSema : Nat
  mSwapCompleteSema : Nat
  /-- `hasDirtyContext` of every window. -/
  hasDirtyContext : ω → Bool
  place : Place
  stop : Stop ω
  log : List (Event ω)

/-- A step of the pipe's thread, a call for windows, a step of `stop`, or one of the calls that
the manager makes in a frame. -/
inductive Act (ω : Type) where
  | addWindow (win : ω)
  | removeWindow (win : ω)
  | stop
  | controlLoop (ready : Bool) (opens : ω → Bool)
  | triggerRender
  | completeRender
  | triggerSwap
  | completeSwap

namespace State

variable {ω : Type} [DecidableEq ω]

def create : State ω where
  mThreadRunning := false
  mControlExit := false
  mNewWins := []
  mOpenWins := []
  mClosingWins := []
  mRenderTriggerSema := 0
  mRenderCompleteSema := 0
  mSwapTriggerSema := 0
  mSwapCompleteSema := 0
  hasDirtyContext _ := true
  place := .starting
  stop := .notCalled
  log := []

def note (event : Event ω) (s : State ω) : State ω := { s with log := s.log ++ [event] }

def addWindow (win : ω) (s : State ω) : State ω :=
  { s with mNewWins := s.mNewWins ++ [win] }.note (.addWindow win)

def removeWindow (win : ω) (s : State ω) : State ω :=
  { s with mClosingWins := s.mClosingWins ++ [win] }.note (.removeWindow win)

/-- `triggerRender` waits as long as the thread of the pipe is not running. -/
def triggerRender (s : State ω) : Option (State ω) :=
  if s.mThreadRunning then
    some { s with mRenderTriggerSema := release s.mRenderTriggerSema }
  else none

def completeRender (s : State ω) : Option (State ω) :=
  (acquire s.mRenderCompleteSema).map fun count => { s with mRenderCompleteSema := count }

def triggerSwap (s : State ω) : State ω :=
  { s with mSwapTriggerSema := release s.mSwapTriggerSema }

def completeSwap (s : State ω) : Option (State ω) :=
  (acquire s.mSwapCompleteSema).map fun count => { s with mSwapCompleteSema := count }

/-! ### The thread of the pipe -/

/-- A new context is initialised before the window is drawn. -/
def renderWindow (s : State ω) (win : ω) : State ω :=
  (if s.hasDirtyContext win then
    { s with hasDirtyContext := Function.update s.hasDirtyContext win false }.note
      (.contextInit win)
  else s).note (.draw win)

/-- What `checkForWindowsToClose` does with one window. -/
def closeWindow (s : State ω) (win : ω) : State ω :=
  ({ s with
    mNewWins := s.mNewWins.filter (· ≠ win)
    mOpenWins := s.mOpenWins.filter (· ≠ win) }.note (.contextClose win)).note (.close win)

def checkForWindowsToClose (s : State ω) : State ω :=
  { s.mClosingWins.foldl closeWindow s with mClosingWins := [] }

/-- What `checkForNewWindows` does with one window. -/
def openWindow (opens : ω → Bool) (s : State ω) (win : ω) : State ω :=
  { s with
    mOpenWins := if opens win then s.mOpenWins ++ [win] else s.mOpenWins }.note
      (.open win (opens win))

def checkForNewWindows (opens : ω → Bool) (s : State ω) : State ω :=
  { s.mNewWins.foldl (openWindow opens) s with mNewWins := [] }

/-- One step of `controlLoop`. `ready` is false if the cluster is active and not yet ready: then
nothing is rendered in this round. -/
def controlLoop (ready : Bool) (opens : ω → Bool) (s : State ω) : Option (State ω) :=
  match s.place with
  | .starting => some { s with mThreadRunning := true, place := .head }
  | .head =>
    if s.mControlExit then some { s with place := .left }
    else some { s with place := if ready then .awaitRender else .closing }
  | .awaitRender => (acquire s.mRenderTriggerSema).map fun count =>
      { s with mRenderTriggerSema := count, place := .rendering }
  | .rendering =>
    let s := s.mOpenWins.foldl renderWindow s
    some { s with mRenderCompleteSema := release s.mRenderCompleteSema, place := .awaitSwap }
  | .awaitSwap => (acquire s.mSwapTriggerSema).map fun count =>
      { s with mSwapTriggerSema := count, place := .swapping }
  | .swapping =>
    some { s with mSwapCompleteSema := release s.mSwapCompleteSema, place := .closing }
  | .closing => some { s.checkForWindowsToClose with place := .opening }
  | .opening => some { s.checkForNewWindows opens with place := .head }
  | .left => some { s with mThreadRunning := false, place := .ended }
  | .ended => none

/-- One step of `stop`, which starts with a copy of the list of open windows. -/
def stopStep (s : State ω) : Option (State ω) :=
  match s.stop with
  | .notCalled => some { s with stop := .removing s.mOpenWins }
  | .removing (win :: windows) => some { s.removeWindow win with stop := .removing windows }
  | .removing [] => some { s with mControlExit := true, stop := .triggerRender }
  | .triggerRender => s.triggerRender.map fun s => { s with stop := .triggerSwap }
  | .triggerSwap => some { s.triggerSwap with stop := .join }
  | .join => if s.place = .ended then some { s with stop := .returned } else none
  | .returned => none

def step (s : State ω) : Act ω → Option (State ω)
  | .addWindow win => some (s.addWindow win)
  | .removeWindow win => some (s.removeWindow win)
  | .stop => s.stopStep
  | .controlLoop ready opens => s.controlLoop ready opens
  | .triggerRender => s.triggerRender
  | .completeRender => s.completeRender
  | .triggerSwap => some s.triggerSwap
  | .completeSwap => s.completeSwap

/-! ## The life of a window -/

/-- Before each drawing and each closing of a context is its initialisation. -/
def InitialisedFirst (log : List (Event ω)) : Prop :=
  ∀ front win back, log = front ++ .draw win :: back ∨ log = front ++ .contextClose win :: back →
    .contextInit win ∈ front

structure LifeCycle (s : State ω) : Prop where
  openedOnce : ∀ win, s.log.count (.open win true) + s.log.count (.open win false) ≤ 1
  initialisedFirst : InitialisedFirst s.log
  contextClosed : ∀ win, s.log.count (.contextClose win) ≤ s.log.count (.open win true)
  closed : ∀ win, s.log.count (.close win) ≤ s.log.count (.open win true)
  /-- When `stop` has returned, everything that was opened has been closed. -/
  returned : s.stop = .returned → s.mOpenWins = [] ∧ ∀ win,
    s.log.count (.contextClose win) = s.log.count (.open win true) ∧
      s.log.count (.close win) = s.log.count (.open win true)
  /-- `stop` does not wait for a thread that has gone. -/
  waits : ¬ (s.stop = .triggerRender ∧ s.place = .ended)

/-- When the thread of the pipe is to take its next step. -/
def OrderlyAt (s : State ω) : Place → Prop
  -- the windows to close are open, once, and have been rendered
  | .closing => s.mClosingWins.Nodup ∧
      ∀ win ∈ s.mClosingWins, win ∈ s.mOpenWins ∧ s.hasDirtyContext win = false
  -- the last round has closed all windows, and none was opened behind the back of `stop`
  | .head => s.mControlExit = true →
      (∀ win ∈ s.mOpenWins, .removeWindow win ∈ s.log) ∧
        ∀ win ∈ s.mClosingWins, win ∉ s.mOpenWins
  -- `stop` has seen that the thread is running
  | .left => s.stop ≠ .triggerRender
  | _ => True

/-- What the callers and the order of the steps have to see to. -/
def Orderly (s : State ω) : Act ω → Prop
  -- every window is new
  | .addWindow win => .addWindow win ∉ s.log
  | .controlLoop _ _ => s.OrderlyAt s.place
  | _ => True

instance (s : State ω) : (place : Place) → Decidable (s.OrderlyAt place)
  | .closing => inferInstanceAs (Decidable (_ ∧ _))
  | .head => inferInstanceAs (Decidable (_ → _))
  | .left => inferInstanceAs (Decidable (_ ≠ _))
  | .starting | .awaitRender | .rendering | .awaitSwap | .swapping | .opening | .ended =>
    isTrue trivial

instance (s : State ω) : (a : Act ω) → Decidable (s.Orderly a)
  | .addWindow win => inferInstanceAs (Decidable (.addWindow win ∉ s.log))
  | .controlLoop _ _ => inferInstanceAs (Decidable (s.OrderlyAt s.place))
  | .removeWindow _ | .stop | .triggerRender | .completeRender | .triggerSwap | .completeSwap =>
    isTrue trivial

/-! ## What has become of the windows -/

omit [DecidableEq ω] in
theorem initialisedFirst_snoc {log : List (Event ω)} {event : Event ω}
    (first : InitialisedFirst log)
    (initialised : ∀ win, event = .draw win ∨ event = .contextClose win →
      .contextInit win ∈ log) : InitialisedFirst (log ++ [event]) := by
  intro front win back parts
  rcases List.eq_nil_or_concat back with rfl | ⟨rest, last, rfl⟩
  · -- the last event of the log
    have ends (e : Event ω) (whole : log ++ [event] = front ++ [e]) : log = front ∧ event = e := by
      obtain ⟨same, last⟩ := List.append_inj' whole rfl
      exact ⟨same, List.singleton_inj.mp last⟩
    rcases parts with drawn | closed
    · obtain ⟨rfl, same⟩ := ends _ drawn
      exact initialised win (Or.inl same)
    · obtain ⟨rfl, same⟩ := ends _ closed
      exact initialised win (Or.inr same)
  · -- an event before it
    have earlier (e : Event ω)
        (whole : log ++ [event] = front ++ e :: rest.concat last) : log = front ++ e :: rest := by
      rw [List.concat_eq_append, ← List.cons_append, ← List.append_assoc] at whole
      exact (List.append_inj' whole rfl).1
    exact first front win rest (parts.imp (earlier _) (earlier _))

/-- The lists of a pipe, the contexts of its windows and what has happened to them. A window that
has been opened is open or has been closed; one that was to be closed waits for it or has been
closed. -/
structure Windows (mNewWins mOpenWins mClosingWins : List ω) (hasDirtyContext : ω → Bool)
    (log : List (Event ω)) : Prop where
  attempts : ∀ win, log.count (.open win true) + log.count (.open win false) ≤ 1
  added : ∀ win opens, .open win opens ∈ log → .addWindow win ∈ log
  fresh : ∀ win ∈ mNewWins, .addWindow win ∈ log ∧ ∀ opens, .open win opens ∉ log
  newOnce : mNewWins.Nodup
  opened : ∀ win, log.count (.open win true) =
    log.count (.close win) + if win ∈ mOpenWins then 1 else 0
  contextClosed : ∀ win, log.count (.contextClose win) = log.count (.close win)
  initialised : ∀ win, hasDirtyContext win = false → .contextInit win ∈ log
  initialisedFirst : InitialisedFirst log
  asked : ∀ win, .removeWindow win ∈ log → win ∈ mClosingWins ∨ .close win ∈ log

namespace Windows

variable {mNewWins mOpenWins mClosingWins : List ω} {hasDirtyContext : ω → Bool}
  {log : List (Event ω)} {win : ω}

theorem create : Windows (ω := ω) [] [] [] (fun _ => true) [] where
  attempts _ := Nat.zero_le _
  added _ _ there := nomatch there
  fresh _ there := nomatch there
  newOnce := .nil
  opened _ := rfl
  contextClosed _ := rfl
  initialised _ clean := nomatch clean
  initialisedFirst front win back parts := by
    rcases parts with parts | parts
    · exact absurd parts (by simp)
    · exact absurd parts (by simp)
  asked _ there := nomatch there

theorem addWindow (h : Windows mNewWins mOpenWins mClosingWins hasDirtyContext log)
    (new : .addWindow win ∉ log) :
    Windows (mNewWins ++ [win]) mOpenWins mClosingWins hasDirtyContext
      (log ++ [.addWindow win]) where
  attempts other := by simpa using h.attempts other
  added other opens there := by
    rw [List.mem_append] at there ⊢
    rcases there with there | there
    · exact Or.inl (h.added other opens there)
    · simp at there
  fresh other there := by
    rcases List.mem_append.mp there with old | last
    · obtain ⟨added, unopened⟩ := h.fresh other old
      exact ⟨List.mem_append_left _ added, by simpa using unopened⟩
    · obtain rfl := List.mem_singleton.mp last
      refine ⟨by simp, fun opens => ?_⟩
      have unopened : .open other opens ∉ log := fun there => new (h.added other opens there)
      simpa using unopened
  newOnce := by
    rw [List.nodup_append]
    refine ⟨h.newOnce, List.nodup_singleton win, ?_⟩
    rintro other old last here rfl
    obtain rfl := List.mem_singleton.mp here
    exact new (h.fresh other old).1
  opened other := by simpa using h.opened other
  contextClosed other := by simpa using h.contextClosed other
  initialised other clean := List.mem_append_left _ (h.initialised other clean)
  initialisedFirst := initialisedFirst_snoc h.initialisedFirst (by simp)
  asked other there := by simpa using h.asked other (by simpa using there)

theorem removeWindow (h : Windows mNewWins mOpenWins mClosingWins hasDirtyContext log) :
    Windows mNewWins mOpenWins (mClosingWins ++ [win]) hasDirtyContext
      (log ++ [.removeWindow win]) where
  attempts other := by simpa using h.attempts other
  added other opens there := by simpa using h.added other opens (by simpa using there)
  fresh other there := by simpa using h.fresh other there
  newOnce := h.newOnce
  opened other := by simpa using h.opened other
  contextClosed other := by simpa using h.contextClosed other
  initialised other clean := List.mem_append_left _ (h.initialised other clean)
  initialisedFirst := initialisedFirst_snoc h.initialisedFirst (by simp)
  asked other there := by
    simp only [List.mem_append, List.mem_singleton, Event.removeWindow.injEq] at there ⊢
    rcases there with there | rfl
    · rcases h.asked other there with waits | closed
      · exact Or.inl (Or.inl waits)
      · exact Or.inr (Or.inl closed)
    · exact Or.inl (Or.inr rfl)

theorem contextInit (h : Windows mNewWins mOpenWins mClosingWins hasDirtyContext log) :
    Windows mNewWins mOpenWins mClosingWins (Function.update hasDirtyContext win false)
      (log ++ [.contextInit win]) where
  attempts other := by simpa using h.attempts other
  added other opens there := by simpa using h.added other opens (by simpa using there)
  fresh other there := by simpa using h.fresh other there
  newOnce := h.newOnce
  opened other := by simpa using h.opened other
  contextClosed other := by simpa using h.contextClosed other
  initialised other clean := by
    by_cases same : other = win
    · simp [same]
    · rw [Function.update_of_ne same] at clean
      exact List.mem_append_left _ (h.initialised other clean)
  initialisedFirst := initialisedFirst_snoc h.initialisedFirst (by simp)
  asked other there := by simpa using h.asked other (by simpa using there)

theorem draw (h : Windows mNewWins mOpenWins mClosingWins hasDirtyContext log)
    (clean : hasDirtyContext win = false) :
    Windows mNewWins mOpenWins mClosingWins hasDirtyContext (log ++ [.draw win]) where
  attempts other := by simpa using h.attempts other
  added other opens there := by simpa using h.added other opens (by simpa using there)
  fresh other there := by simpa using h.fresh other there
  newOnce := h.newOnce
  opened other := by simpa using h.opened other
  contextClosed other := by simpa using h.contextClosed other
  initialised other clean := List.mem_append_left _ (h.initialised other clean)
  initialisedFirst := by
    apply initialisedFirst_snoc h.initialisedFirst
    rintro other (same | same)
    · obtain rfl := Event.draw.inj same
      exact h.initialised win clean
    · cases same
  asked other there := by simpa using h.asked other (by simpa using there)

/-- The next window to be closed. -/
theorem closeNext (h : Windows mNewWins mOpenWins (win :: mClosingWins) hasDirtyContext log)
    (there : win ∈ mOpenWins) (clean : hasDirtyContext win = false) :
    Windows (mNewWins.filter (· ≠ win)) (mOpenWins.filter (· ≠ win)) mClosingWins
      hasDirtyContext (log ++ [.contextClose win] ++ [.close win]) where
  attempts other := by simpa using h.attempts other
  added other opens there := by simpa using h.added other opens (by simpa using there)
  fresh other there := by simpa using h.fresh other (List.mem_of_mem_filter there)
  newOnce := h.newOnce.filter _
  opened other := by
    -- a window that is closed is taken off the list of open windows
    have before := h.opened other
    by_cases same : other = win
    · subst same
      simp [there] at before ⊢
      omega
    · simp [same, Ne.symm same] at before ⊢
      omega
  contextClosed other := by
    have before := h.contextClosed other
    by_cases same : other = win
    · subst same
      simpa using before
    · simpa [Ne.symm same] using before
  initialised other clean :=
    List.mem_append_left _ (List.mem_append_left _ (h.initialised other clean))
  initialisedFirst := by
    apply initialisedFirst_snoc (initialisedFirst_snoc h.initialisedFirst _) (by simp)
    rintro other (same | same)
    · cases same
    · obtain rfl := Event.contextClose.inj same
      exact h.initialised win clean
  asked other there := by
    rcases h.asked other (by simpa using there) with waits | closed
    · rcases List.mem_cons.mp waits with rfl | waits
      · simp
      · exact Or.inl waits
    · simp [closed]

/-- The next window to be opened, which has not been opened before. -/
theorem openNext (h : Windows (win :: mNewWins) mOpenWins mClosingWins hasDirtyContext log)
    (opens : Bool) :
    Windows mNewWins (if opens then mOpenWins ++ [win] else mOpenWins) mClosingWins
      hasDirtyContext (log ++ [.open win opens]) where
  attempts other := by
    -- a window on the list has not been tried before
    have unopened (b : Bool) : log.count (.open win b) = 0 :=
      List.count_eq_zero.mpr ((h.fresh win (List.mem_cons_self ..)).2 b)
    by_cases same : other = win
    · subst same
      cases opens <;> simp [unopened]
    · simpa [Ne.symm same] using h.attempts other
  added other b there := by
    simp only [List.mem_append, List.mem_singleton, Event.open.injEq] at there
    rcases there with there | ⟨rfl, -⟩
    · exact List.mem_append_left _ (h.added other b there)
    · exact List.mem_append_left _ (h.fresh other (List.mem_cons_self ..)).1
  fresh other there := by
    obtain ⟨added, unopened⟩ := h.fresh other (List.mem_cons_of_mem _ there)
    have apart : other ≠ win := by
      rintro rfl
      exact (List.nodup_cons.mp h.newOnce).1 there
    refine ⟨List.mem_append_left _ added, fun b => ?_⟩
    simpa [apart] using unopened b
  newOnce := (List.nodup_cons.mp h.newOnce).2
  opened other := by
    have before := h.opened other
    have unopened : log.count (.open win true) = 0 :=
      List.count_eq_zero.mpr ((h.fresh win (List.mem_cons_self ..)).2 true)
    by_cases same : other = win
    · subst same
      cases opens with
      | true =>
        simp [unopened] at before ⊢
        omega
      | false => simpa using before
    · cases opens with
      | true => simpa [same, Ne.symm same] using before
      | false => simpa [Ne.symm same] using before
  contextClosed other := by simpa using h.contextClosed other
  initialised other clean := List.mem_append_left _ (h.initialised other clean)
  initialisedFirst := initialisedFirst_snoc h.initialisedFirst (by simp)
  asked other there := by simpa using h.asked other (by simpa using there)

end Windows

/-! ### The rounds of the loop -/

variable {s t : State ω}

/-- The windows of a pipe and what has become of them. -/
def Tracked (s : State ω) : Prop :=
  Windows s.mNewWins s.mOpenWins s.mClosingWins s.hasDirtyContext s.log

theorem tracked_renderWindow (tracked : s.Tracked) (win : ω) : (s.renderWindow win).Tracked := by
  unfold renderWindow
  split
  · apply Windows.draw (Windows.contextInit tracked)
    exact Function.update_self ..
  next clean => exact Windows.draw tracked (Bool.eq_false_iff.mpr clean)

theorem tracked_rendering (tracked : s.Tracked) (windows : List ω) :
    (windows.foldl renderWindow s).Tracked := by
  induction windows generalizing s with
  | nil => exact tracked
  | cons win windows ih => exact ih (tracked_renderWindow tracked win)

theorem tracked_closing {windows : List ω}
    (tracked : Tracked { s with mClosingWins := windows }) (once : windows.Nodup)
    (ready : ∀ win ∈ windows, win ∈ s.mOpenWins ∧ s.hasDirtyContext win = false) :
    Tracked { windows.foldl closeWindow s with mClosingWins := [] } := by
  induction windows generalizing s with
  | nil => exact tracked
  | cons win windows ih =>
    obtain ⟨apart, once⟩ := List.nodup_cons.mp once
    obtain ⟨there, clean⟩ := ready win (List.mem_cons_self ..)
    have next : Tracked { s.closeWindow win with mClosingWins := windows } :=
      Windows.closeNext tracked there clean
    apply ih next once
    intro other member
    obtain ⟨shown, clean'⟩ := ready other (List.mem_cons_of_mem _ member)
    -- the windows behind it are still open, since they are others
    have different : other ≠ win := by
      rintro rfl
      exact apart member
    exact ⟨List.mem_filter.mpr ⟨shown, by simpa using different⟩, clean'⟩

theorem tracked_opening (opens : ω → Bool) {windows : List ω}
    (tracked : Tracked { s with mNewWins := windows }) :
    Tracked { windows.foldl (openWindow opens) s with mNewWins := [] } := by
  induction windows generalizing s with
  | nil => exact tracked
  | cons win windows ih =>
    apply ih (s := s.openWindow opens win)
    exact Windows.openNext tracked (opens win)

/-- Rendering touches no more than contexts. -/
theorem rendering_eq (s : State ω) (windows : List ω) :
    ∃ dirty log, windows.foldl renderWindow s =
      { s with hasDirtyContext := dirty, log := log } := by
  induction windows generalizing s with
  | nil => exact ⟨_, _, rfl⟩
  | cons win windows ih =>
    obtain ⟨dirty, log, same⟩ := ih (s.renderWindow win)
    rw [List.foldl_cons, same]
    unfold renderWindow
    split
    · exact ⟨_, _, rfl⟩
    · exact ⟨_, _, rfl⟩

theorem closing_eq (s : State ω) (windows : List ω) :
    ∃ mNewWins mOpenWins log, windows.foldl closeWindow s =
      { s with mNewWins := mNewWins, mOpenWins := mOpenWins, log := log } := by
  induction windows generalizing s with
  | nil => exact ⟨_, _, _, rfl⟩
  | cons win windows ih =>
    obtain ⟨mNewWins, mOpenWins, log, same⟩ := ih (s.closeWindow win)
    exact ⟨mNewWins, mOpenWins, log, same⟩

omit [DecidableEq ω] in
theorem opening_eq (opens : ω → Bool) (s : State ω) (windows : List ω) :
    ∃ mOpenWins log, windows.foldl (openWindow opens) s =
      { s with mOpenWins := mOpenWins, log := log } := by
  induction windows generalizing s with
  | nil => exact ⟨_, _, rfl⟩
  | cons win windows ih =>
    obtain ⟨mOpenWins, log, same⟩ := ih (s.openWindow opens win)
    exact ⟨mOpenWins, log, same⟩

/-- Each of the two checks touches its own lists and the log. -/
theorem checkForWindowsToClose_eq (s : State ω) :
    ∃ mNewWins mOpenWins log, s.checkForWindowsToClose =
      { s with mNewWins := mNewWins, mOpenWins := mOpenWins, mClosingWins := [], log := log } := by
  obtain ⟨mNewWins, mOpenWins, log, same⟩ := closing_eq s s.mClosingWins
  refine ⟨mNewWins, mOpenWins, log, ?_⟩
  rw [checkForWindowsToClose, same]

omit [DecidableEq ω] in
theorem checkForNewWindows_eq (opens : ω → Bool) (s : State ω) :
    ∃ mOpenWins log, s.checkForNewWindows opens =
      { s with mNewWins := [], mOpenWins := mOpenWins, log := log } := by
  obtain ⟨mOpenWins, log, same⟩ := opening_eq opens s s.mNewWins
  refine ⟨mOpenWins, log, ?_⟩
  rw [checkForNewWindows, same]

/-! ### The threads -/

/-- The exit flag is set by a `stop` that then waits for the thread to run; the thread leaves its
loop after that and without an open window. -/
structure Threads (s : State ω) : Prop where
  exit : s.mControlExit = true →
    s.stop = .triggerRender ∨ s.stop = .triggerSwap ∨ s.stop = .join ∨ s.stop = .returned
  left : s.place = .left ∨ s.place = .ended → s.mControlExit = true ∧ s.mOpenWins = []
  returned : s.stop = .returned → s.place = .ended
  waits : s.place = .ended → s.stop ≠ .triggerRender

structure Inv (s : State ω) : Prop where
  tracked : s.Tracked
  threads : s.Threads

theorem inv_create : Inv (create : State ω) where
  tracked := Windows.create
  threads := by
    constructor <;> simp [create]

/-- Every window that is open at the end has been asked for, and waits to be closed. -/
theorem none_open (tracked : s.Tracked) (asked : ∀ win ∈ s.mOpenWins, .removeWindow win ∈ s.log)
    (closed : ∀ win ∈ s.mClosingWins, win ∉ s.mOpenWins) : s.mOpenWins = [] := by
  apply List.eq_nil_iff_forall_not_mem.mpr
  intro win there
  rcases tracked.asked win (asked win there) with waits | gone
  · exact closed win waits there
  · -- it would have been opened twice
    have once := tracked.attempts win
    have opened := tracked.opened win
    have some' := List.count_pos_iff.mpr gone
    rw [if_pos there] at opened
    omega

omit [DecidableEq ω] in
/-- The thread goes on inside its loop. -/
theorem threads_inside (threads : s.Threads) (exit : t.mControlExit = s.mControlExit)
    (stop : t.stop = s.stop) (inside : s.place ≠ .left ∧ s.place ≠ .ended)
    (inside' : t.place ≠ .left ∧ t.place ≠ .ended) : t.Threads where
  exit set := by
    rw [stop]
    exact threads.exit (exit ▸ set)
  left gone := by simp [inside'] at gone
  returned back := absurd (threads.returned (stop ▸ back)) inside.2
  waits gone := absurd gone inside'.2

theorem inv_controlLoop {ready : Bool} {opens : ω → Bool} (inv : s.Inv)
    (orderly : s.OrderlyAt s.place)
    (stepped : s.controlLoop ready opens = some t) : t.Inv := by
  obtain ⟨tracked, threads⟩ := inv
  unfold controlLoop at stepped
  cases here : s.place with
  | starting =>
    rw [here] at stepped
    obtain rfl := Option.some.inj stepped
    exact ⟨tracked, threads_inside threads rfl rfl (by simp [here]) (by simp)⟩
  | head =>
    simp only [here, OrderlyAt] at stepped orderly
    split at stepped
    next set =>
      obtain rfl := Option.some.inj stepped
      -- the only way out of the loop
      obtain ⟨asked, closed⟩ := orderly set
      refine ⟨tracked, fun set => threads.exit set, fun _ => ⟨set, none_open tracked asked closed⟩,
        fun back => ?_, fun gone => by cases gone⟩
      have ended := threads.returned back
      rw [here] at ended
      cases ended
    · obtain rfl := Option.some.inj stepped
      refine ⟨tracked, threads_inside threads rfl rfl (by simp [here]) ?_⟩
      cases ready <;> simp
  | awaitRender =>
    simp only [here] at stepped
    obtain ⟨count, -, rfl⟩ := Option.map_eq_some_iff.mp stepped
    exact ⟨tracked, threads_inside threads rfl rfl (by simp [here]) (by simp)⟩
  | rendering =>
    simp only [here] at stepped
    obtain rfl := Option.some.inj stepped
    have rendered := tracked_rendering tracked s.mOpenWins
    obtain ⟨dirty, log, same⟩ := rendering_eq s s.mOpenWins
    rw [same] at rendered ⊢
    exact ⟨rendered, threads_inside threads rfl rfl (by simp [here]) (by simp)⟩
  | awaitSwap =>
    simp only [here] at stepped
    obtain ⟨count, -, rfl⟩ := Option.map_eq_some_iff.mp stepped
    exact ⟨tracked, threads_inside threads rfl rfl (by simp [here]) (by simp)⟩
  | swapping =>
    simp only [here] at stepped
    obtain rfl := Option.some.inj stepped
    exact ⟨tracked, threads_inside threads rfl rfl (by simp [here]) (by simp)⟩
  | closing =>
    simp only [here, OrderlyAt] at stepped orderly
    obtain rfl := Option.some.inj stepped
    have closed : s.checkForWindowsToClose.Tracked :=
      tracked_closing tracked orderly.1 orderly.2
    obtain ⟨mNewWins, mOpenWins, log, same⟩ := checkForWindowsToClose_eq s
    rw [same] at closed ⊢
    exact ⟨closed, threads_inside threads rfl rfl (by simp [here]) (by simp)⟩
  | opening =>
    simp only [here] at stepped
    obtain rfl := Option.some.inj stepped
    have opened : (s.checkForNewWindows opens).Tracked := tracked_opening opens tracked
    obtain ⟨mOpenWins, log, same⟩ := checkForNewWindows_eq opens s
    rw [same] at opened ⊢
    exact ⟨opened, threads_inside threads rfl rfl (by simp [here]) (by simp)⟩
  | left =>
    simp only [here, OrderlyAt] at stepped orderly
    obtain rfl := Option.some.inj stepped
    exact ⟨tracked, fun set => threads.exit set, fun _ => threads.left (Or.inl here), fun _ => rfl,
      fun _ => orderly⟩
  | ended =>
    simp only [here] at stepped
    cases stepped

theorem inv_stopStep (inv : s.Inv) (stepped : s.stopStep = some t) : t.Inv := by
  obtain ⟨tracked, threads⟩ := inv
  unfold stopStep at stepped
  -- the thread has not left its loop as long as the flag is not set
  have inside (early : s.mControlExit = false) : ¬ (s.place = .left ∨ s.place = .ended) := by
    intro gone
    rw [(threads.left gone).1] at early
    cases early
  have unset (early : s.stop ≠ .triggerRender ∧ s.stop ≠ .triggerSwap ∧ s.stop ≠ .join ∧
      s.stop ≠ .returned) : s.mControlExit = false := by
    cases set : s.mControlExit with
    | false => rfl
    | true => simpa [early] using threads.exit set
  cases here : s.stop with
  | notCalled =>
    have early := unset (by simp [here])
    simp only [here] at stepped
    obtain rfl := Option.some.inj stepped
    refine ⟨tracked, fun set => ?_, fun gone => absurd gone (inside early), fun back => ?_,
      fun _ => by simp⟩
    · rw [early] at set
      cases set
    · cases back
  | removing windows =>
    have early := unset (by simp [here])
    cases windows with
    | nil =>
      simp only [here] at stepped
      obtain rfl := Option.some.inj stepped
      exact ⟨tracked, fun _ => Or.inl rfl, fun gone => absurd gone (inside early),
        fun back => (nomatch back), fun gone => absurd (Or.inr gone) (inside early)⟩
    | cons win windows =>
      simp only [here] at stepped
      obtain rfl := Option.some.inj stepped
      refine ⟨Windows.removeWindow tracked, fun set => ?_, fun gone => absurd gone (inside early),
        fun back => (nomatch back), fun gone => absurd (Or.inr gone) (inside early)⟩
      change s.mControlExit = true at set
      rw [early] at set
      cases set
  | triggerRender =>
    simp only [here] at stepped
    obtain ⟨u, triggered, rfl⟩ := Option.map_eq_some_iff.mp stepped
    unfold triggerRender at triggered
    split at triggered
    · obtain rfl := Option.some.inj triggered
      exact ⟨tracked, fun _ => Or.inr (Or.inl rfl), threads.left, fun back => (nomatch back),
        fun _ => by simp⟩
    · cases triggered
  | triggerSwap =>
    simp only [here] at stepped
    obtain rfl := Option.some.inj stepped
    exact ⟨tracked, fun _ => Or.inr (Or.inr (Or.inl rfl)), threads.left,
      fun back => (nomatch back), fun _ => by simp⟩
  | join =>
    simp only [here] at stepped
    split at stepped
    next ended =>
      obtain rfl := Option.some.inj stepped
      exact ⟨tracked, fun _ => Or.inr (Or.inr (Or.inr rfl)), threads.left, fun _ => ended,
        fun _ => by simp⟩
    · cases stepped
  | returned =>
    simp only [here] at stepped
    cases stepped

theorem inv_step {a : Act ω} (inv : s.Inv) (orderly : s.Orderly a) (stepped : s.step a = some t) :
    t.Inv := by
  obtain ⟨tracked, threads⟩ := inv
  -- the calls for windows and the triggers leave the threads where they are
  have still {t : State ω} (windows : t.Tracked) (exit : t.mControlExit = s.mControlExit)
      (stop : t.stop = s.stop) (place : t.place = s.place) (shown : t.mOpenWins = s.mOpenWins) :
      t.Inv := by
    refine ⟨windows, ?_, ?_, ?_, ?_⟩
    · rw [exit, stop]
      exact threads.exit
    · rw [exit, place, shown]
      exact threads.left
    · rw [stop, place]
      exact threads.returned
    · rw [stop, place]
      exact threads.waits
  cases a with
  | addWindow win =>
    obtain rfl := Option.some.inj stepped
    exact still (Windows.addWindow tracked orderly) rfl rfl rfl rfl
  | removeWindow win =>
    obtain rfl := Option.some.inj stepped
    exact still (Windows.removeWindow tracked) rfl rfl rfl rfl
  | stop => exact inv_stopStep ⟨tracked, threads⟩ stepped
  | controlLoop ready opens => exact inv_controlLoop ⟨tracked, threads⟩ orderly stepped
  | triggerRender =>
    unfold step triggerRender at stepped
    dsimp only at stepped
    split at stepped
    · obtain rfl := Option.some.inj stepped
      exact still tracked rfl rfl rfl rfl
    · cases stepped
  | completeRender =>
    obtain ⟨count, -, rfl⟩ := Option.map_eq_some_iff.mp stepped
    exact still tracked rfl rfl rfl rfl
  | triggerSwap =>
    obtain rfl := Option.some.inj stepped
    exact still tracked rfl rfl rfl rfl
  | completeSwap =>
    obtain ⟨count, -, rfl⟩ := Option.map_eq_some_iff.mp stepped
    exact still tracked rfl rfl rfl rfl

theorem lifeCycle_of_inv (inv : s.Inv) : s.LifeCycle := by
  obtain ⟨tracked, threads⟩ := inv
  have closed (win : ω) : s.log.count (.close win) ≤ s.log.count (.open win true) := by
    have opened := tracked.opened win
    omega
  refine ⟨tracked.attempts, tracked.initialisedFirst, fun win => ?_, closed, fun back => ?_, ?_⟩
  · rw [tracked.contextClosed]
    exact closed win
  · -- `stop` returns after the thread has ended
    have none' := (threads.left (Or.inr (threads.returned back))).2
    refine ⟨none', fun win => ?_⟩
    have opened := tracked.opened win
    have same := tracked.contextClosed win
    rw [none', if_neg (List.not_mem_nil)] at opened
    omega
  · rintro ⟨waits, ended⟩
    exact threads.waits ended waits

/-- In a run whose steps are all orderly, every state reached keeps to the life cycle. -/
theorem lifeCycle_of_orderly {acts : List (Act ω)} {t : State ω}
    (orderly : Meets step Orderly create acts) (reached : run step create acts = some t) :
    t.LifeCycle :=
  lifeCycle_of_inv (run_invariant_of_meets Inv Orderly
    (fun _ _ _ inv ok stepped => inv_step inv ok stepped) inv_create orderly reached)

/-! ### A pipe without windows -/

/-- The place in the loop of a pipe whose windows are left out. -/
def loopPlace : Place → ControlLoop
  | .starting => .starting
  | .head | .left | .ended => .head
  | .awaitRender => .awaitRender
  | .rendering => .rendering
  | .awaitSwap => .awaitSwap
  | .swapping => .swapping
  | .closing | .opening => .windows

def toPipe (s : State ω) : Pipe where
  mThreadRunning := s.mThreadRunning
  mRenderTriggerSema := s.mRenderTriggerSema
  mRenderCompleteSema := s.mRenderCompleteSema
  mSwapTriggerSema := s.mSwapTriggerSema
  mSwapCompleteSema := s.mSwapCompleteSema
  controlLoop := loopPlace s.place

/-- As long as the pipe is not to stop, its thread does what that of a pipe without windows does,
which looks at both lists of windows in one step. -/
theorem toPipe_controlLoop {ready : Bool} {opens : ω → Bool} (going : s.mControlExit = false)
    (inside : s.place ≠ .left) (stepped : s.controlLoop ready opens = some t) :
    t.toPipe = s.toPipe ∨ ∃ work, s.toPipe.step ready = some (t.toPipe, work) := by
  unfold controlLoop at stepped
  cases here : s.place with
  | starting =>
    simp only [here] at stepped
    obtain rfl := Option.some.inj stepped
    exact Or.inr ⟨none, by simp [Pipe.step, toPipe, here, loopPlace]⟩
  | head =>
    simp only [here, going] at stepped
    obtain rfl := Option.some.inj stepped
    cases ready <;> exact Or.inr ⟨none, by simp [Pipe.step, toPipe, here, loopPlace]⟩
  | awaitRender =>
    simp only [here] at stepped
    obtain ⟨count, acquired, rfl⟩ := Option.map_eq_some_iff.mp stepped
    exact Or.inr ⟨some .render, by simp [Pipe.step, toPipe, here, loopPlace, acquired]⟩
  | rendering =>
    simp only [here] at stepped
    obtain rfl := Option.some.inj stepped
    obtain ⟨dirty, log, same⟩ := rendering_eq s s.mOpenWins
    rw [same]
    exact Or.inr ⟨some .rendered, by simp [Pipe.step, toPipe, here, loopPlace]⟩
  | awaitSwap =>
    simp only [here] at stepped
    obtain ⟨count, acquired, rfl⟩ := Option.map_eq_some_iff.mp stepped
    exact Or.inr ⟨some .swap, by simp [Pipe.step, toPipe, here, loopPlace, acquired]⟩
  | swapping =>
    simp only [here] at stepped
    obtain rfl := Option.some.inj stepped
    exact Or.inr ⟨some .swapped, by simp [Pipe.step, toPipe, here, loopPlace]⟩
  | closing =>
    simp only [here] at stepped
    obtain rfl := Option.some.inj stepped
    obtain ⟨mNewWins, mOpenWins, log, same⟩ := checkForWindowsToClose_eq s
    rw [same]
    exact Or.inl (by simp [toPipe, here, loopPlace])
  | opening =>
    simp only [here] at stepped
    obtain rfl := Option.some.inj stepped
    obtain ⟨mOpenWins, log, same⟩ := checkForNewWindows_eq opens s
    rw [same]
    exact Or.inr ⟨none, by simp [Pipe.step, toPipe, here, loopPlace]⟩
  | left => exact absurd here inside
  | ended =>
    simp only [here] at stepped
    cases stepped

/-! ### Two runs -/

/-- A round of the loop in which a frame is drawn. -/
def frame : List (Act ℕ) :=
  [.controlLoop true fun _ => true, .triggerRender, .controlLoop true fun _ => true,
    .controlLoop true fun _ => true, .completeRender, .triggerSwap,
    .controlLoop true fun _ => true, .controlLoop true fun _ => true, .completeSwap,
    .controlLoop true fun _ => true, .controlLoop true fun _ => true]

/-- A window is opened and drawn, and the pipe is stopped while its thread waits for the next
frame. -/
def orderlyActs : List (Act ℕ) :=
  .addWindow 0 :: .controlLoop true (fun _ => true) :: frame ++ frame ++
    [.controlLoop true fun _ => true, .stop, .stop, .stop, .stop, .stop,
      .controlLoop true fun _ => true, .controlLoop true fun _ => true,
      .controlLoop true fun _ => true, .controlLoop true fun _ => true,
      .controlLoop true fun _ => true, .controlLoop true fun _ => true,
      .controlLoop true fun _ => true, .controlLoop true fun _ => true, .stop]

theorem lifeCycle_of_orderly_stopped :
    Meets step Orderly create orderlyActs ∧
      ∃ t : State ℕ, run step create orderlyActs = some t ∧ t.stop = .returned ∧ t.LifeCycle :=
  have orderly : Meets step Orderly create orderlyActs := by decide
  ⟨orderly, _, rfl, rfl, lifeCycle_of_orderly orderly rfl⟩

/-- A window is removed before the loop has opened it. -/
def removedEarly : List (Act ℕ) :=
  .controlLoop true (fun _ => true) :: .addWindow 0 :: .removeWindow 0 :: frame

/-- It is closed all the same. -/
theorem closed_without_open :
    ¬ ∀ (acts : List (Act ℕ)) (t : State ℕ), run step create acts = some t → t.LifeCycle := by
  intro all
  have life := all removedEarly _ rfl
  have closed := life.closed 0
  revert closed
  decide

end State

end VRJuggler.Draw.PipeWindows
