import Mathlib.Data.List.Count
import VRJuggler.Base.Run

/-!
# Changing the application

The kernel runs one application at a time. With the application come its draw manager and its
sound manager, and all three handle configuration requests while it runs. Of the managers and
the applications the calls that the kernel makes are kept.
-/
namespace VRJuggler.Vrj

/-- A handler: one of the kernel's own, an application or one of its managers. -/
inductive ConfigElementHandler (φ α δ σ : Type) where
  | own (handler : φ)
  | app (a : α)
  | drawManager (drawMgr : δ)
  | soundManager (soundMgr : σ)
  deriving DecidableEq

/-- What applications are asked for; each names its managers. `accepts`: whether `setApp` of the
draw manager does not throw. -/
structure AppLibrary (α δ σ : Type) where
  getDrawManager : α → δ
  getSoundManager : α → σ
  accepts : δ → α → Bool

/-- A call that the kernel makes. -/
inductive AppCall (α δ σ : Type) where
  | closeDrawAPI (drawMgr : δ)
  | closeSoundAPI (soundMgr : σ)
  | setDrawManager (drawMgr : Option δ)
  | exit (a : α)
  | setApp (drawMgr : δ) (a : α)
  | init (a : α)
  | initAPI (drawMgr : δ)
  | apiInit (a : α)
  deriving DecidableEq

/-- The kernel, with the handlers of the `ConfigManager`. -/
structure Kernel (φ α δ σ : Type) where
  mApp : Option α := none
  mDrawManager : Option δ := none
  mSoundManager : Option σ := none
  mElementHandlers : List (ConfigElementHandler φ α δ σ)
  calls : List (AppCall α δ σ) := []

namespace Kernel

variable {φ α δ σ : Type} (lib : AppLibrary α δ σ) (k : Kernel φ α δ σ)

def addConfigElementHandler (h : ConfigElementHandler φ α δ σ) : Kernel φ α δ σ :=
  { k with mElementHandlers := k.mElementHandlers ++ [h] }

def stopDrawManager : Kernel φ α δ σ :=
  match k.mDrawManager with
  | some drawMgr =>
    { k with
      mDrawManager := none
      calls := k.calls ++ [.closeDrawAPI drawMgr, .setDrawManager none] }
  | none => k

def stopSoundManager : Kernel φ α δ σ :=
  match k.mSoundManager with
  | some soundMgr =>
    { k with mSoundManager := none, calls := k.calls ++ [.closeSoundAPI soundMgr] }
  | none => k

/-- A draw manager that rejects the application is not told more of it. -/
def startDrawManager (newMgr : Bool) (drawMgr : δ) (a : α) : Kernel φ α δ σ :=
  let started : List (AppCall α δ σ) :=
    if lib.accepts drawMgr a then
      if newMgr then [.init a, .initAPI drawMgr, .apiInit a, .setDrawManager (some drawMgr)]
      else [.init a, .apiInit a]
    else []
  { k with calls := k.calls ++ .setApp drawMgr a :: started }

variable [DecidableEq φ] [DecidableEq α] [DecidableEq δ] [DecidableEq σ]

/-- The first handler that is `h`; a null pointer is none of them. -/
def removeConfigElementHandler (h : Option (ConfigElementHandler φ α δ σ)) : Kernel φ α δ σ :=
  match h with
  | some h => { k with mElementHandlers := k.mElementHandlers.erase h }
  | none => k

/-- The draw manager is stopped when it is not that of the new application. -/
def leaveDrawManager (newApp : Option α) : Kernel φ α δ σ :=
  if newApp = none ∨ k.mDrawManager ≠ none ∧ newApp.map lib.getDrawManager ≠ k.mDrawManager then
    -- the pointer is null by the time that it is used to find the handler
    let stopped := k.stopDrawManager
    stopped.removeConfigElementHandler (stopped.mDrawManager.map .drawManager)
  else k

def leaveSoundManager (newApp : Option α) : Kernel φ α δ σ :=
  if newApp = none ∨ k.mSoundManager ≠ none ∧ newApp.map lib.getSoundManager ≠ k.mSoundManager then
    let stopped := k.stopSoundManager
    stopped.removeConfigElementHandler (stopped.mSoundManager.map .soundManager)
  else k

def exitApp : Kernel φ α δ σ :=
  match k.mApp with
  | some a =>
    let removed := k.removeConfigElementHandler (some (.app a))
    { removed with calls := removed.calls ++ [.exit a] }
  | none => k

omit [DecidableEq φ] [DecidableEq α] [DecidableEq σ] in
def enterDrawManager (a : α) : Kernel φ α δ σ :=
  let drawMgr := lib.getDrawManager a
  if some drawMgr ≠ k.mDrawManager then
    ({ k with mDrawManager := some drawMgr }.addConfigElementHandler
      (.drawManager drawMgr)).startDrawManager lib true drawMgr a
  else k.startDrawManager lib false drawMgr a

omit [DecidableEq φ] [DecidableEq α] [DecidableEq δ] in
def enterSoundManager (a : α) : Kernel φ α δ σ :=
  let soundMgr := lib.getSoundManager a
  if some soundMgr ≠ k.mSoundManager then
    { k with mSoundManager := some soundMgr }.addConfigElementHandler (.soundManager soundMgr)
  else k

def changeApplication (newApp : Option α) : Kernel φ α δ σ :=
  if newApp = k.mApp then k
  else
    let left := ((k.leaveDrawManager lib newApp).leaveSoundManager lib newApp).exitApp
    match newApp with
    | none => { left with mApp := none }
    | some a =>
      -- the managers are told to the config manager before the application
      (({ left with mApp := some a }.enterDrawManager lib a).enterSoundManager
        lib a).addConfigElementHandler (.app a)

/-- The kernel after the calls of `changeApplication`. -/
def changeApplications (newApps : List (Option α)) : Kernel φ α δ σ :=
  newApps.foldl (fun k newApp => k.changeApplication lib newApp) k

end Kernel

/-! ## What should be registered -/

section Registered

variable {φ α δ σ : Type}

/-- The handlers that go with an application. -/
def handlersOf (lib : AppLibrary α δ σ) : Option α → List (ConfigElementHandler φ α δ σ)
  | none => []
  | some a => [.app a, .drawManager (lib.getDrawManager a), .soundManager (lib.getSoundManager a)]

/-- The applications that are replaced by the calls, in turn. -/
def replaced [DecidableEq α] : Option α → List (Option α) → List α
  | _, [] => []
  | mApp, newApp :: newApps =>
    (if newApp = mApp then [] else mApp.toList) ++ replaced newApp newApps

/-- The application whose exit a call is. -/
def AppCall.exited : AppCall α δ σ → Option α
  | .exit a => some a
  | _ => none

namespace Kernel

/-- The handlers are the kernel's own ones, the application and its managers, each once. -/
def Registered (lib : AppLibrary α δ σ) (fixed : List φ) (k : Kernel φ α δ σ) : Prop :=
  k.mElementHandlers.Perm (fixed.map .own ++ handlersOf lib k.mApp)

/-- An application is replaced by one that has the same managers. -/
def SharesManagers (lib : AppLibrary α δ σ) (k : Kernel φ α δ σ) (newApp : Option α) : Prop :=
  ∀ a ∈ k.mApp, ∃ b ∈ newApp, lib.getDrawManager b = lib.getDrawManager a ∧
    lib.getSoundManager b = lib.getSoundManager a

/-- The kernel knows the managers of its application. -/
structure Knows (lib : AppLibrary α δ σ) (k : Kernel φ α δ σ) : Prop where
  draw : k.mDrawManager = k.mApp.map lib.getDrawManager
  sound : k.mSoundManager = k.mApp.map lib.getSoundManager

/-- The kernel before the first call. -/
def idle (fixed : List φ) : Kernel φ α δ σ := { mElementHandlers := fixed.map .own }

/-- The applications whose exit was called. -/
def exits (k : Kernel φ α δ σ) : List α := k.calls.filterMap AppCall.exited

end Kernel

end Registered

/-! ## One call -/

namespace Kernel

variable {φ α δ σ : Type} [DecidableEq φ] [DecidableEq α] [DecidableEq δ] [DecidableEq σ]
  {lib : AppLibrary α δ σ} {k : Kernel φ α δ σ}

omit [DecidableEq φ] [DecidableEq α] [DecidableEq δ] [DecidableEq σ] in
@[simp] theorem mDrawManager_stopDrawManager : k.stopDrawManager.mDrawManager = none := by
  unfold stopDrawManager
  cases here : k.mDrawManager with
  | none => exact here
  | some drawMgr => rfl

omit [DecidableEq φ] [DecidableEq α] [DecidableEq δ] [DecidableEq σ] in
@[simp] theorem mSoundManager_stopSoundManager : k.stopSoundManager.mSoundManager = none := by
  unfold stopSoundManager
  cases here : k.mSoundManager with
  | none => exact here
  | some soundMgr => rfl

/-- What a part of a change leaves: the application, the handlers and the calls of exits. -/
structure Keeps (k t : Kernel φ α δ σ) : Prop where
  app : t.mApp = k.mApp
  handlers : t.mElementHandlers = k.mElementHandlers
  exits : t.exits = k.exits

omit [DecidableEq φ] [DecidableEq α] [DecidableEq δ] [DecidableEq σ] in
theorem keeps_stopDrawManager :
    Keeps k k.stopDrawManager ∧ k.stopDrawManager.mSoundManager = k.mSoundManager := by
  unfold stopDrawManager
  cases k.mDrawManager with
  | none => exact ⟨⟨rfl, rfl, rfl⟩, rfl⟩
  | some drawMgr => exact ⟨⟨rfl, rfl, by simp [exits, AppCall.exited]⟩, rfl⟩

omit [DecidableEq φ] [DecidableEq α] [DecidableEq δ] [DecidableEq σ] in
theorem keeps_stopSoundManager :
    Keeps k k.stopSoundManager ∧ k.stopSoundManager.mDrawManager = k.mDrawManager := by
  unfold stopSoundManager
  cases k.mSoundManager with
  | none => exact ⟨⟨rfl, rfl, rfl⟩, rfl⟩
  | some soundMgr => exact ⟨⟨rfl, rfl, by simp [exits, AppCall.exited]⟩, rfl⟩

/-- Leaving a draw manager stops it and removes no handler. -/
theorem leaveDrawManager_eq (newApp : Option α) :
    k.leaveDrawManager lib newApp =
      if newApp.map lib.getDrawManager = k.mDrawManager then k else k.stopDrawManager := by
  unfold leaveDrawManager
  simp only [mDrawManager_stopDrawManager, Option.map_none, removeConfigElementHandler]
  by_cases same : newApp.map lib.getDrawManager = k.mDrawManager
  · rw [if_pos same]
    split
    next left =>
      -- only without an application and without a draw manager
      have nobody : newApp = none := left.resolve_right fun other => other.2 same
      subst nobody
      rw [stopDrawManager, ← same, Option.map_none]
    next => rfl
  · rw [if_neg same]
    split
    next => rfl
    next stays =>
      have none' : k.mDrawManager = none := by
        by_contra some'
        exact stays (.inr ⟨some', same⟩)
      rw [stopDrawManager, none']

theorem leaveSoundManager_eq (newApp : Option α) :
    k.leaveSoundManager lib newApp =
      if newApp.map lib.getSoundManager = k.mSoundManager then k else k.stopSoundManager := by
  unfold leaveSoundManager
  simp only [mSoundManager_stopSoundManager, Option.map_none, removeConfigElementHandler]
  by_cases same : newApp.map lib.getSoundManager = k.mSoundManager
  · rw [if_pos same]
    split
    next left =>
      have nobody : newApp = none := left.resolve_right fun other => other.2 same
      subst nobody
      rw [stopSoundManager, ← same, Option.map_none]
    next => rfl
  · rw [if_neg same]
    split
    next => rfl
    next stays =>
      have none' : k.mSoundManager = none := by
        by_contra some'
        exact stays (.inr ⟨some', same⟩)
      rw [stopSoundManager, none']

/-- The kernel when it has left the managers that are not those of the new application. -/
theorem leave_spec (lib : AppLibrary α δ σ) (k : Kernel φ α δ σ) (newApp : Option α)
    {left : Kernel φ α δ σ}
    (leaves : left = (k.leaveDrawManager lib newApp).leaveSoundManager lib newApp) :
    Keeps k left ∧
      left.mDrawManager =
        (if newApp.map lib.getDrawManager = k.mDrawManager then k.mDrawManager else none) ∧
      left.mSoundManager =
        if newApp.map lib.getSoundManager = k.mSoundManager then k.mSoundManager else none := by
  subst leaves
  obtain ⟨first, sound⟩ := keeps_stopDrawManager (k := k)
  rw [leaveSoundManager_eq, leaveDrawManager_eq]
  split
  next drawSame =>
    obtain ⟨second, draw⟩ := keeps_stopSoundManager (k := k)
    split
    next => exact ⟨⟨rfl, rfl, rfl⟩, rfl, rfl⟩
    next => exact ⟨second, draw, mSoundManager_stopSoundManager⟩
  next drawOther =>
    obtain ⟨second, draw⟩ := keeps_stopSoundManager (k := k.stopDrawManager)
    rw [sound]
    split
    next => exact ⟨first, mDrawManager_stopDrawManager, sound⟩
    next =>
      refine ⟨⟨second.app.trans first.app, second.handlers.trans first.handlers,
        second.exits.trans first.exits⟩, ?_, mSoundManager_stopSoundManager⟩
      rw [draw, mDrawManager_stopDrawManager]

/-- The handlers without the application. -/
def withoutApp (mApp : Option α) (handlers : List (ConfigElementHandler φ α δ σ)) :
    List (ConfigElementHandler φ α δ σ) :=
  match mApp with
  | some a => handlers.erase (.app a)
  | none => handlers

omit [DecidableEq φ] [DecidableEq α] in
/-- The handlers that are added when the managers of an application were known before. -/
def added (lib : AppLibrary α δ σ) (mApp newApp : Option α) : List (ConfigElementHandler φ α δ σ) :=
  match newApp with
  | some b =>
    (if mApp.map lib.getDrawManager = some (lib.getDrawManager b) then []
      else [.drawManager (lib.getDrawManager b)]) ++
    (if mApp.map lib.getSoundManager = some (lib.getSoundManager b) then []
      else [.soundManager (lib.getSoundManager b)]) ++ [.app b]
  | none => []

theorem exitApp_spec : k.exitApp.mDrawManager = k.mDrawManager ∧
    k.exitApp.mSoundManager = k.mSoundManager ∧ k.exitApp.exits = k.exits ++ k.mApp.toList ∧
    k.exitApp.mElementHandlers = withoutApp k.mApp k.mElementHandlers := by
  unfold exitApp
  cases k.mApp with
  | none => simp [withoutApp]
  | some a => simp [withoutApp, removeConfigElementHandler, exits, AppCall.exited]

omit [DecidableEq φ] [DecidableEq α] [DecidableEq δ] [DecidableEq σ] in
/-- Starting a draw manager calls no exit. -/
theorem exits_startDrawManager (newMgr : Bool) (drawMgr : δ) (a : α) :
    (k.startDrawManager lib newMgr drawMgr a).exits = k.exits := by
  unfold startDrawManager
  cases lib.accepts drawMgr a with
  | false => simp [exits, AppCall.exited]
  | true => cases newMgr <;> simp [exits, AppCall.exited]

omit [DecidableEq φ] [DecidableEq α] in
theorem enter_spec (lib : AppLibrary α δ σ) (k : Kernel φ α δ σ) (a : α) {t : Kernel φ α δ σ}
    (enters : t = (k.enterDrawManager lib a).enterSoundManager lib a) :
    t.mApp = k.mApp ∧ t.mDrawManager = some (lib.getDrawManager a) ∧
      t.mSoundManager = some (lib.getSoundManager a) ∧ t.exits = k.exits ∧
      t.mElementHandlers = k.mElementHandlers ++
        ((if k.mDrawManager = some (lib.getDrawManager a) then []
          else [.drawManager (lib.getDrawManager a)]) ++
        if k.mSoundManager = some (lib.getSoundManager a) then []
          else [.soundManager (lib.getSoundManager a)]) := by
  subst enters
  have keepsExits (u : Kernel φ α δ σ) : (u.enterSoundManager lib a).exits = u.exits := by
    unfold enterSoundManager
    dsimp only
    split <;> rfl
  have drawExits : (k.enterDrawManager lib a).exits = k.exits := by
    unfold enterDrawManager
    dsimp only
    split
    next => exact exits_startDrawManager ..
    next => exact exits_startDrawManager ..
  rw [keepsExits, drawExits]
  unfold enterSoundManager enterDrawManager startDrawManager addConfigElementHandler
  by_cases drawSame : k.mDrawManager = some (lib.getDrawManager a)
  · by_cases soundSame : k.mSoundManager = some (lib.getSoundManager a)
    · simp [drawSame, soundSame]
    · simp [drawSame, soundSame, Ne.symm soundSame]
  · by_cases soundSame : k.mSoundManager = some (lib.getSoundManager a)
    · simp [drawSame, Ne.symm drawSame, soundSame]
    · simp [drawSame, Ne.symm drawSame, soundSame, Ne.symm soundSame]

/-- What a change to another application does. -/
structure Changed (lib : AppLibrary α δ σ) (k : Kernel φ α δ σ) (newApp : Option α)
    (t : Kernel φ α δ σ) : Prop where
  app : t.mApp = newApp
  knows : Knows lib t
  exits : t.exits = k.exits ++ k.mApp.toList
  handlers : t.mElementHandlers =
    withoutApp k.mApp k.mElementHandlers ++ added lib k.mApp newApp

omit [DecidableEq α] in
/-- A manager that is left unless the new application has it, too. -/
theorem kept_eq_iff {μ : Type} [DecidableEq μ] {get : α → μ} {mApp : Option α} (b : α) :
    (if some (get b) = mApp.map get then mApp.map get else none) = some (get b) ↔
      mApp.map get = some (get b) := by
  split
  next => exact Iff.rfl
  next other => simp [Ne.symm other]

theorem changeApplication_spec (knows : Knows lib k) {newApp : Option α}
    (other : newApp ≠ k.mApp) : Changed lib k newApp (k.changeApplication lib newApp) := by
  unfold changeApplication
  rw [if_neg other]
  dsimp only
  obtain ⟨⟨app, handlers, exits⟩, draw, sound⟩ := leave_spec lib k newApp rfl
  generalize (k.leaveDrawManager lib newApp).leaveSoundManager lib newApp = left at *
  obtain ⟨drawExit, soundExit, exitsExit, handlersExit⟩ := exitApp_spec (k := left)
  rw [app, handlers] at handlersExit
  rw [app, exits] at exitsExit
  rw [knows.draw] at draw
  rw [knows.sound] at sound
  cases newApp with
  | none =>
    -- the managers were stopped, or there were none
    refine ⟨rfl, ⟨?_, ?_⟩, exitsExit, ?_⟩
    · rw [Option.map_none] at draw ⊢
      rw [drawExit, draw]
      split
      next same => exact same.symm
      next => rfl
    · rw [Option.map_none] at sound ⊢
      rw [soundExit, sound]
      split
      next same => exact same.symm
      next => rfl
    · rw [added, List.append_nil]
      exact handlersExit
  | some b =>
    rw [Option.map_some] at draw sound
    dsimp only
    obtain ⟨enterApp, enterDraw, enterSound, enterExits, enterHandlers⟩ :=
      enter_spec lib { left.exitApp with mApp := some b } b rfl
    dsimp only at enterApp enterDraw enterSound enterExits enterHandlers
    -- the application is the last handler, after those of new managers
    refine ⟨enterApp, ⟨?_, ?_⟩, enterExits.trans exitsExit, ?_⟩
    · exact enterDraw.trans (congrArg (Option.map lib.getDrawManager) enterApp).symm
    · exact enterSound.trans (congrArg (Option.map lib.getSoundManager) enterApp).symm
    · have drawKept : left.exitApp.mDrawManager = some (lib.getDrawManager b) ↔
          k.mApp.map lib.getDrawManager = some (lib.getDrawManager b) := by
        rw [drawExit, draw, kept_eq_iff]
      have soundKept : left.exitApp.mSoundManager = some (lib.getSoundManager b) ↔
          k.mApp.map lib.getSoundManager = some (lib.getSoundManager b) := by
        rw [soundExit, sound, kept_eq_iff]
      refine (congrArg (· ++ [.app b]) enterHandlers).trans ?_
      simp only [handlersExit, drawKept, soundKept, added, List.append_assoc]

/-- Without its application, the kernel still has the handlers of the managers. -/
theorem Registered.withoutApp {fixed : List φ} (registered : Registered lib fixed k) :
    (withoutApp k.mApp k.mElementHandlers).Perm
      (fixed.map .own ++ ((handlersOf lib k.mApp).tail : List (ConfigElementHandler φ α δ σ))) := by
  unfold Registered at registered
  cases here : k.mApp with
  | none =>
    rw [here] at registered
    exact registered
  | some a =>
    rw [here] at registered
    have first := registered.trans List.perm_middle
    simpa [Kernel.withoutApp, handlersOf] using first.erase (.app a)

/-- From the right handlers, a change leads to the right ones just when the managers stay. -/
theorem Registered.changeApplication_iff {fixed : List φ} (registered : Registered lib fixed k)
    (knows : Knows lib k) (newApp : Option α) :
    Registered lib fixed (k.changeApplication lib newApp) ↔ SharesManagers lib k newApp := by
  by_cases same : newApp = k.mApp
  · subst same
    have stays : k.changeApplication lib k.mApp = k := if_pos rfl
    rw [stays]
    exact iff_of_true registered fun a here => ⟨a, here, rfl, rfl⟩
  · have changed := changeApplication_spec knows same
    have rest := registered.withoutApp.append_right (added lib k.mApp newApp)
    rw [List.append_assoc] at rest
    unfold Registered
    rw [changed.handlers, changed.app, rest.congr_left, List.perm_append_left_iff]
    unfold SharesManagers
    cases here : k.mApp with
    | none =>
      cases newApp with
      | none => exact absurd here.symm same
      | some b =>
        -- nothing was registered, and all three are added
        have moved : (added lib none (some b) : List (ConfigElementHandler φ α δ σ)).Perm
            (handlersOf lib (some b)) :=
          (List.perm_append_comm : ([_, _] ++ [_]).Perm ([_] ++ [_, _]))
        simpa [handlersOf] using moved
    | some a =>
      cases newApp with
      | none =>
        -- the two managers stay behind
        refine iff_of_false (fun perm => ?_) (by simp)
        exact absurd perm.length_eq (by simp [handlersOf, added])
      | some b =>
        constructor
        · intro perm c hc
          obtain rfl := Option.some.inj hc
          -- a new manager would be a handler too many
          have length := perm.length_eq
          by_cases drawSame : lib.getDrawManager a = lib.getDrawManager b
          · by_cases soundSame : lib.getSoundManager a = lib.getSoundManager b
            · exact ⟨b, rfl, drawSame.symm, soundSame.symm⟩
            · simp [handlersOf, added, drawSame, soundSame] at length
          · simp only [handlersOf, added, Option.map_some, Option.some.injEq, drawSame, if_false,
              List.tail_cons, List.length_append, List.length_cons, List.length_nil] at length
            omega
        · intro shares
          obtain ⟨c, hc, drawSame, soundSame⟩ := shares a rfl
          obtain rfl := Option.some.inj hc
          simp only [handlersOf, added, Option.map_some, drawSame, soundSame, if_true,
            List.tail_cons, List.nil_append]
          exact (List.perm_append_comm : ([_, _] ++ [_]).Perm ([_] ++ [_, _]))

theorem knows_changeApplication (knows : Knows lib k) (newApp : Option α) :
    Knows lib (k.changeApplication lib newApp) ∧
      (k.changeApplication lib newApp).mApp = newApp ∧
      (k.changeApplication lib newApp).exits =
        k.exits ++ if newApp = k.mApp then [] else k.mApp.toList := by
  by_cases same : newApp = k.mApp
  · subst same
    have stays : k.changeApplication lib k.mApp = k := if_pos rfl
    rw [stays, if_pos rfl, List.append_nil]
    exact ⟨knows, rfl, rfl⟩
  · have changed := changeApplication_spec knows same
    rw [if_neg same]
    exact ⟨changed.knows, changed.app, changed.exits⟩

/-! ## Runs -/

/-- Whatever the managers, each application is told to exit when it is replaced, and then only. -/
theorem exits_changeApplications (knows : Knows lib k) (newApps : List (Option α)) :
    (k.changeApplications lib newApps).exits = k.exits ++ replaced k.mApp newApps := by
  induction newApps generalizing k with
  | nil => exact (List.append_nil _).symm
  | cons newApp newApps ih =>
    obtain ⟨knowsNew, app, exits⟩ := knows_changeApplication knows newApp
    have later := ih knowsNew
    rw [app, exits, List.append_assoc] at later
    exact later

/-- Every call is possible. -/
def step (lib : AppLibrary α δ σ) (k : Kernel φ α δ σ) (newApp : Option α) :
    Option (Kernel φ α δ σ) :=
  some (k.changeApplication lib newApp)

theorem run_step (newApps : List (Option α)) :
    run (step lib) k newApps = some (k.changeApplications lib newApps) := by
  induction newApps generalizing k with
  | nil => rfl
  | cons newApp newApps ih =>
    rw [run_cons, step, Option.bind_some, ih]
    rfl

/-- After each of the calls, the handlers are the current application with its managers, and the
applications replaced by then were told to exit once each, exactly when no call replaces an
application but by one with the same managers. -/
theorem registered_iff_shares (lib : AppLibrary α δ σ) (fixed : List φ)
    (newApps : List (Option α)) :
    (∀ front, front <+: newApps →
        ((idle fixed).changeApplications lib front).Registered lib fixed ∧
          ((idle fixed).changeApplications lib front).exits = replaced none front) ↔
      Meets (step lib) (SharesManagers lib) (idle fixed) newApps := by
  have knowsIdle : Knows lib (idle fixed : Kernel φ α δ σ) := ⟨rfl, rfl⟩
  have start : (idle fixed : Kernel φ α δ σ).Registered lib fixed := by
    simp [Registered, idle, handlersOf]
  -- the managers are known to the kernel after any call; the handlers depend on the step
  have keeps : ∀ (k : Kernel φ α δ σ) newApp t, Knows lib k → k.Registered lib fixed →
      step lib k newApp = some t →
        (t.Registered lib fixed ↔ SharesManagers lib k newApp) ∧
          (t.Registered lib fixed → Knows lib t) := by
    rintro k newApp t knows registered stepped
    obtain rfl := Option.some.inj stepped
    exact ⟨registered.changeApplication_iff knows newApp,
      fun _ => (knows_changeApplication knows newApp).1⟩
  rw [← run_always_iff_meets _ _ _ keeps knowsIdle start (run_step newApps)]
  constructor
  · intro all front k part here
    rw [run_step] at here
    obtain rfl := Option.some.inj here
    exact (all front part).1
  · intro all front part
    have exits := exits_changeApplications knowsIdle front
    exact ⟨all front _ part (run_step front), exits⟩

/-- Two applications, each with its own managers. -/
def twoApps : AppLibrary Bool Bool Bool where
  getDrawManager a := a
  getSoundManager a := a
  accepts _ _ := true

/-- When the only application is taken away, its managers stay registered. -/
theorem managers_stay_registered :
    ((idle [()]).changeApplications twoApps [some true, none]).mElementHandlers =
        [.own (), .drawManager true, .soundManager true] ∧
      ¬ ((idle [()]).changeApplications twoApps [some true, none]).Registered twoApps [()] := by
  unfold Registered
  decide

end Kernel

end VRJuggler.Vrj
