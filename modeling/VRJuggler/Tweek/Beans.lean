import Mathlib.Data.Set.Defs
import Mathlib.Data.String.Basic
import VRJuggler.Base.SortedMap

/-!
# Beans

A bean is registered under its name, and waits in the dependency manager until the beans it
depends on are registered. What fails while a bean is instantiated is caught, and the bean is
given up.
-/
namespace VRJuggler.Tweek

/-! ## Beans -/

structure BeanAttributes where
  name : String
  /-- The names that the dependencies have. -/
  beanDeps : Option (List String)
  deriving DecidableEq

inductive BeanKind where
  | panel
  | viewer
  | service
  | globalPreferences (lazyPanelBeanInstantiation : Bool)
  deriving DecidableEq

/-- The identity tells two bean objects apart. -/
structure TweekBean where
  identity : Nat
  attrs : BeanAttributes
  kind : BeanKind
  deriving DecidableEq

namespace TweekBean

variable (bean : TweekBean)

def getName : String := bean.attrs.name

/-- The loop over the dependencies is left out where there is no list of them. -/
def dependencies : List String := bean.attrs.beanDeps.getD []

end TweekBean

/-- What `instantiate` can throw. -/
inductive InstantiationFailure where
  | beanInstantiation (message : String)
  | runtime (message : String)

/-! ## The registry -/

/-- Each bean is under its name. -/
structure BeanRegistry where
  mBeans : SortedMap String TweekBean
  named : ∀ name bean, mBeans.find name = some bean → bean.getName = name

namespace BeanRegistry

def empty : BeanRegistry := ⟨.empty, by simp⟩

variable (registry : BeanRegistry)

/-- A bean that was registered under the name is replaced. -/
def registerBean (bean : TweekBean) : BeanRegistry where
  mBeans := registry.mBeans.insert bean.getName bean
  named := by
    intro name other found
    by_cases same : name = bean.getName
    · subst same
      rw [SortedMap.find_insert_self] at found
      rw [← Option.some.inj found]
    · rw [SortedMap.find_insert_of_ne _ _ same] at found
      exact registry.named name other found

def getBean (name : String) : Option TweekBean := registry.mBeans.find name

def isRegistered (name : String) : Bool := (registry.mBeans.find name).isSome

/-- The preference, asked of the service through a new proxy. -/
def getLazyPanelBeanInstantiation : Except InstantiationFailure Bool :=
  match registry.getBean "GlobalPreferences" with
  | none => .error (.runtime "Could not find Global Preferences Service")
  | some bean =>
    match bean.kind with
    | .globalPreferences lazyPanelBeanInstantiation => .ok lazyPanelBeanInstantiation
    | _ => .error (.runtime ("The Bean registered as 'GlobalPreferences' is not a " ++
        "GlobalPreferencesService implementation."))

/-- The beans that are registered. -/
def beans : Set TweekBean := {bean | registry.getBean bean.getName = some bean}

end BeanRegistry

/-! ## The dependency manager -/

structure BeanDependencyManager where
  mPending : List TweekBean

namespace BeanDependencyManager

def getNumUnsatisfiedDependencies (registry : BeanRegistry) (bean : TweekBean) : Nat :=
  bean.dependencies.countP fun dep_name => !registry.isRegistered dep_name

variable (manager : BeanDependencyManager)

def add (bean : TweekBean) : BeanDependencyManager := ⟨manager.mPending ++ [bean]⟩

def hasBeansPending : Bool := manager.mPending.length > 0

/-- The first bean whose dependencies are satisfied is taken from the list. -/
def pop (registry : BeanRegistry) : Option TweekBean × BeanDependencyManager :=
  match manager.mPending.find? fun bean => getNumUnsatisfiedDependencies registry bean = 0 with
  | some result => (some result, ⟨manager.mPending.erase result⟩)
  | none => (none, manager)

variable {manager} {registry : BeanRegistry} {bean : TweekBean}

theorem satisfied_iff : getNumUnsatisfiedDependencies registry bean = 0 ↔
    ∀ dep ∈ bean.dependencies, registry.isRegistered dep = true := by
  simp [getNumUnsatisfiedDependencies, List.countP_eq_zero]

theorem pop_some {rest : BeanDependencyManager}
    (popped : manager.pop registry = (some bean, rest)) : bean ∈ manager.mPending ∧
      (∀ dep ∈ bean.dependencies, registry.isRegistered dep = true) ∧
      rest = ⟨manager.mPending.erase bean⟩ := by
  rw [pop] at popped
  split at popped
  next result found =>
    cases popped
    have satisfied := List.find?_some found
    exact ⟨List.mem_of_find?_eq_some found, satisfied_iff.mp (of_decide_eq_true satisfied), rfl⟩
  next => cases popped

theorem pop_none {rest : BeanDependencyManager} (popped : manager.pop registry = (none, rest)) :
    ∀ bean ∈ manager.mPending, ¬ ∀ dep ∈ bean.dependencies, registry.isRegistered dep = true := by
  rw [pop] at popped
  split at popped
  next => cases popped
  next found =>
    intro bean member satisfied
    have unsatisfied := List.find?_eq_none.mp found bean member
    exact unsatisfied (decide_eq_true (satisfied_iff.mpr satisfied))

end BeanDependencyManager

/-! ## Loading -/

/-- What is done with a bean: its instantiation is tried, or it is registered. -/
inductive LoadEvent where
  | instantiate (bean : TweekBean)
  | register (bean : TweekBean)

def LoadEvent.bean : LoadEvent → TweekBean
  | .instantiate bean => bean
  | .register bean => bean

/-- The core with the registry and the dependency manager; `events` is what has been done. -/
structure TweekCore where
  registry : BeanRegistry
  mDepManager : BeanDependencyManager
  messageDocument : List String
  events : List LoadEvent

namespace TweekCore

variable (core : TweekCore)

def registerBean (bean : TweekBean) : TweekCore :=
  { core with
    registry := core.registry.registerBean bean
    events := core.events ++ [.register bean] }

variable (instantiate : TweekBean → Option InstantiationFailure)

/-- The bean is instantiated, unless it is a panel and these are instantiated lazily, and
registered. -/
def tryLoad (bean : TweekBean) : TweekCore × Option InstantiationFailure :=
  match core.registry.getLazyPanelBeanInstantiation with
  | .error e => (core, some e)
  | .ok lazy_inst =>
    if bean.kind ≠ .panel || !lazy_inst then
      let core := { core with events := core.events ++ [.instantiate bean] }
      match instantiate bean with
      | some e => (core, some e)
      | none => (core.registerBean bean, none)
    else (core.registerBean bean, none)

/-- There is a warning for a bean that cannot be instantiated; other exceptions are traced. -/
def loadBean (bean : TweekBean) : TweekCore :=
  match core.tryLoad instantiate bean with
  | (core, some (.beanInstantiation message)) =>
    { core with
      messageDocument := core.messageDocument ++
        ["WARNING: Failed to instantiate Bean '" ++ bean.getName ++ "': " ++ message] }
  | (core, some (.runtime _)) => core
  | (core, none) => core

theorem mDepManager_tryLoad (bean : TweekBean) :
    (core.tryLoad instantiate bean).1.mDepManager = core.mDepManager := by
  rw [tryLoad]
  split
  · rfl
  · split
    · dsimp only
      split <;> rfl
    · rfl

theorem mDepManager_loadBean (bean : TweekBean) :
    (core.loadBean instantiate bean).mDepManager = core.mDepManager := by
  rw [← mDepManager_tryLoad core instantiate bean, loadBean]
  split
  next found => rw [found]
  next found => rw [found]
  next found => rw [found]

/-- Beans are loaded until none is left whose dependencies are satisfied. -/
def loadPending (core : TweekCore) : TweekCore :=
  if core.mDepManager.hasBeansPending then
    match popped : core.mDepManager.pop core.registry with
    | (none, _) => core
    | (some bean, mDepManager) =>
      loadPending (loadBean { core with mDepManager } instantiate bean)
  else core
termination_by core.mDepManager.mPending.length
decreasing_by
  obtain ⟨member, -, rest⟩ := BeanDependencyManager.pop_some popped
  rw [mDepManager_loadBean, rest, List.length_erase_of_mem member]
  have := List.length_pos_of_mem member
  omega

variable {core instantiate} {bean : TweekBean} {rest : BeanDependencyManager}

theorem loadPending_of_empty (empty : ¬ core.mDepManager.hasBeansPending = true) :
    loadPending instantiate core = core := by
  rw [loadPending, if_neg empty]

theorem loadPending_of_none (popped : core.mDepManager.pop core.registry = (none, rest)) :
    loadPending instantiate core = core := by
  rw [loadPending]
  split
  · split
    next => rfl
    next again => cases popped.symm.trans again
  · rfl

theorem loadPending_of_some (popped : core.mDepManager.pop core.registry = (some bean, rest)) :
    loadPending instantiate core =
      loadPending instantiate (loadBean { core with mDepManager := rest } instantiate bean) := by
  have pending : core.mDepManager.hasBeansPending = true :=
    decide_eq_true (List.length_pos_of_mem (BeanDependencyManager.pop_some popped).1)
  rw [loadPending, if_pos pending]
  split
  next again => cases popped.symm.trans again
  next again =>
    cases popped.symm.trans again
    rfl

variable (instantiate)

/-- The list can be `null`. -/
def loadBeans (core : TweekCore) : Option (List TweekBean) → TweekCore
  | none => core
  | some beans =>
    loadPending instantiate
      { core with mDepManager := beans.foldl BeanDependencyManager.add core.mDepManager }

end TweekCore

/-! ## A session -/

/-- The beans that are registered before any bean is loaded. -/
def staticBeans (lazyPanelBeanInstantiation : Bool) : List TweekBean :=
  [{ identity := 0
     attrs := ⟨"Environment", some []⟩
     kind := .service },
   { identity := 1
     attrs := ⟨"GlobalPreferences", some []⟩
     kind := .globalPreferences lazyPanelBeanInstantiation }]

def registerStaticBeans (lazyPanelBeanInstantiation : Bool) : TweekCore where
  registry := (staticBeans lazyPanelBeanInstantiation).foldl BeanRegistry.registerBean .empty
  mDepManager := ⟨[]⟩
  messageDocument := []
  events := []

/-- The lists of beans are loaded one after the other. -/
def session (instantiate : TweekBean → Option InstantiationFailure)
    (lazyPanelBeanInstantiation : Bool) (batches : List (Option (List TweekBean))) : TweekCore :=
  batches.foldl (TweekCore.loadBeans instantiate) (registerStaticBeans lazyPanelBeanInstantiation)

/-- The beans that were passed. -/
def passed (batches : List (Option (List TweekBean))) : List TweekBean :=
  batches.flatMap fun beans => beans.getD []

end VRJuggler.Tweek
