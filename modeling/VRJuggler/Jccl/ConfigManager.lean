import VRJuggler.Base.Run

/-!
# The configuration manager

`jccl::ConfigManager` keeps the active configuration, and the requests to add elements to it
and to remove elements from it. In `attemptReconfiguration` each handler walks along the
pending requests and takes those that it can process. The walk is followed request by
request: at any point of it more requests may come in, which wait for the next call.
-/
namespace VRJuggler.Jccl

/-! ## Elements and requests -/

/-- The dependencies are the names that `getElementPtrDependencies` returns. -/
structure ConfigElement where
  name : String
  id : String
  elementPtrDependencies : List String
  deriving DecidableEq

/-- `PendingElement::Type`. -/
inductive PendingType where
  | ADD
  | REMOVE
  deriving DecidableEq

structure PendingElement where
  mType : PendingType
  mElement : ConfigElement
  deriving DecidableEq

namespace Configuration

/-- Only the first element of the name is erased. -/
def remove (mElements : List ConfigElement) (name : String) : List ConfigElement :=
  mElements.eraseP fun e => name == e.name

/-- An element of the same name is overwritten. -/
def add (mElements : List ConfigElement) (newElement : ConfigElement) : List ConfigElement :=
  match mElements with
  | [] => [newElement]
  | e :: rest => if e.name = newElement.name then newElement :: rest else e :: add rest newElement

end Configuration

/-! ## Handlers and dependencies -/

/-- What `configAdd` and `configRemove` answer is left open. -/
structure ConfigElementHandler where
  configCanHandle : ConfigElement → Bool

/-- A checker asks whether certain names are active: the default one those of
`getElementPtrDependencies`, those of proxies and cluster nodes none. -/
structure DepChecker where
  canHandle : ConfigElement → Bool
  dependencies : ConfigElement → List String

def defaultChecker : DepChecker where
  canHandle _ := true
  dependencies := ConfigElement.elementPtrDependencies

/-- What is registered with the manager and the `DependencyManager`. -/
structure Registered where
  mElementHandlers : List ConfigElementHandler
  mDepCheckers : List DepChecker

/-- The manager while `handling` is not empty is within `attemptReconfiguration`: these
handlers have not finished `configProcessPending`, and the first of them is at work. The
pending list is split at its iterator `current`. -/
structure ConfigManager where
  mActiveConfig : List ConfigElement
  visited : List PendingElement
  remaining : List PendingElement
  mIncomingConfig : List PendingElement
  mPendingCheckCount : Nat
  mLastPendingSize : Nat
  handling : List ConfigElementHandler
  scan_for_lost_dependants : Bool
  /-- What the last call of `attemptReconfiguration` returns, or has counted so far. -/
  elements_processed : Nat

namespace ConfigManager

variable (s : ConfigManager)

def initial : ConfigManager where
  mActiveConfig := []
  visited := []
  remaining := []
  mIncomingConfig := []
  mPendingCheckCount := 0
  mLastPendingSize := 0
  handling := []
  scan_for_lost_dependants := false
  elements_processed := 0

def mPendingConfig : List PendingElement := s.visited ++ s.remaining

def isElementInActiveList (element_name : String) : Bool :=
  s.mActiveConfig.any fun e => e.name == element_name

end ConfigManager

namespace Registered

variable (reg : Registered)

def findDepChecker (element : ConfigElement) : DepChecker :=
  (reg.mDepCheckers.find? fun checker => checker.canHandle element).getD defaultChecker

/-- The names that must be active. -/
def dependencies (element : ConfigElement) : List String :=
  (reg.findDepChecker element).dependencies element

def isSatisfied (s : ConfigManager) (element : ConfigElement) : Bool :=
  (reg.dependencies element).all s.isElementInActiveList

end Registered

/-! ## Lists of requests -/

namespace ConfigManager

variable (s : ConfigManager)

/-- `addConfigurationAdditions`, `addConfigurationRemovals`, and `addConfigElement` for a
single element. -/
def addConfiguration (mType : PendingType) (cfg : List ConfigElement) : ConfigManager :=
  { s with mIncomingConfig := s.mIncomingConfig ++ cfg.map (PendingElement.mk mType) }

def refreshPendingList : ConfigManager := { s with mPendingCheckCount := 0 }

def pending_repeat_limit : Nat := 3

def shouldCheckPending : Bool × ConfigManager :=
  let cur_pending_size := s.mPendingConfig.length
  if cur_pending_size ≠ s.mLastPendingSize then
    (true, { s with mPendingCheckCount := 0, mLastPendingSize := cur_pending_size })
  else if s.mPendingCheckCount < pending_repeat_limit then
    (true, { s with mPendingCheckCount := s.mPendingCheckCount + 1 })
  else if s.mPendingCheckCount = pending_repeat_limit then
    (false, { s with mPendingCheckCount := s.mPendingCheckCount + 1 })
  else (false, s)

def mergeIncomingToPending : ConfigManager :=
  { s with remaining := s.remaining ++ s.mIncomingConfig, mIncomingConfig := [] }

def addPending (pendingElement : PendingElement) : ConfigManager :=
  { s with remaining := s.remaining ++ [pendingElement] }.refreshPendingList

/-- The request at `current` is erased. -/
def removePending : ConfigManager :=
  { s with remaining := s.remaining.tail, elements_processed := s.elements_processed + 1 }

/-- `current++` -/
def advance : ConfigManager :=
  { s with visited := s.visited ++ s.remaining.head?.toList, remaining := s.remaining.tail }

/-- `current = getPendingBegin()` -/
def rewind : ConfigManager :=
  { s with visited := [], remaining := s.mPendingConfig }

def addActive (element : ConfigElement) : ConfigManager :=
  { s with mActiveConfig := s.mActiveConfig ++ [element] }

def removeActive (elementName : String) : ConfigManager :=
  { s with mActiveConfig := Configuration.remove s.mActiveConfig elementName }

/-- The elements are tested one after the other. -/
def scanForLostDependencies (reg : Registered) : ConfigManager :=
  s.mActiveConfig.foldl (fun s element =>
    if reg.isSatisfied s element then s
    else (s.addPending ⟨.REMOVE, element⟩).addPending ⟨.ADD, element⟩) s

/-! ## Reconfiguration -/

/-- `attemptReconfiguration` up to the first handler. -/
def attemptReconfiguration (reg : Registered) : ConfigManager :=
  let (check, s) := s.mergeIncomingToPending.shouldCheckPending
  { s.rewind with
    handling := if check then reg.mElementHandlers else []
    elements_processed := 0 }

/-- The body of the loop in `configProcessPending`. `accepted` is what the handler answers
if it is asked. -/
def visit (reg : Registered) (accepted : Bool) : Option ConfigManager :=
  match s.handling, s.remaining with
  | handler :: _, cur :: _ =>
    if handler.configCanHandle cur.mElement then
      match cur.mType with
      | .ADD =>
        if reg.isSatisfied s cur.mElement then
          if accepted then some (s.removePending.addActive cur.mElement) else some s.advance
        else some s.advance
      | .REMOVE =>
        if accepted then
          some { s.removePending.removeActive cur.mElement.name with
            scan_for_lost_dependants := true }
        else some s.advance
    else some s.advance
  | _, _ => none

/-- The end of `configProcessPending`, and the beginning of that of the next handler. -/
def finish (reg : Registered) : Option ConfigManager :=
  match s.handling, s.remaining with
  | _ :: others, [] =>
    let s := if s.scan_for_lost_dependants then s.scanForLostDependencies reg else s
    some { s.rewind with handling := others, scan_for_lost_dependants := false }
  | _, _ => none

end ConfigManager

/-- What happens to a manager. -/
inductive Operation where
  | addConfiguration (mType : PendingType) (cfg : List ConfigElement)
  | refreshPendingList
  | attemptReconfiguration
  | visit (accepted : Bool)
  | finish
  deriving DecidableEq

/-- One step. A call of `attemptReconfiguration` begins when the one before has returned. -/
def step (reg : Registered) (s : ConfigManager) : Operation → Option ConfigManager
  | .addConfiguration mType cfg => some (s.addConfiguration mType cfg)
  | .refreshPendingList => some s.refreshPendingList
  | .attemptReconfiguration =>
    if s.handling.isEmpty then some (s.attemptReconfiguration reg) else none
  | .visit accepted => s.visit reg accepted
  | .finish => s.finish reg

end VRJuggler.Jccl
