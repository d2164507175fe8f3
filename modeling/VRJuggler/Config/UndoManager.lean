import VRJuggler.Base.Run

/-!
# The undo manager of a configuration context

`ConfigUndoManager` counts the edits beside the list that `javax.swing.undo.UndoManager` keeps:
undo and redo walk along it, a new edit discards what could be redone, and only so many edits
are kept.
-/
namespace VRJuggler.Config

/-! ## Edits -/

/-- Operations on a configuration that is held in a context, and the edits they post. -/
structure UndoableEdits (σ α ε : Type) where
  /-- What an operation leaves, and what it posts. -/
  perform : α → σ → σ × List ε
  /-- What an edit leaves when it is undone, and what is posted meanwhile. An edit that throws
  leaves the configuration as it is. -/
  undo : ε → σ → Option (σ × List ε)
  redo : ε → σ → Option (σ × List ε)

/-- A configuration and its manager. The next edit to undo or to redo is the first one. -/
structure ConfigUndoManager (σ ε : Type) where
  configuration : σ
  undoable : List ε
  redoable : List ε
  mUndoInProgress : Bool
  mEditOffsetFromSave : Int

namespace ConfigUndoManager

variable {σ α ε : Type} (edits : UndoableEdits σ α ε) (m : ConfigUndoManager σ ε)

def initial (configuration : σ) : ConfigUndoManager σ ε where
  configuration := configuration
  undoable := []
  redoable := []
  mUndoInProgress := false
  mEditOffsetFromSave := 0

/-! ## `UndoManager` -/

def limit : Nat := 100

/-- The oldest edits are dropped. -/
def superAddEdit (anEdit : ε) : ConfigUndoManager σ ε :=
  { m with undoable := (anEdit :: m.undoable).take limit, redoable := [] }

/-! ## `ConfigUndoManager` -/

def addEdit (anEdit : ε) : ConfigUndoManager σ ε :=
  if m.mUndoInProgress then m
  else { m with mEditOffsetFromSave := m.mEditOffsetFromSave + 1 }.superAddEdit anEdit

/-- `UndoManager.undo`, and whether it throws. -/
def superUndo : Bool × ConfigUndoManager σ ε :=
  match m.undoable with
  | [] => (true, m)
  | edit :: rest =>
    let m := { m with undoable := rest, redoable := edit :: m.redoable }
    match edits.undo edit m.configuration with
    | none => (true, m)
    | some (configuration, posted) => (false, posted.foldl addEdit { m with configuration })

/-- `UndoManager.redo`, and whether it throws. -/
def superRedo : Bool × ConfigUndoManager σ ε :=
  match m.redoable with
  | [] => (true, m)
  | edit :: rest =>
    let m := { m with undoable := edit :: m.undoable, redoable := rest }
    match edits.redo edit m.configuration with
    | none => (true, m)
    | some (configuration, posted) => (false, posted.foldl addEdit { m with configuration })

def canRedo : Bool := !m.redoable.isEmpty

/-- The last statement is not reached when an exception is thrown before it. -/
def finish (called : Bool × ConfigUndoManager σ ε) : Bool × ConfigUndoManager σ ε :=
  if called.1 then called else (false, { called.2 with mUndoInProgress := false })

def undo : Bool × ConfigUndoManager σ ε :=
  let m := { m with mUndoInProgress := true }
  finish ({ m with mEditOffsetFromSave := m.mEditOffsetFromSave - 1 }.superUndo edits)

def redo : Bool × ConfigUndoManager σ ε :=
  let m := { m with mUndoInProgress := true }
  finish ({ m with mEditOffsetFromSave := m.mEditOffsetFromSave + 1 }.superRedo edits)

/-- The loop of `undoUntil`, where so many edits lie behind the save point. -/
def undoLoop : Nat → ConfigUndoManager σ ε → Bool × ConfigUndoManager σ ε
  | 0, m => (false, m)
  | count + 1, m =>
    let called := { m with mEditOffsetFromSave := m.mEditOffsetFromSave - 1 }.superUndo edits
    if called.1 then called else undoLoop count called.2

def undoUntil (savePoint : Int) : Bool × ConfigUndoManager σ ε :=
  finish (undoLoop edits (m.mEditOffsetFromSave - savePoint).toNat
    { m with mUndoInProgress := true })

def undoAll : Bool × ConfigUndoManager σ ε := m.undoUntil edits 0

/-- The loops of `redoAll` and `redoUntil`. Each edit that can be redone is redone once. -/
def redoLoop (goOn : ConfigUndoManager σ ε → Bool) :
    Nat → ConfigUndoManager σ ε → Bool × ConfigUndoManager σ ε
  | 0, m => (false, m)
  | count + 1, m =>
    if goOn m && m.canRedo then
      let called := { m with mEditOffsetFromSave := m.mEditOffsetFromSave + 1 }.superRedo edits
      if called.1 then called else redoLoop goOn count called.2
    else (false, m)

def redoAll : Bool × ConfigUndoManager σ ε :=
  finish (redoLoop edits (fun _ => true) m.redoable.length { m with mUndoInProgress := true })

def redoUntil (savePoint : Int) : Bool × ConfigUndoManager σ ε :=
  finish (redoLoop edits (fun m => m.mEditOffsetFromSave < savePoint) m.redoable.length
    { m with mUndoInProgress := true })

def saveHappened : ConfigUndoManager σ ε := { m with mEditOffsetFromSave := 0 }

def getUnsavedChanges : Bool := m.mEditOffsetFromSave ≠ 0

/-- An operation is performed through the context of the manager. -/
def perform (operation : α) : ConfigUndoManager σ ε :=
  let performed := edits.perform operation m.configuration
  performed.2.foldl addEdit { m with configuration := performed.1 }

end ConfigUndoManager

/-! ## Calls -/

inductive Call (α : Type) where
  | perform (operation : α)
  | undo
  | undoUntil (savePoint : Int)
  | undoAll
  | redo
  | redoUntil (savePoint : Int)
  | redoAll
  | saveHappened
  deriving DecidableEq

open ConfigUndoManager in
/-- Whether a call throws, and what it leaves. -/
def call {σ α ε : Type} (edits : UndoableEdits σ α ε) (m : ConfigUndoManager σ ε) :
    Call α → Bool × ConfigUndoManager σ ε
  | .perform operation => (false, m.perform edits operation)
  | .undo => m.undo edits
  | .undoUntil savePoint => m.undoUntil edits savePoint
  | .undoAll => m.undoAll edits
  | .redo => m.redo edits
  | .redoUntil savePoint => m.redoUntil edits savePoint
  | .redoAll => m.redoAll edits
  | .saveHappened => (false, m.saveHappened)

/-! ## Edits that are exact -/

/-- The edit leads from one configuration to the other and back, without an exception. -/
def Exact {σ α ε : Type} (edits : UndoableEdits σ α ε) (before : σ) (edit : ε) (after : σ) :
    Prop :=
  (edits.undo edit after).map Prod.fst = some before ∧
    (edits.redo edit before).map Prod.fst = some after

end VRJuggler.Config
