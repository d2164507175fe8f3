import VRJuggler.Base.Lists
import VRJuggler.Config.UndoManager

/-!
# Editing configuration elements

Elements are objects, which data sources and other elements refer to. Each change that is made
through a context posts an edit that refers to the same objects.
-/
namespace VRJuggler.Config

/-! ## Elements -/

/-- A reference stands for an element object. -/
inductive PropertyValue where
  | boolean (value : Bool)
  | integer (value : Int)
  | float (bits : Nat)
  | string (value : String)
  /-- A `ConfigElementPointer`. Its target may be `null`. -/
  | pointer (mTarget : Option String)
  | element (reference : Nat)
  deriving DecidableEq

/-- The properties of a definition, and whether they have a variable number of values. -/
structure ElementType where
  token : String
  mVariable : List (String × Bool)
  deriving DecidableEq

structure ConfigElement where
  mName : String
  mDefinition : ElementType
  mProps : List (String × List PropertyValue)
  deriving DecidableEq

structure DataSource where
  elements : List Nat
  isReadOnly : Bool
  deriving DecidableEq

/-- The objects, under their references, and the data sources that the broker knows. -/
structure ElementStore where
  objects : List ConfigElement
  sources : List DataSource
  deriving DecidableEq

namespace ElementStore

variable (s : ElementStore)

/-! ## Equality -/

/-- The `equals` of a value. -/
def equalValues (equal : Nat → Nat → Bool) : PropertyValue → PropertyValue → Bool
  | .pointer mTarget, .pointer other =>
    match mTarget, other with
    | some mTarget, some other => mTarget = other
    | _, _ => true
  | .element reference, .element other => equal reference other
  | value, other => value = other

/-- `ConfigElement.equals`, where elements are embedded in each other so deep. -/
def equals : Nat → Nat → Nat → Bool
  | 0, reference, other => reference = other
  | depth + 1, reference, other =>
    reference = other ||
      match s.objects[reference]?, s.objects[other]? with
      | some c, some d =>
        c.mName = d.mName && c.mDefinition = d.mDefinition &&
          equalLists (fun p q => p.1 = q.1 && equalLists (equalValues (equals depth)) p.2 q.2)
            c.mProps d.mProps
      | _, _ => false

/-- No element is embedded in itself. -/
def equal (reference other : Nat) : Bool := s.equals s.objects.length reference other

/-- `List.indexOf` -/
def indexOf (elements : List Nat) (elt : Nat) : Option Nat :=
  elements.findIdx? fun other => s.equal elt other

/-! ## Names and properties -/

/-- The first list under the name. -/
def replaceValues (name : String) (values : List PropertyValue) :
    List (String × List PropertyValue) → List (String × List PropertyValue)
  | [] => []
  | p :: rest =>
    if p.1 = name then (name, values) :: rest else p :: replaceValues name values rest

def getPropertyValues (elt : Nat) (name : String) : Option (List PropertyValue) :=
  s.objects[elt]?.bind fun c => c.mProps.lookup name

def setPropertyValues (elt : Nat) (name : String) (values : List PropertyValue) : ElementStore :=
  { s with objects := s.objects.modify elt fun c =>
      { c with mProps := replaceValues name values c.mProps } }

/-- `PropertyDefinition.isVariable` of the property; there may be no such property. -/
def isVariable (elt : Nat) (name : String) : Bool :=
  (s.objects[elt]?.bind fun c => c.mDefinition.mVariable.lookup name) = some true

def getProperty (elt : Nat) (name : String) (index : Int) : Option PropertyValue :=
  if 0 ≤ index then (s.getPropertyValues elt name).bind fun values => values[index.toNat]?
  else none

def setName (elt : Nat) (name : String) : Option ElementStore :=
  s.objects[elt]?.map fun c => { s with objects := s.objects.set elt { c with mName := name } }

/-- The target of a pointer is set, another value is replaced. -/
def assign : PropertyValue → PropertyValue → Option PropertyValue
  | .pointer _, .string value => some (.pointer (some value))
  | .pointer _, .pointer mTarget => some (.pointer mTarget)
  | .pointer _, _ => none
  | _, value => some value

/-- `none`: an exception. -/
def setProperty (elt : Nat) (name : String) (index : Int) (value : PropertyValue) :
    Option ElementStore :=
  (s.getPropertyValues elt name).bind fun values =>
    (s.getProperty elt name index).bind fun old_value =>
      (assign old_value value).map fun new_value =>
        s.setPropertyValues elt name (values.set index.toNat new_value)

/-- The new values, and the index of the one that is added. -/
def addProperty (elt : Nat) (name : String) (index : Int) (value : PropertyValue) :
    Option (ElementStore × Nat) :=
  (s.getPropertyValues elt name).bind fun values =>
    if !s.isVariable elt name then none
    else if values.length ≤ index then
      some (s.setPropertyValues elt name (values ++ [value]), values.length)
    else if 0 ≤ index then
      some (s.setPropertyValues elt name (values.insertIdx index.toNat value), index.toNat)
    else none

def removeProperty (elt : Nat) (name : String) (index : Int) : Option ElementStore :=
  (s.getPropertyValues elt name).bind fun values =>
    if !s.isVariable elt name then none
    else if 0 ≤ index ∧ index < values.length then
      some (s.setPropertyValues elt name (values.eraseIdx index.toNat))
    else none

/-- Whether it throws, and what it leaves. A value whose new index is below zero is lost. -/
def setPropertyValueIndex (elt : Nat) (name : String) (oldIndex newIndex : Int) :
    Bool × ElementStore :=
  match s.getPropertyValues elt name, s.getProperty elt name oldIndex with
  | some values, some value =>
    if !s.isVariable elt name ∨ values.length ≤ newIndex then (true, s)
    else if oldIndex = newIndex then (false, s)
    else
      let removed := values.eraseIdx oldIndex.toNat
      if 0 ≤ newIndex then
        (false, s.setPropertyValues elt name (removed.insertIdx newIndex.toNat value))
      else (true, s.setPropertyValues elt name removed)
  | _, _ => (true, s)

/-! ## Data sources -/

def setElements (source : Nat) (elements : List Nat) : ElementStore :=
  { s with sources := s.sources.modify source fun data_source =>
      { data_source with elements := elements } }

/-- `ConfigBroker.add` up to the edit. -/
def brokerAdd (elt source : Nat) : Option ElementStore :=
  s.sources[source]?.bind fun dataSource =>
    if dataSource.isReadOnly then none
    else if (s.indexOf dataSource.elements elt).isSome then none
    else some (s.setElements source (dataSource.elements ++ [elt]))

/-- `ConfigBroker.remove` up to the edit. Where the element is not found, nothing is done and
no edit is posted. -/
def brokerRemove (elt source : Nat) : Option (Option ElementStore) :=
  s.sources[source]?.bind fun dataSource =>
    match s.indexOf dataSource.elements elt with
    | none => some none
    | some i =>
      if dataSource.isReadOnly then none
      else some (some (s.setElements source (dataSource.elements.eraseIdx i)))

end ElementStore

/-! ## Edits -/

inductive ElementEdit where
  /-- `ConfigElementNameEdit` -/
  | name (mConfigElement : Nat) (mOldName mNewName : String)
  /-- `ConfigElementPropertyEdit` -/
  | property (mElement : Nat) (mPropName : String) (mPropIndex : Int)
    (mOldValue mNewValue : PropertyValue)
  /-- `ConfigElementPropertyValueAddEdit` -/
  | valueAdd (mElement : Nat) (mPropName : String) (mAddedIndex : Nat)
    (mPropValue : PropertyValue)
  /-- `ConfigElementPropertyValueRemoveEdit` -/
  | valueRemove (mElement : Nat) (mPropName : String) (mRemovedIndex : Int)
    (mPropValue : PropertyValue)
  /-- `ConfigElementPropertyValueIndexEdit` -/
  | valueIndex (mElement : Nat) (mPropName : String) (mOldIndex mNewIndex : Int)
  /-- `ConfigContextEdit` -/
  | context (mConfigElement mSource : Nat) (mAddRemove : Bool)
  deriving DecidableEq

/-- What is done through a context. -/
inductive ElementOperation where
  | setName (elt : Nat) (name : String)
  | setProperty (elt : Nat) (name : String) (index : Int) (value : PropertyValue)
  | addProperty (elt : Nat) (name : String) (index : Int) (value : PropertyValue)
  | removeProperty (elt : Nat) (name : String) (index : Int)
  | setPropertyValueIndex (elt : Nat) (name : String) (oldIndex newIndex : Int)
  | add (elt source : Nat)
  | remove (elt source : Nat)
  deriving DecidableEq

open ElementStore

/-- Nothing is posted after an exception. -/
def posting (s : ElementStore) : Option (ElementStore × ElementEdit) →
    ElementStore × List ElementEdit
  | none => (s, [])
  | some (after, edit) => (after, [edit])

/-- The value that an edit records for a pointer is its target. -/
def recordedValue : PropertyValue → PropertyValue
  | .pointer mTarget => .string (mTarget.getD "")
  | value => value

/-- `ConfigBroker.add` and `ConfigBroker.remove` with a context. -/
def contextAdd (s : ElementStore) (elt source : Nat) : Option (ElementStore × ElementEdit) :=
  (s.brokerAdd elt source).map fun after => (after, .context elt source true)

def contextRemove (s : ElementStore) (elt source : Nat) :
    Option (Option (ElementStore × ElementEdit)) :=
  (s.brokerRemove elt source).map fun removed =>
    removed.map fun after => (after, .context elt source false)

def performOperation (s : ElementStore) : ElementOperation → ElementStore × List ElementEdit
  | .setName elt name =>
    posting s (s.objects[elt]?.bind fun c =>
      (s.setName elt name).map fun after => (after, .name elt c.mName name))
  | .setProperty elt name index value =>
    posting s ((s.getProperty elt name index).bind fun old_value =>
      if equalValues s.equal (recordedValue old_value) value then none
      else (s.setProperty elt name index value).map fun after =>
        (after, .property elt name index (recordedValue old_value) value))
  | .addProperty elt name index value =>
    posting s ((s.addProperty elt name index value).map fun added =>
      (added.1, .valueAdd elt name added.2 value))
  | .removeProperty elt name index =>
    posting s ((s.getProperty elt name index).bind fun old_value =>
      (s.removeProperty elt name index).map fun after =>
        (after, .valueRemove elt name index old_value))
  | .setPropertyValueIndex elt name oldIndex newIndex =>
    if oldIndex = newIndex then (s, [])
    else
      let moved := s.setPropertyValueIndex elt name oldIndex newIndex
      (moved.2, if moved.1 then [] else [.valueIndex elt name oldIndex newIndex])
  | .add elt source => posting s (contextAdd s elt source)
  | .remove elt source => posting s ((contextRemove s elt source).getD none)

/-- The edit of the context posts what the broker does. -/
def contextEdit (s : ElementStore) (add : Bool) (elt source : Nat) :
    Option (ElementStore × List ElementEdit) :=
  if add then (contextAdd s elt source).map fun added => posting s (some added)
  else (contextRemove s elt source).map fun removed => posting s removed

/-- The store after a change that posts nothing. -/
def quietly (after : Option ElementStore) : Option (ElementStore × List ElementEdit) :=
  after.map fun after => (after, [])

/-- An exception of `setPropertyValueIndex`. -/
def unlessThrown (called : Bool × ElementStore) : Option ElementStore :=
  if called.1 then none else some called.2

def undoEdit : ElementEdit → ElementStore → Option (ElementStore × List ElementEdit)
  | .name mConfigElement mOldName _, s => quietly (s.setName mConfigElement mOldName)
  | .property mElement mPropName mPropIndex mOldValue _, s =>
    quietly (s.setProperty mElement mPropName mPropIndex mOldValue)
  | .valueAdd mElement mPropName mAddedIndex _, s =>
    quietly (s.removeProperty mElement mPropName mAddedIndex)
  | .valueRemove mElement mPropName mRemovedIndex mPropValue, s =>
    quietly ((s.addProperty mElement mPropName mRemovedIndex mPropValue).map Prod.fst)
  | .valueIndex mElement mPropName mOldIndex mNewIndex, s =>
    quietly (unlessThrown (s.setPropertyValueIndex mElement mPropName mNewIndex mOldIndex))
  | .context mConfigElement mSource mAddRemove, s =>
    contextEdit s (!mAddRemove) mConfigElement mSource

def redoEdit : ElementEdit → ElementStore → Option (ElementStore × List ElementEdit)
  | .name mConfigElement _ mNewName, s => quietly (s.setName mConfigElement mNewName)
  | .property mElement mPropName mPropIndex _ mNewValue, s =>
    quietly (s.setProperty mElement mPropName mPropIndex mNewValue)
  | .valueAdd mElement mPropName mAddedIndex mPropValue, s =>
    quietly ((s.addProperty mElement mPropName mAddedIndex mPropValue).map Prod.fst)
  | .valueRemove mElement mPropName mRemovedIndex _, s =>
    quietly (s.removeProperty mElement mPropName mRemovedIndex)
  | .valueIndex mElement mPropName mOldIndex mNewIndex, s =>
    quietly (unlessThrown (s.setPropertyValueIndex mElement mPropName mOldIndex mNewIndex))
  | .context mConfigElement mSource mAddRemove, s =>
    contextEdit s mAddRemove mConfigElement mSource

def elementEdits : UndoableEdits ElementStore ElementOperation ElementEdit where
  perform operation s := performOperation s operation
  undo := undoEdit
  redo := redoEdit

/-- Two displays in one file. -/
def displays : ElementStore where
  objects := [
    { mName := "Wall"
      mDefinition := { token := "display_window", mVariable := [("size", false)] }
      mProps := [("size", [.integer 1024, .integer 768])] },
    { mName := "Floor"
      mDefinition := { token := "display_window", mVariable := [("size", false)] }
      mProps := [("size", [.integer 640, .integer 480])] }]
  sources := [{ elements := [0, 1], isReadOnly := false }]

end VRJuggler.Config
