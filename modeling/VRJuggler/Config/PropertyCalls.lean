import Mathlib.Data.String.Basic
import Mathlib.Logic.Function.Basic
import VRJuggler.Base.SortedMap
import VRJuggler.Config.UndoManager

/-!
# Calls that change properties

The values of an element are objects: an exception leaves what was done before it, and a pointer
that is in two places has the same target in both. A call through a context posts an edit when
it has come to its end.
-/
namespace VRJuggler.Config.PropertyCalls

/-! ## Objects -/

inductive Thrown where
  /-- An `IllegalArgumentException`. -/
  | illegalArgument (message : String)
  | indexOutOfBounds
  | nullPointer
  | classCast
  deriving DecidableEq

/-- A value of a property. The reference tells a string from an equal one, and stands for the
pointer; objects of other classes are in `α`. -/
inductive Value (α : Type) where
  | null
  | string (reference : Nat) (value : String)
  | pointer (reference : Nat)
  | other (object : α)
  deriving DecidableEq

def Value.isNull {α : Type} : Value α → Bool
  | .null => true
  | _ => false

/-- The targets of the pointers, and for each element the values of its properties and which
properties its definition has, with a variable number of values or not. -/
structure Objects (α : Type) where
  mTarget : Nat → Option String
  mProps : Nat → SortedMap String (List (Value α))
  mDefinition : Nat → List (String × Bool)

inductive Edit (α : Type) where
  /-- `ConfigElementPropertyEdit` -/
  | property (mElement : Nat) (mPropName : String) (mPropIndex : Int)
      (mOldValue mNewValue : Value α)
  /-- `ConfigElementPropertyValueAddEdit` -/
  | valueAdd (mElement : Nat) (mPropName : String) (mAddedIndex : Int) (mPropValue : Value α)
  /-- `ConfigElementPropertyValueRemoveEdit` -/
  | valueRemove (mElement : Nat) (mPropName : String) (mRemovedIndex : Int) (mPropValue : Value α)
  /-- `ConfigElementPropertyValueIndexEdit` -/
  | valueIndex (mElement : Nat) (mPropName : String) (mOldIndex mNewIndex : Int)

/-- The objects, and the undo manager of the context. -/
abbrev State (α : Type) := ConfigUndoManager (Objects α) (Edit α)

/-- A call changes the objects and returns or throws. -/
abbrev Method (α β : Type) := EStateM Thrown (State α) β

variable {α β : Type}

/-- The list of the values is changed in place. -/
def Objects.put (o : Objects α) (elt : Nat) (name : String) (values : List (Value α)) :
    Objects α :=
  { o with mProps := Function.update o.mProps elt ((o.mProps elt).insert name values) }

/-- `ConfigElementPointer.setTarget` -/
def Objects.retarget (o : Objects α) (cep : Nat) (target : Option String) : Objects α :=
  { o with mTarget := Function.update o.mTarget cep target }

/-- The target of a pointer as text. -/
def Objects.targetText (o : Objects α) (cep : Nat) : String := (o.mTarget cep).getD ""

/-- The old value that is compared and recorded: of a pointer, its target. -/
def Objects.recorded (o : Objects α) : Value α → Value α
  | .pointer cep => .string 0 (o.targetText cep)
  | value => value

/-- `equals` of an object. A pointer without target equals every pointer. -/
def Objects.equals (equalObjects : α → α → Bool) (o : Objects α) : Value α → Value α → Bool
  | .string _ value, .string _ other => value = other
  | .pointer cep, .pointer other =>
    match o.mTarget cep, o.mTarget other with
    | some mTarget, some other => mTarget = other
    | _, _ => true
  | .other object, .other other => equalObjects object other
  | _, _ => false

/-- `List.indexOf` compares `null` by itself. -/
def Objects.indexOf (equalObjects : α → α → Bool) (o : Objects α) (values : List (Value α)) :
    Value α → Option Nat
  | .null => values.findIdx? Value.isNull
  | value => values.findIdx? (o.equals equalObjects value)

namespace Method

/-! ## Lists -/

/-- `List.get` -/
def elementAt (values : List (Value α)) (index : Int) : Method α (Value α) :=
  if 0 ≤ index then
    match values[index.toNat]? with
    | some value => pure value
    | none => throw .indexOutOfBounds
  else throw .indexOutOfBounds

def getPropertyValues (elt : Nat) (name : String) : Method α (List (Value α)) := do
  let s ← get
  match (s.configuration.mProps elt).find name with
  | some values => pure values
  | none => throw (.illegalArgument ("Invalid property: " ++ name))

def setValues (elt : Nat) (name : String) (values : List (Value α)) : Method α PUnit :=
  modify fun s => { s with configuration := s.configuration.put elt name values }

def setTarget (cep : Nat) (target : Option String) : Method α PUnit :=
  modify fun s => { s with configuration := s.configuration.retarget cep target }

/-- `List.remove` -/
def removeAt (elt : Nat) (name : String) (values : List (Value α)) (index : Int) :
    Method α (Value α) := do
  let value ← elementAt values index
  setValues elt name (values.eraseIdx index.toNat)
  pure value

/-- `List.add` -/
def insertAt (elt : Nat) (name : String) (values : List (Value α)) (index : Int)
    (value : Value α) : Method α PUnit :=
  if 0 ≤ index ∧ index ≤ values.length then
    setValues elt name (values.insertIdx index.toNat value)
  else throw .indexOutOfBounds

/-- Whether the property is variable, by `getPropertyDefinition`. -/
def isVariable (elt : Nat) (name : String) : Method α Bool := do
  let s ← get
  match (s.configuration.mDefinition elt).lookup name with
  | some mVariable => pure mVariable
  | none => throw (.illegalArgument ("Invalid property definition: " ++ name))

def postEdit (anEdit : Edit α) : Method α PUnit := modify (·.addEdit anEdit)

/-- The old value is compared with the new one before the listeners are told. -/
def firePropertyValueChanged (elt : Nat) (name : String) (index : Int) (oldValue : Value α) :
    Method α PUnit := do
  let values ← getPropertyValues elt name
  let _ ← elementAt values index
  if oldValue.isNull then throw .nullPointer else pure ⟨⟩

/-! ## `setProperty` -/

def setProperty (elt : Nat) (name : String) (index : Int) (value : Value α) :
    Method α PUnit := do
  let values ← getPropertyValues elt name
  let old_value ← elementAt values index
  match old_value with
  | .pointer cep =>
    let s ← get
    let old_value := s.configuration.recorded old_value
    match value with
    | .string _ text => setTarget cep (some text)
    | .pointer other => setTarget cep (s.configuration.mTarget other)
    | .null => throw .nullPointer
    | .other _ => throw .classCast
    firePropertyValueChanged elt name index old_value
  | _ =>
    setValues elt name (values.set index.toNat value)
    firePropertyValueChanged elt name index old_value

variable (equalObjects : α → α → Bool)

/-- Through a context, a value that equals the old one is not set. -/
def setPropertyIn (elt : Nat) (name : String) (index : Int) (value : Value α) :
    Method α PUnit := do
  let values ← getPropertyValues elt name
  let old_value ← elementAt values index
  let s ← get
  let old_value := s.configuration.recorded old_value
  if old_value.isNull then throw .nullPointer
  else if s.configuration.equals equalObjects old_value value then pure ⟨⟩
  else
    setProperty elt name index value
    postEdit (.property elt name index old_value value)

/-! ## `addProperty` -/

def addPropertyAt (elt : Nat) (name : String) (index : Int) (value : Value α) :
    Method α Int := do
  let values ← getPropertyValues elt name
  let mVariable ← isVariable elt name
  if mVariable then
    if values.length ≤ index then
      setValues elt name (values ++ [value])
      pure values.length
    else
      insertAt elt name values index value
      pure index
  else throw (.illegalArgument (name ++ " does not support a variable number of values"))

def addProperty (elt : Nat) (name : String) (value : Value α) : Method α Int := do
  let values ← getPropertyValues elt name
  addPropertyAt elt name values.length value

def addPropertyAtIn (elt : Nat) (name : String) (index : Int) (value : Value α) :
    Method α Int := do
  let added_index ← addPropertyAt elt name index value
  postEdit (.valueAdd elt name added_index value)
  pure added_index

def addPropertyIn (elt : Nat) (name : String) (value : Value α) : Method α Int := do
  let values ← getPropertyValues elt name
  addPropertyAtIn elt name values.length value

/-! ## `removeProperty` -/

def removePropertyAt (elt : Nat) (name : String) (index : Int) : Method α Int := do
  let values ← getPropertyValues elt name
  let mVariable ← isVariable elt name
  if mVariable then
    let _ ← removeAt elt name values index
    pure index
  else throw (.illegalArgument (name ++ " does not support a variable number of values"))

def removePropertyAtIn (elt : Nat) (name : String) (index : Int) : Method α Int := do
  let values ← getPropertyValues elt name
  let old_value ← elementAt values index
  let removed_index ← removePropertyAt elt name index
  if 0 ≤ removed_index then
    postEdit (.valueRemove elt name removed_index old_value)
    pure removed_index
  else pure removed_index

def removeProperty (elt : Nat) (name : String) (oldValue : Value α) : Method α Int := do
  let values ← getPropertyValues elt name
  let s ← get
  match s.configuration.indexOf equalObjects values oldValue with
  | some index =>
    let _ ← removePropertyAt elt name index
    pure index
  | none => pure (-1)

def removePropertyIn (elt : Nat) (name : String) (oldValue : Value α) : Method α Int := do
  let values ← getPropertyValues elt name
  let s ← get
  match s.configuration.indexOf equalObjects values oldValue with
  | some index => removePropertyAtIn elt name index
  | none => pure (-1)

/-! ## `setPropertyValueIndex` -/

/-- Only the upper end of the range is checked. -/
def setPropertyValueIndex (elt : Nat) (name : String) (oldIndex newIndex : Int) :
    Method α PUnit := do
  let mVariable ← isVariable elt name
  if mVariable then
    let values ← getPropertyValues elt name
    if values.length ≤ oldIndex ∨ values.length ≤ newIndex then
      throw (.illegalArgument ("Value indices out of range [0," ++
        (values.length - 1 : Int).repr ++ "]: oldIndex == " ++ oldIndex.repr ++
        ", newIndex == " ++ newIndex.repr))
    else if oldIndex ≠ newIndex then
      let value ← removeAt elt name values oldIndex
      let prop_values ← getPropertyValues elt name
      insertAt elt name prop_values newIndex value
    else pure ⟨⟩
  else throw (.illegalArgument ("Value reordering not allowed for property type " ++ name ++
    " which has a static value count and ordering"))

def setPropertyValueIndexIn (elt : Nat) (name : String) (oldIndex newIndex : Int) :
    Method α PUnit := do
  if oldIndex ≠ newIndex then
    setPropertyValueIndex elt name oldIndex newIndex
    postEdit (.valueIndex elt name oldIndex newIndex)
  else pure ⟨⟩

variable [DecidableEq α]

/-- The index of the object itself, or -1. -/
def indexOfObject (values : List (Value α)) (value : Value α) : Int :=
  match values.findIdx? (· = value) with
  | some index => index
  | none => -1

def getPropertyValueIndex (elt : Nat) (name : String) (value : Value α) : Method α Int := do
  let values ← getPropertyValues elt name
  pure (indexOfObject values value)

def moveValue (elt : Nat) (name : String) (value : Value α) (newIndex : Int) :
    Method α PUnit := do
  let oldIndex ← getPropertyValueIndex elt name value
  setPropertyValueIndex elt name oldIndex newIndex

def moveValueIn (elt : Nat) (name : String) (value : Value α) (newIndex : Int) :
    Method α PUnit := do
  let oldIndex ← getPropertyValueIndex elt name value
  setPropertyValueIndexIn elt name oldIndex newIndex

end Method

end VRJuggler.Config.PropertyCalls
