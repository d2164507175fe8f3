import VRJuggler.Base.Separators
import VRJuggler.Jccl.LookupsEnd

/-!
# Embedded elements

`jccl::ConfigElement` refers to the node of an element, in which there is a node for each value
of a property: a text, or the node of an embedded element. The full name of an element is made
by climbing from its node, and a path is followed downwards with the definition of the element
that was asked.
-/
namespace VRJuggler.Jccl

/-! ## Nodes -/

/-- A name in XML, where `/` is not allowed. -/
structure XmlName where
  text : String
  plain : '/' ∉ text.toList

/-- What is in the node of a property. -/
inductive Content (ε : Type) where
  | empty
  | cdata (text : String)
  | element (e : ε)

/-- The node of an element has the name of its type. There is one node for each value. -/
structure Element where
  type : String
  name : String
  properties : List (XmlName × Content Element)

/-- The attribute is missing in a text, which has an empty string for it then. -/
def Content.hasName (name : String) : Content Element → Bool
  | .empty => false
  | .cdata _ => name = ""
  | .element e => e.name = name

/-- An element with those that it is in, the nearest first, and the properties. -/
structure Occurrence where
  node : Element
  above : List (XmlName × Element)

/-- The way down to a place; `above` is where `e` is itself. -/
def occurrence (above : List (XmlName × Element)) (e : Element) : List Nat → Option Occurrence
  | [] => some ⟨e, above⟩
  | i :: place =>
    match e.properties[i]? with
    | some (token, .element child) => occurrence ((token, e) :: above) child place
    | _ => none

/-! ## Full names -/

def EMBEDDED_SEPARATOR : String := "/"

/-- The loop of `getFullName`. A property with the name of a node above the elements ends it. -/
def climb (full_name : String) : List (XmlName × Element) → String
  | [] => full_name
  | (prop_parent, element_parent) :: above =>
    if prop_parent.text = "root" ∨ prop_parent.text = "elements" then full_name
    else
      climb (element_parent.name ++ EMBEDDED_SEPARATOR ++
        (prop_parent.text ++ EMBEDDED_SEPARATOR ++ full_name)) above

def Occurrence.getFullName (x : Occurrence) : String := climb x.node.name x.above

/-! ## Paths -/

def hasSeparator (path : String) : Bool := path.toList.contains '/'

def getRemainder (path : String) : String :=
  if hasSeparator path then String.ofList (behind '/' path.toList) else path

def getFirstNameComponent (path : String) : String :=
  if hasSeparator path then String.ofList (component '/' path.toList) else path

inductive VarType where
  | T_INT
  | T_FLOAT
  | T_BOOL
  | T_STRING
  | T_ELEMENT_PTR
  | T_CHILD_ELEMENT
  | VJ_T_INVALID
  deriving DecidableEq

def Child.getVarType (prop_def : Child) : VarType :=
  match (prop_def.attributes.lookup "valuetype").getD "" with
  | "integer" => .T_INT
  | "float" => .T_FLOAT
  | "boolean" => .T_BOOL
  | "string" => .T_STRING
  | "configelementpointer" => .T_ELEMENT_PTR
  | "configelement" => .T_CHILD_ELEMENT
  | _ => .VJ_T_INVALID

/-- A node that a path leads to. An element is known by its place. -/
inductive Node where
  | cdata
  | element (place : List Nat) (e : Element)

namespace Node

/-- The nodes of a property, with their positions. -/
def getChildren (token : String) : Node → List (Content Element × Nat)
  | .cdata => []
  | .element _ e =>
    (e.properties.zipIdx.filter fun p => p.1.1.text = token).map fun p => (p.1.2, p.2)

/-- The first child with the name, among those of one property. -/
def childNamed (name : String) : Node → List (Content Element × Nat) → Option Node
  | .cdata, _ => none
  | .element place _, props =>
    (props.find? fun p => p.1.hasName name).bind fun p =>
      match p.1 with
      | .empty => none
      | .cdata _ => some .cdata
      | .element child => some (.element (place ++ [p.2]) child)

end Node

theorem length_getRemainder {path : String} (separated : hasSeparator path = true) :
    (getRemainder path).toList.length < path.toList.length := by
  rw [getRemainder, if_pos separated, String.toList_ofList]
  exact length_behind (List.contains_iff_mem.mp separated)

theorem length_getRemainder_le (path : String) :
    (getRemainder path).toList.length ≤ path.toList.length := by
  by_cases separated : hasSeparator path = true
  · exact Nat.le_of_lt (length_getRemainder separated)
  · rw [getRemainder, if_neg separated]

/-- The loop of `getChildElement`. It fails where a look-up does not return, and where a null
pointer is used: a `root` that was not found, or the node of a property without definition. -/
def descend (getPropertyDefinition : String → Option (Option Child)) (root : Option Node)
    (working_path : String) : Option (Option Node) :=
  if separated : hasSeparator working_path = true then
    let prop_token := getFirstNameComponent working_path
    let rest := getRemainder working_path
    match getPropertyDefinition prop_token, root with
    | some (some prop_def), some node =>
      let props := node.getChildren prop_token
      if prop_def.getVarType = .T_CHILD_ELEMENT ∧ props ≠ [] then
        descend getPropertyDefinition (node.childNamed (getFirstNameComponent rest) props)
          (getRemainder rest)
      else descend getPropertyDefinition (some node) rest
    | _, _ => none
  else some root
termination_by working_path.toList.length
decreasing_by
  · exact Nat.lt_of_le_of_lt (length_getRemainder_le _) (length_getRemainder separated)
  · exact length_getRemainder separated

/-- What `getChildElement` returns. An element is invalid when its type has no definition. -/
inductive Found where
  | null
  | invalid
  | element (place : List Nat)

/-- The call for an element with the definition `mDef`. -/
def getChildElement (repository : DefinitionRepository) (depth : Nat) (mDef : Definition)
    (mNode : Element) (path : String) : Option Found :=
  (descend (getPropertyDefinition repository depth mDef) (some (.element [] mNode)) path).map
    fun root =>
      match root with
      | none => .null
      | some .cdata => .invalid
      | some (.element place e) =>
        if (repository.get e.type).isSome then .element place else .invalid

end VRJuggler.Jccl
