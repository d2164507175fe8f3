import VRJuggler.ConfigIo.ElementDocuments

/-!
# Documents of definitions

All versions of a definition are written into one document, in the order of their numbers. A
transform is an XML element itself: the writer puts it into the document, and an element can be
in one document only. The parser clones it.
-/
namespace VRJuggler.ConfigIo

open Config

def defNs : String := "http://www.vrjuggler.org/jccl/xsd/3.1/definition"

/-- An element of the definition format. -/
def defElement (name : String) (attributes : List (String × String)) (text : String)
    (children : List Element) : Element where
  namespace_ := defNs
  name := name
  attributes := attributes
  text := normalize text
  children := children

theorem isNamed_defElement (name : String) (attributes : List (String × String)) (text : String)
    (children : List Element) :
    (defElement name attributes text children).isNamed defNs name = true := by
  simp [defElement, Element.isNamed]

theorem getChildren_defElement (name : String) (attributes : List (String × String))
    (text : String) (children : List Element) (child : String) :
    (defElement name attributes text children).getChildren child defNs =
      children.filter (Element.isNamed defNs child) := rfl

theorem getAttributeValue_defElement (name : String) (attributes : List (String × String))
    (text : String) (children : List Element) (key : String) :
    (defElement name attributes text children).getAttributeValue key = attributes.lookup key := rfl

/-- Elements of one name, among which those of a name are looked for. -/
theorem filter_isNamed {nodes : List Element} {name : String}
    (named : ∀ e ∈ nodes, e.isNamed defNs name = true) (other : String) :
    nodes.filter (Element.isNamed defNs other) = if name = other then nodes else [] := by
  split
  next same =>
    subst same
    exact List.filter_eq_self.mpr named
  next ne =>
    rw [List.filter_eq_nil_iff]
    intro e member
    have here := named e member
    simp only [Element.isNamed, Bool.and_eq_true, decide_eq_true_eq] at here ⊢
    rintro ⟨-, there⟩
    exact ne (here.2.symm.trans there)

/-- The first child of a name. -/
theorem getChild_eq_head? (e : Element) (name namespace_ : String) :
    e.getChild name namespace_ = (e.getChildren name namespace_).head? :=
  List.head?_filter.symm

def textElement (name text : String) : Element := defElement name [] text []

/-- `getTextTrim` -/
def Element.getTextTrim (e : Element) : String := trim e.text

mutual

/-- What the output makes of an element. -/
def Element.normalized : Element → Element
  | ⟨namespace_, name, attributes, text, children⟩ =>
    ⟨namespace_, name, attributes, normalize text, normalizedAll children⟩

def normalizedAll : List Element → List Element
  | [] => []
  | e :: rest => e.normalized :: normalizedAll rest

end

/-- The XML element of a transform, and whether it is in a document. -/
structure XmlNode where
  element : Element
  attached : Bool

/-- The transform is put into a document. -/
def addContent (nodes : List XmlNode) (reference : Nat) :
    Except Thrown (Element × List XmlNode) :=
  match nodes[reference]? with
  | none => .error .nullPointer
  | some node =>
    if node.attached then .error .illegalAdd
    else .ok (node.element.normalized, nodes.set reference { node with attached := true })

/-! ## Texts -/

section Texts

def valuetypeText : ValueType → String
  | .boolean => "boolean"
  | .integer => "integer"
  | .float => "float"
  | .string => "string"
  | .configElement => "configelement"
  | .configElementPointer => "configelementpointer"

def getValueTypeClass (valuetype : String) : Except Thrown ValueType :=
  if valuetype = "boolean" then .ok .boolean
  else if valuetype = "integer" then .ok .integer
  else if valuetype = "float" then .ok .float
  else if valuetype = "string" then .ok .string
  else if valuetype = "configelement" then .ok .configElement
  else if valuetype = "configelementpointer" then .ok .configElementPointer
  else .error (.parse ("Unknown valuetype: " ++ valuetype))

/-- `toString` of the class of the type. -/
def classText : ValueType → String
  | .boolean => "class java.lang.Boolean"
  | .integer => "class java.lang.Integer"
  | .float => "class java.lang.Float"
  | .string => "class java.lang.String"
  | .configElement => "class org.vrjuggler.jccl.config.ConfigElement"
  | .configElementPointer => "class org.vrjuggler.jccl.config.ConfigElementPointer"

def booleanText (value : Bool) : String := if value then "true" else "false"

/-- The value that a text stands for. A text that is missing is no number. -/
def convertTo (floats : FloatText) (valueStr : Option String) (type : ValueType) :
    Except Thrown (Option SimpleValue) :=
  let invalid : Thrown := .parse ("Invalid default value '" ++ valueStr.getD "null" ++
    "' for type " ++ classText type)
  match type with
  | .boolean => .ok (some (.boolean (valueStr.any isTrue)))
  | .integer => (required invalid (valueStr.bind parseInt)).map fun n => some (.integer n)
  | .float =>
    match valueStr with
    | none => .error .nullPointer
    | some text => (required invalid (floats.parse text)).map fun bits => some (.float bits)
  | .string => .ok (valueStr.map .string)
  | .configElement => .ok none
  | .configElementPointer => .ok (some (.pointer valueStr))

/-- The names in the path of a category. -/
def categoryNames (path : List Char) : List (List Char) := (path.splitOn '/').filter (· ≠ [])

/-- The constructor of `Category`, and `toString`. -/
def categoryText (path : String) : Except Thrown String :=
  if path.toList.head? = some '/' then
    .ok (String.ofList ('/' :: (categoryNames path.toList).flatMap (· ++ ['/'])))
  else .error (.illegalArgument "Path must start with a '/'")

end Texts

/-! ## The writer -/

section Writer

variable (floats : FloatText)

/-- The text of a value that is written into an attribute. -/
def attributeText : Option SimpleValue → Except Thrown String
  | none => .error .nullPointer
  | some value => required .illegalData (valueText floats value)

/-- The default value is written for simple types only. -/
def createValueElement (type : ValueType) (value : PropertyValueDefinition) :
    Except Thrown Element :=
  if type ≠ .configElement ∧ type ≠ .configElementPointer then do
    let text ← attributeText floats value.mDefaultValue
    pure (defElement "value" [("label", value.mLabel), ("defaultvalue", text)] "" [])
  else pure (defElement "value" [("label", value.mLabel)] "" [])

def createEnumElement (entry : String × Option ValueObject) : Except Thrown Element := do
  let text ← attributeText floats (entry.2.map (·.value))
  pure (defElement "enum" [("label", entry.1), ("value", text)] "" [])

/-- An enumeration without values is not written. -/
def createEnumeration (propDef : PropertyDefinition) : Except Thrown (List Element) :=
  if propDef.mEnums.entries = [] then pure []
  else do
    let enums ← propDef.mEnums.entries.mapM (createEnumElement floats)
    pure [defElement "enumeration" [("editable", booleanText propDef.mEditableEnum)] "" enums]

def createPropertyElement (propDef : PropertyDefinition) : Except Thrown Element := do
  let values ← propDef.mPropValueDefs.mapM (createValueElement floats propDef.mType)
  let enumeration ← createEnumeration floats propDef
  pure (defElement "property" [("valuetype", valuetypeText propDef.mType),
      ("variable", booleanText propDef.mVariable), ("name", propDef.mToken)] ""
    ([textElement "help" propDef.mHelp] ++ values ++
      propDef.mAllowedTypes.map (textElement "allowed_type") ++ enumeration))

/-- The content of `upgrade_transform`. -/
def addTransform (nodes : List XmlNode) :
    Option Nat → Except Thrown (List Element × List XmlNode)
  | none => pure ([], nodes)
  | some reference => do
    let (xslt_element, nodes) ← addContent nodes reference
    pure ([xslt_element], nodes)

/-- One version, with the properties that it has. -/
def addDefinition (nodes : List XmlNode) (d : ConfigDefinition) (defs : List PropertyDefinition) :
    Except Thrown (Element × List XmlNode) := do
  let properties ← defs.mapM (createPropertyElement floats)
  let (xform, nodes) ← addTransform nodes d.mXsltElement
  pure (defElement "definition_version" [("version", d.mVersion.repr), ("label", d.mName)] ""
    ([textElement "abstract" (booleanText d.mIsAbstract), textElement "help" d.mHelp] ++
      d.mParents.map (textElement "parent") ++ d.mCategories.map (textElement "category") ++
      properties ++ [defElement "upgrade_transform" [] "" xform]), nodes)

variable (repos : ConfigDefinitionRepository)

/-- The loop over the versions. -/
def addDefinitions (depth : Nat) :
    List XmlNode → List ConfigDefinition → Throwing Thrown (List Element × List XmlNode)
  | nodes, [] => pure ([], nodes)
  | nodes, d :: rest => do
    let defs ← ExceptT.lift (getPropertyDefinitions repos depth d)
    let (def_elt, nodes) ← ExceptT.mk (some (addDefinition floats nodes d defs))
    let (elts, nodes) ← addDefinitions depth nodes rest
    pure (def_elt :: elts, nodes)

def sortVersions (versions : List ConfigDefinition) : List ConfigDefinition :=
  versions.mergeSort fun d e => decide (d.mVersion ≤ e.mVersion)

/-- The document, and the list of versions, which has been sorted. -/
def writeDefinition (nodes : List XmlNode) (versions : List ConfigDefinition) (depth : Nat) :
    Throwing Thrown (Element × List ConfigDefinition × List XmlNode) :=
  match sortVersions versions with
  | [] => throw .indexOutOfBounds
  | first :: rest => do
    let (elts, nodes) ← addDefinitions floats repos depth nodes (first :: rest)
    pure (defElement "definition" [("name", first.mToken), ("icon_path", first.mIconLocation),
      ("xsi:schemaLocation", defNs ++ " " ++ defNs ++ ".xsd")] "" elts, first :: rest, nodes)

end Writer

/-! ## The parser -/

section Parser

variable (floats : FloatText)

/-- The text of a child that the schema requires. -/
def getChildTextTrim (root : Element) (name : String) : String :=
  ((root.getChild name defNs).map Element.getTextTrim).getD ""

def parseValue (valuetype : ValueType) (root : Element) :
    Except Thrown PropertyValueDefinition := do
  let label ← required (missingAttribute "label") (root.getAttributeValue "label")
  let defaultvalue_str := root.getAttributeValue "defaultvalue"
  if defaultvalue_str = none ∧ valuetype ≠ .configElement ∧ valuetype ≠ .configElementPointer then
    throw (missingAttribute "defaultvalue")
  else
    let defaultvalue ← convertTo floats defaultvalue_str valuetype
    pure ⟨label, defaultvalue⟩

/-- `Attribute.getBooleanValue`; another text is taken for `false`. -/
def editableText (text : String) : Bool :=
  let lower := (trim text).toList.map Char.toLower
  lower = "true".toList || lower = "on".toList || lower = "1".toList || lower = "yes".toList

def parseEnum (valuetype : ValueType) (elt : Element) :
    Except Thrown (String × Option SimpleValue) := do
  let value ← convertTo floats (elt.getAttributeValue "value") valuetype
  let label ← required .nullPointer (elt.getAttributeValue "label")
  pure (label, value)

/-- The objects of an enumeration are new, and told apart by their numbers. -/
def numbered (enums : List (String × Option SimpleValue)) : List (String × Option ValueObject) :=
  enums.zipIdx.map fun e => (e.1.1, e.1.2.map (⟨e.2 + 1, ·⟩))

def parseEnumeration (valuetype : ValueType) :
    Option Element → Except Thrown (Bool × SortedMap String (Option ValueObject))
  | none => pure (false, SortedMap.empty)
  | some enumeration => do
    let editable ← required .nullPointer (enumeration.getAttributeValue "editable")
    let enums ← (enumeration.getChildren "enum" defNs).mapM (parseEnum floats valuetype)
    pure (editableText editable, (numbered enums).foldl (fun enum_map e => enum_map.insert e.1 e.2)
      SortedMap.empty)

def parsePropertyDefinition (root : Element) : Except Thrown PropertyDefinition := do
  let valuetype_str ← required (missingAttribute "valuetype") (root.getAttributeValue "valuetype")
  let valuetype ← getValueTypeClass valuetype_str
  let name ← required (missingAttribute "name") (root.getAttributeValue "name")
  let variable_str ← required (missingAttribute "variable") (root.getAttributeValue "variable")
  let values ← (root.getChildren "value" defNs).mapM (parseValue floats valuetype)
  let enumeration ← parseEnumeration floats valuetype (root.getChild "enumeration" defNs)
  pure {
    mToken := name
    mType := valuetype
    mHelp := getChildTextTrim root "help"
    mPropValueDefs := values
    mEditableEnum := enumeration.1
    mEnums := enumeration.2
    mAllowedTypes := (root.getChildren "allowed_type" defNs).map Element.getTextTrim
    mVariable := isTrue variable_str }

/-- The texts of the children that are not empty. -/
def shownTexts (children : List Element) : List String :=
  (children.map Element.getTextTrim).filter (· ≠ "")

/-- The transform is a clone of the one in the document. -/
def parseTransform (nodes : List XmlNode) (root : Element) :
    Except Thrown (Option Nat × List XmlNode) := do
  let xform ← required .nullPointer (root.getChild "upgrade_transform" defNs)
  match xform.children with
  | [] => pure (none, nodes)
  | xslt_element :: _ => pure (some nodes.length, nodes ++ [⟨xslt_element, false⟩])

def parseDefinitionVersion (name icon_location : String) (nodes : List XmlNode) (root : Element) :
    Except Thrown (ConfigDefinition × List XmlNode) := do
  let version_str ← required (missingAttribute "version") (root.getAttributeValue "version")
  let version ← required (.parse ("Version is not an integer: " ++ version_str))
    (parseInt version_str)
  let label ← required (missingAttribute "label") (root.getAttributeValue "label")
  let categories ← (shownTexts (root.getChildren "category" defNs)).mapM categoryText
  let prop_defs ← (root.getChildren "property" defNs).mapM (parsePropertyDefinition floats)
  let (xslt_element, nodes) ← parseTransform nodes root
  pure ({
    mName := label
    mToken := name
    mIconLocation := icon_location
    mVersion := version
    mIsAbstract := isTrue (getChildTextTrim root "abstract")
    mParents := shownTexts (root.getChildren "parent" defNs)
    mHelp := getChildTextTrim root "help"
    mCategories := categories
    mPropertyDefs := prop_defs
    mXsltElement := xslt_element }, nodes)

def parseDefinitionVersions (name icon_location : String) :
    List XmlNode → List Element → Except Thrown (List ConfigDefinition × List XmlNode)
  | nodes, [] => pure ([], nodes)
  | nodes, elt :: rest => do
    let (d, nodes) ← parseDefinitionVersion floats name icon_location nodes elt
    let (defs, nodes) ← parseDefinitionVersions name icon_location nodes rest
    pure (d :: defs, nodes)

def parseDefinition (nodes : List XmlNode) (root : Element) :
    Except Thrown (List ConfigDefinition × List XmlNode) := do
  if root.name ≠ "definition" then throw (.parse "Root element must be: definition")
  else
    let token ← required (missingAttribute "name") (root.getAttributeValue "name")
    let icon_location := (root.getAttributeValue "icon_path").getD ""
    parseDefinitionVersions floats token icon_location nodes
      (root.getChildren "definition_version" defNs)

end Parser

end VRJuggler.ConfigIo
