import VRJuggler.ConfigIo.Elements

/-!
# Documents of configurations

The writer puts each value of a property into an XML element of its own, a value of an
enumeration under its label. The parser upgrades elements of older versions, and takes a text
that is a label for the value of the label.
-/
namespace VRJuggler.ConfigIo

open Config

def cfgNs : String := "http://www.vrjuggler.org/jccl/xsd/3.0/configuration"

/-- An element of the configuration format. -/
def cfgElement (name : String) (text : String) (children : List Element) : Element where
  namespace_ := cfgNs
  name := name
  attributes := []
  text := normalize text
  children := children

/-! ## Texts of values -/

section Texts

variable (floats : FloatText)

/-- `toString`; `none`: `null`. -/
def valueText : SimpleValue → Option String
  | .boolean value => if value then "true" else "false"
  | .integer value => value.repr
  | .float bits => floats.toText bits
  | .string value => value
  | .pointer mTarget => mTarget

/-- The operator `==`. An object with the identity 0 is one that nothing else refers to. -/
def isSameObject (v w : ValueObject) : Bool := v.identity = w.identity && v.identity ≠ 0

/-- The label of the enumeration under which the value itself is. -/
def getValueString (d : PropertyDefinition) (value : ValueObject) : Option String :=
  let label := d.mEnums.entries.find? fun e => e.2.any fun w => isSameObject w value
  if d.mEnums.entries.any fun e => e.2.any fun w => value.value.equals w.value then
    match label with
    | some e => some e.1
    | none => valueText floats value.value
  else valueText floats value.value

/-- `"true".equalsIgnoreCase` -/
def isTrue (text : String) : Bool := text.toList.map Char.toLower = "true".toList

/-- `none`: a `NumberFormatException`, or an unknown type. -/
def convert (text : String) : ValueType → Option SimpleValue
  | .boolean => some (.boolean (isTrue (if text = "1" then "true" else text)))
  | .integer => (parseInt text).map .integer
  | .float => (floats.parse text).map .float
  | .string => some (.string text)
  | .configElementPointer => some (.pointer (some text))
  | .configElement => none

end Texts

/-! ## The writer -/

section Writer

variable (floats : FloatText) (repos : ConfigDefinitionRepository)

/-- One value of a property. `addElement` writes embedded elements. -/
def addValue (addElement : ConfigElement → Throwing Thrown Element) (prop_def : PropertyDefinition)
    (prop_value : Value ConfigElement) : Throwing Thrown Element :=
  if prop_def.mType ≠ .configElement then
    match prop_value with
    | .object value =>
      pure (cfgElement prop_def.mToken ((getValueString floats prop_def value).getD "") [])
    -- `Object.toString`, less the hash code
    | .element _ => pure (cfgElement prop_def.mToken "org.vrjuggler.jccl.config.ConfigElement@" [])
    | .null => throw .nullPointer
  else
    match prop_value with
    | .element elt => do
      let child ← addElement elt
      pure (cfgElement prop_def.mToken "" [child])
    | .object _ => throw .classCast
    | .null => throw .nullPointer

/-- `depth` calls fit on the stack. -/
def addElement : Nat → ConfigElement → Throwing Thrown Element
  | 0, _ => none
  | depth + 1, elt => do
    let defs ← ExceptT.lift (getPropertyDefinitions repos depth elt.mDefinition)
    let children ← defs.mapM fun prop_def => do
      let values ← Throwing.orThrow
        (.illegalArgument ("Invalid property: " ++ prop_def.mToken))
        (elt.mProps.lookup prop_def.mToken)
      values.mapM (addValue floats (addElement depth) prop_def)
    pure { cfgElement elt.mDefinition.mToken "" children.flatten with
      attributes := [("name", elt.mName), ("version", elt.mDefinition.mVersion.repr)] }

/-- The root of the document. The definition path is not written. -/
def writeConfiguration (depth : Nat) (config : Configuration) : Throwing Thrown Element := do
  let elements ← config.mElements.mapM (addElement floats repos depth)
  let children := config.mIncludes.map (cfgElement "include" · []) ++
    [cfgElement "elements" "" elements]
  pure { cfgElement "configuration" "" children with
    attributes :=
      [("name", config.mName), ("xsi:schemaLocation", cfgNs ++ " " ++ cfgNs ++ ".xsd")] }

end Writer

/-! ## The parser -/

section Parser

variable (floats : FloatText) (transform : Nat → Element → Option (Element × List Element))

/-- A `ParseException` gets more text, another exception stays. -/
def withDetail (detail : String → String) : Thrown → Thrown
  | .parse message => .parse (detail message)
  | e => e

/-- `parse` parses embedded elements. -/
def parsePropertyValue (parse : Element → Throwing Thrown (ConfigElement × List Element))
    (propDef : PropertyDefinition) (elt : Element) : Throwing Thrown (Value ConfigElement) :=
  let valueStr := trim elt.text
  match propDef.mEnums.find valueStr with
  | some (some value) => pure (.object value)
  | some none => pure .null
  | none =>
    Throwing.rethrow (withDetail (· ++ "\nCaught while parsing property " ++ propDef.mToken)) do
      if propDef.mType ≠ .configElement then
        let value ← Throwing.orThrow (.parse ("Invalid value \"" ++ valueStr ++ "\""))
          (convert floats valueStr propDef.mType)
        pure (.object ⟨0, value⟩)
      else
        let config_element_node ← Throwing.orThrow .indexOutOfBounds elt.children.head?
        -- the elements that are created here get lost
        let (config_element, _) ← parse config_element_node
        pure (.element config_element)

/-- Of the elements with the property, the first `count` stay. -/
def removeExcess (p : Element → Bool) : Nat → List Element → List Element
  | _, [] => []
  | 0, e :: rest => if p e then removeExcess p 0 rest else e :: removeExcess p 0 rest
  | count + 1, e :: rest =>
    e :: if p e then removeExcess p count rest else removeExcess p (count + 1) rest

theorem filter_removeExcess (p : Element → Bool) (count : Nat) (children : List Element) :
    (removeExcess p count children).filter p = (children.filter p).take count := by
  induction children generalizing count with
  | nil => cases count <;> simp [removeExcess]
  | cons e rest ih =>
    by_cases named : p e
    · cases count <;> simp [removeExcess, named, ih]
    · cases count <;> simp [removeExcess, named, ih]

/-- Other elements stay. -/
theorem filter_removeExcess_of_ne {p q : Element → Bool} (disjoint : ∀ e, q e = true → p e = false)
    (count : Nat) (children : List Element) :
    (removeExcess p count children).filter q = children.filter q := by
  induction children generalizing count with
  | nil => cases count <;> rfl
  | cons e rest ih =>
    by_cases named : p e
    · have other : q e = false := by
        cases here : q e with
        | false => rfl
        | true => rw [disjoint e here] at named; cases named
      cases count <;> simp [removeExcess, named, other, ih]
    · cases count <;> simp [removeExcess, named, List.filter_cons, ih]

/-- The default value for a missing value. -/
def defaultAt (propDef : PropertyDefinition) (index : Nat) : Value ConfigElement :=
  match propDef.mPropValueDefs[index]?.bind (·.mDefaultValue) with
  | some value => .object ⟨0, value⟩
  | none => .null

/-- The values of the property, and the children that are left: excess ones are removed from
the document. -/
def parsePropertyValues (parse : Element → Throwing Thrown (ConfigElement × List Element))
    (propDef : PropertyDefinition) (children : List Element) :
    Throwing Thrown (List (Value ConfigElement) × List Element) := do
  let named := Element.isNamed cfgNs propDef.mToken
  let size := (children.filter named).length
  let count := propDef.mPropValueDefs.length
  let missing_values :=
    if !propDef.mVariable && size < count then
      List.replicate (count - size) (defaultAt propDef size)
    else []
  let children :=
    if !propDef.mVariable && count < size then removeExcess named count children else children
  let values ← (children.filter named).mapM (parsePropertyValue floats parse propDef)
  pure (values ++ missing_values, children)

def parseProperties (parse : Element → Throwing Thrown (ConfigElement × List Element)) :
    List PropertyDefinition → List Element → List (String × List (Value ConfigElement)) →
      Throwing Thrown (List (String × List (Value ConfigElement)))
  | [], _, props => pure props
  | prop_def :: rest, children, props => do
    let (values, children) ← parsePropertyValues floats parse prop_def children
    parseProperties parse rest children (SortedMap.insertEntry prop_def.mToken values props)

variable (repos : ConfigDefinitionRepository)

/-- The loop over the next versions, from `ver_num` on. A transform gives the upgraded element
and further elements. -/
def upgrade (token : String) : Nat → Int → Element → Throwing Thrown (Element × List Element)
  | 0, _, root => pure (root, [])
  | count + 1, ver_num, root => do
    let next ← Throwing.orThrow .nullPointer (repos.getVersion token (ver_num + 1))
    let xslt_element ← Throwing.orThrow
      (.parse ("Could not find XSLT transformation for: " ++ token ++ " Version: " ++
        (ver_num + 1).repr)) next.mXsltElement
    let (root, createdElts) ← Throwing.orThrow (.parse "Could not transform using XSLT.")
      (transform xslt_element root)
    let (root, more) ← upgrade token count (ver_num + 1) root
    pure (root, createdElts ++ more)

/-- The element, and the elements that were created by upgrading it. -/
def parse : Nat → Element → Throwing Thrown (ConfigElement × List Element)
  | 0, _ => none
  | depth + 1, root => do
    let token := root.name
    let version_str ← Throwing.orThrow (missingAttribute "version")
      (root.getAttributeValue "version")
    let our_version ← Throwing.orThrow (.parse ("Version string is not a number: " ++ version_str))
      (parseInt version_str)
    let name ← Throwing.orThrow (missingAttribute "name") (root.getAttributeValue "name")
    let newest_version_number ← Throwing.orThrow
      (.parse ("Failed to find definition of type '" ++ token ++ "'"))
      (repos.getNewestVersionNumber token)
    let (root, createdElts) ← upgrade transform repos token
      (newest_version_number - our_version).toNat our_version root
    let mDefinition ← Throwing.orThrow
      (.parse ("Could not find definition: " ++ token ++ " version " ++
        newest_version_number.repr)) (repos.getVersion token newest_version_number)
    Throwing.rethrow
        (withDetail ("Failed to parse config element \"" ++ name ++ "\"\n" ++ ·)) do
      let defs ← ExceptT.lift (getPropertyDefinitions repos depth mDefinition)
      let mProps ← parseProperties floats (parse depth) defs root.children []
      pure (⟨name, mDefinition, mProps⟩, createdElts)

/-- Elements that are created are parsed in turn, until no more are. -/
def parseElementLists (depth : Nat) : Nat → List Element → Throwing Thrown (List ConfigElement)
  | 0, _ => none
  | rounds + 1, xmlElements => do
    if xmlElements.isEmpty then pure []
    else
      let results ← xmlElements.mapM (parse floats transform repos depth)
      let more ← parseElementLists depth rounds (results.flatMap (·.2))
      pure (results.map (·.1) ++ more)

def parseElements (depth : Nat) (root : Option Element) : Throwing Thrown (List ConfigElement) := do
  let root ← Throwing.orThrow .nullPointer root
  if root.name ≠ "elements" then throw (.parse "Root element must be: elements")
  else parseElementLists floats transform repos depth depth root.children

def parseDefinitionPath (root : Element) : List String :=
  (root.getChildren "dir" cfgNs).map fun elt => trim elt.text

/-- `definitionsIn`: the definitions in the files of a directory. -/
def parseConfiguration (definitionsIn : String → List ConfigDefinition) (depth : Nat)
    (root : Element) : Throwing Thrown Configuration := do
  if root.name ≠ "configuration" then throw (.parse "Root element must be: configuration")
  else
    let name ← Throwing.orThrow (missingAttribute "name") (root.getAttributeValue "name")
    let includes := (root.getChildren "include" cfgNs).map (·.text)
    let config ← ExceptT.mk (some (includes.foldlM Configuration.addInclude (.new name)))
    let path := ((root.getChild "definition_path" cfgNs).map parseDefinitionPath).getD []
    let config ← ExceptT.mk (some (path.foldlM Configuration.addDefinitionPath config))
    let repos := (path.flatMap definitionsIn).foldl ConfigDefinitionRepository.add repos
    let config_elts ← parseElements floats transform repos depth (root.getChild "elements" cfgNs)
    ExceptT.mk (some (config_elts.foldlM Configuration.addElement config))

end Parser

end VRJuggler.ConfigIo
