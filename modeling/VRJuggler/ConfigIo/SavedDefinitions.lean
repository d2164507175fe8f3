import VRJuggler.Config.Categories
import VRJuggler.ConfigIo.SavedConfigurations
import VRJuggler.ConfigIo.SavedProperties

/-!
# Definitions that are saved twice

The versions of a definition are saved, loaded and saved again. A version is kept when it has no
transform, which is in the first document when the second one is written, when it inherits no
property, which would become its own, and when its texts and properties are kept.
-/
namespace VRJuggler.ConfigIo

open Config Throwing

/-! ## What is kept -/

structure KeptDefinition (d : ConfigDefinition) : Prop where
  version : Int32 d.mVersion
  help : Lasts d.mHelp
  parents : ∀ p ∈ d.mParents, Lasts p ∧ p ≠ ""
  categories : ∀ c ∈ d.mCategories, categoryText (trim (normalize c)) = .ok c
  properties : ∀ p ∈ d.mPropertyDefs, KeptProperty p

/-- Each property that a parent in the repository has equals an own one. -/
def OwnOnly (repos : ConfigDefinitionRepository) (d : ConfigDefinition) : Prop :=
  ∀ parent ∈ resolved repos d, ∃ defs, Returns (getPropertyDefinitions repos · parent) defs ∧
    ∀ x ∈ defs, d.mPropertyDefs.any x.equals = true

theorem returns_own_iff {repos : ConfigDefinitionRepository} {d : ConfigDefinition} :
    Returns (getPropertyDefinitions repos · d) d.mPropertyDefs ↔ OwnOnly repos d := by
  constructor
  · rintro ⟨deep, returns⟩ parent member
    have here : inheritFrom repos (getPropertyDefinitions repos deep) d.mParents d.mPropertyDefs =
        some d.mPropertyDefs := returns (deep + 1) (Nat.le_succ deep)
    rw [inheritFrom_eq_own_iff] at here
    obtain ⟨defs, above, present⟩ := here parent member
    exact ⟨defs, .of_mono (fun _ _ => getPropertyDefinitions_mono) deep above, present⟩
  · intro own
    choose! lists above present using own
    have returns := returns_getPropertyDefinitions above
    rwa [foldl_addNew_eq_self_iff.mpr] at returns
    intro x member
    obtain ⟨parent, here, there⟩ := List.mem_flatMap.mp member
    exact present parent here x there

def transformOf (nodes : List XmlNode) (d : ConfigDefinition) : Option Element :=
  d.mXsltElement.bind fun reference => nodes[reference]?.map (·.element)

/-- The definitions are equal, and so is what `equals` does not compare. -/
structure SameDefinition (nodes : List XmlNode) (d e : ConfigDefinition) : Prop where
  equal : d.equals e = true
  properties : List.Forall₂ SameProperty d.mPropertyDefs e.mPropertyDefs
  transform : transformOf nodes d = transformOf nodes e

section Saving

variable (floats : FloatText) (repos : ConfigDefinitionRepository)

/-- The same versions are loaded from what was saved, and the list can be saved again with the
same result. -/
def SavedTwice (nodes : List XmlNode) (versions : List ConfigDefinition) : Prop :=
  ∃ document sorted written loaded there, Ends (writeDefinition floats repos nodes versions)
      (.ok (document, sorted, written)) ∧
    parseDefinition floats written document = .ok (loaded, there) ∧
    List.Forall₂ (SameDefinition there) sorted loaded ∧
    ∃ again rewritten, Ends (writeDefinition floats repos there sorted)
      (.ok (document, again, rewritten))

variable {floats repos}

/-! ## Transforms -/

/-- The element is in a document. -/
def Attached (nodes : List XmlNode) (reference : Nat) : Prop :=
  ∃ node, nodes[reference]? = some node ∧ node.attached = true

theorem addContent_attaches {nodes nodes' : List XmlNode} {reference : Nat} {e : Element}
    (added : addContent nodes reference = .ok (e, nodes')) :
    ¬ Attached nodes reference ∧ Attached nodes' reference ∧
      ∀ other, Attached nodes other → Attached nodes' other := by
  rw [addContent] at added
  split at added
  · cases added
  next node found =>
    split at added
    · cases added
    next free =>
      cases added
      have bound : reference < nodes.length := (List.getElem?_eq_some_iff.mp found).1
      have here : Attached (nodes.set reference { node with attached := true }) reference :=
        ⟨_, List.getElem?_set_self bound, rfl⟩
      refine ⟨?_, here, fun other attached => ?_⟩
      · rintro ⟨node', same, attached⟩
        rw [found] at same
        obtain rfl := Option.some.inj same
        exact free attached
      · by_cases same : other = reference
        · subst same
          exact here
        · obtain ⟨node', there, attached⟩ := attached
          exact ⟨node', by rw [List.getElem?_set_ne (Ne.symm same), there], attached⟩

theorem addDefinition_attaches {nodes nodes' : List XmlNode} {d : ConfigDefinition}
    {defs : List PropertyDefinition} {elt : Element}
    (added : addDefinition floats nodes d defs = .ok (elt, nodes')) :
    (∀ r, d.mXsltElement = some r → ¬ Attached nodes r ∧ Attached nodes' r) ∧
      ∀ other, Attached nodes other → Attached nodes' other := by
  obtain ⟨properties, -, rest⟩ := except_bind_eq_ok.mp added
  obtain ⟨pair, xform, made⟩ := except_bind_eq_ok.mp rest
  cases made
  cases here : d.mXsltElement with
  | none =>
    rw [here] at xform
    cases xform
    refine ⟨fun r same => ?_, fun _ => id⟩
    cases same
  | some reference =>
    rw [here] at xform
    obtain ⟨content, put, made⟩ := except_bind_eq_ok.mp xform
    cases made
    obtain ⟨before, after, others⟩ := addContent_attaches put
    refine ⟨fun r same => ?_, others⟩
    cases same
    exact ⟨before, after⟩

/-- A transform that is in a document cannot be written, and after it was written it is in
one. -/
theorem addDefinitions_attaches {depth : Nat} {nodes nodes' : List XmlNode}
    {versions : List ConfigDefinition} {elts : List Element}
    (added : addDefinitions floats repos depth nodes versions = some (.ok (elts, nodes'))) :
    (∀ d ∈ versions, ∀ r, d.mXsltElement = some r → ¬ Attached nodes r ∧ Attached nodes' r) ∧
      ∀ other, Attached nodes other → Attached nodes' other := by
  induction versions generalizing nodes elts with
  | nil =>
    cases added
    exact ⟨fun d member => absurd member List.not_mem_nil, fun _ => id⟩
  | cons d rest ih =>
    obtain ⟨defs, -, added⟩ := bind_eq_ok.mp added
    obtain ⟨pair, first, added⟩ := bind_eq_ok.mp added
    obtain ⟨pair', second, made⟩ := bind_eq_ok.mp added
    cases made
    obtain ⟨own, keep⟩ := addDefinition_attaches (Option.some.inj first)
    obtain ⟨others, keep'⟩ := ih second
    refine ⟨fun d' member r same => ?_, fun other attached => keep' other (keep other attached)⟩
    rcases List.mem_cons.mp member with rfl | member
    · obtain ⟨before, after⟩ := own r same
      exact ⟨before, keep' r after⟩
    · obtain ⟨before, after⟩ := others d' member r same
      exact ⟨fun attached => before (keep r attached), after⟩

/-! ## One version without a transform -/

section Children

variable {attributes : List (String × String)} {kind help : String}
  {parents categories : List String} {properties : List Element}
  (named : ∀ node ∈ properties, node.isNamed defNs "property" = true)
include named

/-- What the parser finds among the children of a version. -/
theorem children_definition (name : String) :
    (defElement "definition_version" attributes "" ([textElement "abstract" kind,
      textElement "help" help] ++ parents.map (textElement "parent") ++
      categories.map (textElement "category") ++ properties ++
      [defElement "upgrade_transform" [] "" []])).getChildren name defNs =
      (if "abstract" = name then [textElement "abstract" kind] else []) ++
      (if "help" = name then [textElement "help" help] else []) ++
      (if "parent" = name then parents.map (textElement "parent") else []) ++
      (if "category" = name then categories.map (textElement "category") else []) ++
      (if "property" = name then properties else []) ++
      (if "upgrade_transform" = name then [defElement "upgrade_transform" [] "" []] else []) := by
  have text (name text : String) :
      ∀ node ∈ [textElement name text], node.isNamed defNs name = true := by
    intro node member
    obtain rfl := List.mem_singleton.mp member
    exact isNamed_defElement ..
  have last : ∀ node ∈ [defElement "upgrade_transform" [] "" []],
      node.isNamed defNs "upgrade_transform" = true := text "upgrade_transform" ""
  have first : [textElement "abstract" kind, textElement "help" help].filter
      (Element.isNamed defNs name) =
      (if "abstract" = name then [textElement "abstract" kind] else []) ++
      (if "help" = name then [textElement "help" help] else []) := by
    rw [← List.singleton_append, List.filter_append, filter_isNamed (text "abstract" kind),
      filter_isNamed (text "help" help)]
  simp only [getChildren_defElement, List.filter_append, first, filter_isNamed last,
    filter_isNamed named, filter_isNamed named_textElement]

theorem parse_definition {d : ConfigDefinition} {token icon : String} {nodes : List XmlNode} :
    parseDefinitionVersion floats token icon nodes (defElement "definition_version"
      [("version", d.mVersion.repr), ("label", d.mName)] ""
      ([textElement "abstract" (booleanText d.mIsAbstract), textElement "help" d.mHelp] ++
        d.mParents.map (textElement "parent") ++ d.mCategories.map (textElement "category") ++
        properties ++ [defElement "upgrade_transform" [] "" []])) = (do
      let version ← required (.parse ("Version is not an integer: " ++ d.mVersion.repr))
        (parseInt d.mVersion.repr)
      let categories ← (shownTexts (d.mCategories.map (textElement "category"))).mapM categoryText
      let prop_defs ← properties.mapM (parsePropertyDefinition floats)
      pure ({
        mName := d.mName
        mToken := token
        mIconLocation := icon
        mVersion := version
        mIsAbstract := d.mIsAbstract
        mParents := shownTexts (d.mParents.map (textElement "parent"))
        mHelp := trim (normalize d.mHelp)
        mCategories := categories
        mPropertyDefs := prop_defs
        mXsltElement := none }, nodes)) := by
  have version (version label : String) :
      [("version", version), ("label", label)].lookup "version" = some version := rfl
  have label (version label : String) :
      [("version", version), ("label", label)].lookup "label" = some label := rfl
  have text : trim (normalize (booleanText d.mIsAbstract)) = booleanText d.mIsAbstract := by
    cases d.mIsAbstract with
    | false => exact trim_normalize tidy_false
    | true => exact trim_normalize tidy_true
  simp only [parseDefinitionVersion, parseTransform, getChildTextTrim, getChild_eq_head?,
    getAttributeValue_defElement, children_definition named, version, label, required,
    except_ok_bind, String.reduceEq, if_true, if_false, List.nil_append, List.append_nil,
    List.head?_cons, Option.map_some, Option.getD_some, getTextTrim_textElement, text,
    isTrue_booleanText]
  rfl

end Children

/-- The text of a category is that of the object that is made from the path. -/
theorem categoryText_eq_ok {path text : String} : categoryText path = .ok text ↔
    ∃ category, Ends (Category.ofPath · path) (.ok category) ∧ category.toString = text := by
  by_cases slash : path.toList.head? = some '/'
  · obtain ⟨category, split, ends⟩ := Category.ends_ofPath slash
    have same : String.ofList ('/' :: (categoryNames path.toList).flatMap (· ++ ['/'])) =
        category.toString := by
      rw [categoryNames, ← split.eq_splitOn, ← String.toList_inj, String.toList_ofList,
        Category.toList_toString]
    rw [categoryText, if_pos slash, same, Except.ok.injEq]
    constructor
    · exact fun written => ⟨category, ends, written⟩
    · rintro ⟨other, again, written⟩
      cases again.unique ends
      exact written
  · have refused : Ends (Category.ofPath · path)
        (.error (.illegalArgument "Path must start with a '/'")) := by
      refine ⟨0, fun fuel _ => ?_⟩
      simp only [Category.ofPath, if_neg slash]
      rfl
    rw [categoryText, if_neg slash]
    constructor
    · intro written
      cases written
    · rintro ⟨category, ends, -⟩
      cases ends.unique refused

theorem categories_saved_iff {categories : List String} :
    (shownTexts (categories.map (textElement "category"))).mapM categoryText = .ok categories ↔
      ∀ c ∈ categories, categoryText (trim (normalize c)) = .ok c := by
  have shown : ((categories.map (textElement "category")).map Element.getTextTrim) =
      categories.map fun c => trim (normalize c) := List.map_map
  rw [shownTexts, shown, except_mapM_eq_ok]
  constructor
  · intro read
    have all : ∀ text ∈ categories.map fun c => trim (normalize c), decide (text ≠ "") = true := by
      rw [← List.length_filter_eq_length_iff, read.length_eq, List.length_map]
    rw [List.filter_eq_self.mpr all, List.forall₂_map_left_iff, List.forall₂_same] at read
    exact read
  · intro each
    have all : ∀ text ∈ categories.map fun c => trim (normalize c), decide (text ≠ "") = true := by
      intro text member
      obtain ⟨c, here, rfl⟩ := List.mem_map.mp member
      have read := each c here
      apply decide_eq_true
      intro empty
      rw [empty] at read
      cases read
    rw [List.filter_eq_self.mpr all, List.forall₂_map_left_iff, List.forall₂_same]
    exact each

theorem parents_saved_iff {parents : List String} :
    parents = shownTexts (parents.map (textElement "parent")) ↔
      ∀ p ∈ parents, Lasts p ∧ p ≠ "" := by
  have shown : ((parents.map (textElement "parent")).map Element.getTextTrim) =
      parents.map fun p => trim (normalize p) := List.map_map
  rw [shownTexts, shown, eq_comm, filter_map_eq_iff]
  simp only [decide_eq_true_eq, Lasts]

theorem named_properties {defs : List PropertyDefinition} {properties : List Element}
    (created : defs.mapM (createPropertyElement floats) = .ok properties) :
    ∀ node ∈ properties, node.isNamed defNs "property" = true := by
  intro node member
  obtain ⟨p, -, here⟩ := exists_left_of_forall₂ (except_mapM_eq_ok.mp created) member
  obtain ⟨values, -, rest⟩ := except_bind_eq_ok.mp here
  obtain ⟨nodes, -, made⟩ := except_bind_eq_ok.mp rest
  cases made
  exact isNamed_defElement ..

/-- A version without a transform is kept when nothing is inherited and all of its own is
kept. -/
theorem definition_saved_iff {d : ConfigDefinition} (plain : d.mXsltElement = none)
    {defs : List PropertyDefinition} (front : d.mPropertyDefs <+: defs) {token icon : String}
    {nodes : List XmlNode} :
    (∃ node e, addDefinition floats nodes d defs = .ok (node, nodes) ∧
      parseDefinitionVersion floats token icon nodes node = .ok (e, nodes) ∧
      SameDefinition nodes d e) ↔
      defs = d.mPropertyDefs ∧ KeptDefinition d ∧ d.mToken = token ∧ d.mIconLocation = icon := by
  have each (ps : List PropertyDefinition) : (∀ p ∈ ps, KeptProperty p) ↔ ∃ ys qs,
      ps.mapM (createPropertyElement floats) = .ok ys ∧
      ys.mapM (parsePropertyDefinition floats) = .ok qs ∧ List.Forall₂ SameProperty ps qs := by
    rw [except_mapM_mapM]
    exact forall₂_congr fun p _ => property_saved_iff.symm
  have noTransform : addTransform nodes d.mXsltElement = .ok ([], nodes) := by
    rw [plain]
    rfl
  constructor
  · rintro ⟨node, e, added, read, same⟩
    obtain ⟨properties, first, rest⟩ := except_bind_eq_ok.mp added
    rw [noTransform] at rest
    cases rest
    rw [parse_definition (named_properties first)] at read
    obtain ⟨version, number, rest⟩ := except_bind_eq_ok.mp read
    obtain ⟨categories, third, rest⟩ := except_bind_eq_ok.mp rest
    obtain ⟨qs, second, made⟩ := except_bind_eq_ok.mp rest
    cases made
    have sizes : d.mPropertyDefs.length = defs.length := by
      rw [same.properties.length_eq, ← (except_mapM_eq_ok.mp second).length_eq,
        ← (except_mapM_eq_ok.mp first).length_eq]
    obtain rfl := front.eq_of_length sizes
    have equal := same.equal
    simp only [ConfigDefinition.equals, Bool.and_eq_true, decide_eq_true_eq] at equal
    obtain ⟨⟨⟨⟨⟨⟨⟨⟨-, isToken⟩, isIcon⟩, isVersion⟩, -⟩, isCategories⟩, isHelp⟩, isParents⟩, -⟩ :=
      equal
    refine ⟨rfl, ?_, isToken, isIcon⟩
    have fits : Int32 d.mVersion := by
      rw [isVersion]
      exact parseInt_fits (required_eq_ok.mp number)
    exact {
      version := fits
      help := isHelp.symm
      parents := parents_saved_iff.mp isParents
      categories := categories_saved_iff.mp (by rw [third, ← isCategories])
      properties := (each _).mpr ⟨properties, qs, first, second, same.properties⟩ }
  · rintro ⟨rfl, kept, rfl, rfl⟩
    obtain ⟨properties, qs, first, second, same⟩ := (each _).mp kept.properties
    have equal : equalLists PropertyDefinition.equals d.mPropertyDefs qs = true :=
      equalLists_iff.mpr (same.imp fun _ _ here => here.equal)
    refine ⟨_, { d with mPropertyDefs := qs, mXsltElement := none },
      except_bind_eq_ok.mpr ⟨properties, first, by rw [noTransform]; rfl⟩, ?_, ?_⟩
    · rw [parse_definition (named_properties first), parseInt_repr kept.version,
        categories_saved_iff.mpr kept.categories, second, ← parents_saved_iff.mpr kept.parents,
        kept.help]
      rfl
    · refine ⟨?_, same, ?_⟩
      · simp only [ConfigDefinition.equals, equal, decide_true, Bool.and_self]
      · rw [transformOf, plain]
        rfl

/-! ## All versions -/

theorem addDefinitions_eq_ok {depth : Nat} {nodes nodes' : List XmlNode}
    {versions : List ConfigDefinition} (plain : ∀ d ∈ versions, d.mXsltElement = none)
    {elts : List Element} :
    addDefinitions floats repos depth nodes versions = some (.ok (elts, nodes')) ↔
      nodes' = nodes ∧ List.Forall₂ (fun d node => ∃ defs,
        getPropertyDefinitions repos depth d = some defs ∧
        addDefinition floats nodes d defs = .ok (node, nodes)) versions elts := by
  induction versions generalizing elts with
  | nil =>
    rw [List.forall₂_nil_left_iff]
    constructor
    · intro added
      cases added
      exact ⟨rfl, rfl⟩
    · rintro ⟨rfl, rfl⟩
      rfl
  | cons d rest ih =>
    rw [List.forall_mem_cons] at plain
    -- a version without a transform leaves the nodes as they are
    have same {defs : List PropertyDefinition} {pair : Element × List XmlNode}
        (added : addDefinition floats nodes d defs = .ok pair) : pair.2 = nodes := by
      obtain ⟨properties, -, added⟩ := except_bind_eq_ok.mp added
      rw [plain.1] at added
      cases added
      rfl
    constructor
    · intro added
      obtain ⟨defs, inherited, added⟩ := bind_eq_ok.mp added
      obtain ⟨pair, first, added⟩ := bind_eq_ok.mp added
      obtain ⟨pair', second, made⟩ := bind_eq_ok.mp added
      cases made
      have kept := same (Option.some.inj first)
      obtain ⟨node, nodes'⟩ := pair
      obtain rfl : nodes' = nodes := kept
      obtain ⟨rfl, others⟩ := (ih plain.2).mp second
      exact ⟨rfl, .cons ⟨defs, lift_eq_ok.mp inherited, Option.some.inj first⟩ others⟩
    · rintro ⟨rfl, all⟩
      cases all with
      | cons first others =>
        obtain ⟨defs, inherited, first⟩ := first
        apply bind_eq_ok.mpr ⟨defs, lift_eq_ok.mpr inherited, _⟩
        apply bind_eq_ok.mpr ⟨_, congrArg some first, _⟩
        exact bind_eq_ok.mpr ⟨_, (ih plain.2).mpr ⟨rfl, others⟩, rfl⟩

/-- The parser only adds transforms. -/
theorem prefix_parseDefinitionVersion {token icon : String} {nodes nodes' : List XmlNode}
    {elt : Element} {d : ConfigDefinition}
    (read : parseDefinitionVersion floats token icon nodes elt = .ok (d, nodes')) :
    nodes <+: nodes' := by
  obtain ⟨_, -, read⟩ := except_bind_eq_ok.mp read
  obtain ⟨_, -, read⟩ := except_bind_eq_ok.mp read
  obtain ⟨_, -, read⟩ := except_bind_eq_ok.mp read
  obtain ⟨_, -, read⟩ := except_bind_eq_ok.mp read
  obtain ⟨_, -, read⟩ := except_bind_eq_ok.mp read
  obtain ⟨pair, transform, made⟩ := except_bind_eq_ok.mp read
  cases made
  obtain ⟨xform, -, transform⟩ := except_bind_eq_ok.mp transform
  split at transform
  · cases transform
    exact List.prefix_rfl
  · cases transform
    exact List.prefix_append _ _

theorem prefix_parseDefinitionVersions {token icon : String} {nodes nodes' : List XmlNode}
    {elts : List Element} {loaded : List ConfigDefinition}
    (read : parseDefinitionVersions floats token icon nodes elts = .ok (loaded, nodes')) :
    nodes <+: nodes' := by
  induction elts generalizing nodes loaded with
  | nil =>
    cases read
    exact List.prefix_rfl
  | cons elt rest ih =>
    obtain ⟨pair, first, read⟩ := except_bind_eq_ok.mp read
    obtain ⟨pair', second, made⟩ := except_bind_eq_ok.mp read
    cases made
    exact (prefix_parseDefinitionVersion first).trans (ih second)

theorem prefix_parseDefinition {nodes nodes' : List XmlNode} {root : Element}
    {loaded : List ConfigDefinition}
    (read : parseDefinition floats nodes root = .ok (loaded, nodes')) : nodes <+: nodes' := by
  rw [parseDefinition] at read
  split at read
  · cases read
  · obtain ⟨token, -, read⟩ := except_bind_eq_ok.mp read
    exact prefix_parseDefinitionVersions read

theorem parseDefinitionVersions_eq_ok {token icon : String} {nodes nodes' : List XmlNode}
    {elts : List Element} (plain : ∀ elt ∈ elts, ∀ d nodes',
      parseDefinitionVersion floats token icon nodes elt = .ok (d, nodes') → nodes' = nodes)
    {loaded : List ConfigDefinition} :
    parseDefinitionVersions floats token icon nodes elts = .ok (loaded, nodes') ↔
      nodes' = nodes ∧ List.Forall₂ (fun elt d =>
        parseDefinitionVersion floats token icon nodes elt = .ok (d, nodes)) elts loaded := by
  induction elts generalizing loaded with
  | nil =>
    rw [List.forall₂_nil_left_iff]
    constructor
    · intro read
      cases read
      exact ⟨rfl, rfl⟩
    · rintro ⟨rfl, rfl⟩
      rfl
  | cons elt rest ih =>
    rw [List.forall_mem_cons] at plain
    constructor
    · intro read
      obtain ⟨pair, first, read⟩ := except_bind_eq_ok.mp read
      obtain ⟨pair', second, made⟩ := except_bind_eq_ok.mp read
      cases made
      obtain ⟨d, nodes'⟩ := pair
      obtain rfl := plain.1 d nodes' first
      obtain ⟨rfl, others⟩ := (ih plain.2).mp second
      exact ⟨rfl, .cons first others⟩
    · rintro ⟨rfl, all⟩
      cases all with
      | cons first others =>
        apply except_bind_eq_ok.mpr ⟨_, first, _⟩
        exact except_bind_eq_ok.mpr ⟨_, (ih plain.2).mpr ⟨rfl, others⟩, rfl⟩

/-- What the parser does with the document of the versions. -/
theorem parse_document {nodes : List XmlNode} {token icon schema : String} {elts : List Element}
    (named : ∀ elt ∈ elts, elt.isNamed defNs "definition_version" = true) :
    parseDefinition floats nodes (defElement "definition" [("name", token), ("icon_path", icon),
      ("xsi:schemaLocation", schema)] "" elts) =
      parseDefinitionVersions floats token icon nodes elts := by
  have name (token icon schema : String) : [("name", token), ("icon_path", icon),
      ("xsi:schemaLocation", schema)].lookup "name" = some token := rfl
  have path (token icon schema : String) : [("name", token), ("icon_path", icon),
      ("xsi:schemaLocation", schema)].lookup "icon_path" = some icon := rfl
  have all : elts.filter (Element.isNamed defNs "definition_version") = elts :=
    List.filter_eq_self.mpr named
  simp only [parseDefinition, getAttributeValue_defElement, getChildren_defElement, name, path,
    all, required, except_ok_bind, Option.getD_some]
  rfl

theorem writeDefinition_eq_ok {nodes written : List XmlNode}
    {versions sorted : List ConfigDefinition} {depth : Nat} {document : Element} :
    writeDefinition floats repos nodes versions depth = some (.ok (document, sorted, written)) ↔
      ∃ first rest elts, sortVersions versions = first :: rest ∧ sorted = first :: rest ∧
        addDefinitions floats repos depth nodes sorted = some (.ok (elts, written)) ∧
        document = defElement "definition" [("name", first.mToken),
          ("icon_path", first.mIconLocation),
          ("xsi:schemaLocation", defNs ++ " " ++ defNs ++ ".xsd")] "" elts := by
  rw [writeDefinition]
  cases sortVersions versions with
  | nil =>
    constructor
    · intro ok
      cases Option.some.inj ok
    · rintro ⟨first, rest, elts, same, -⟩
      cases same
  | cons first rest =>
    constructor
    · intro ok
      obtain ⟨pair, added, made⟩ := bind_eq_ok.mp ok
      cases made
      exact ⟨first, rest, pair.1, rfl, rfl, added, rfl⟩
    · rintro ⟨first, rest, elts, same, rfl, added, rfl⟩
      cases same
      exact bind_eq_ok.mpr ⟨_, added, rfl⟩

theorem named_version {nodes nodes' : List XmlNode} {d : ConfigDefinition}
    {defs : List PropertyDefinition} {node : Element}
    (added : addDefinition floats nodes d defs = .ok (node, nodes')) :
    node.isNamed defNs "definition_version" = true := by
  obtain ⟨properties, -, added⟩ := except_bind_eq_ok.mp added
  obtain ⟨pair, -, made⟩ := except_bind_eq_ok.mp added
  cases made
  exact isNamed_defElement ..

theorem nodes_of_parsed {nodes nodes' nodes'' : List XmlNode} {d e : ConfigDefinition}
    (plain : d.mXsltElement = none) {defs : List PropertyDefinition} {node : Element}
    {token icon : String} (added : addDefinition floats nodes d defs = .ok (node, nodes'))
    (read : parseDefinitionVersion floats token icon nodes node = .ok (e, nodes'')) :
    nodes'' = nodes := by
  obtain ⟨properties, first, added⟩ := except_bind_eq_ok.mp added
  rw [plain] at added
  cases added
  rw [parse_definition (named_properties first)] at read
  obtain ⟨_, -, read⟩ := except_bind_eq_ok.mp read
  obtain ⟨_, -, read⟩ := except_bind_eq_ok.mp read
  obtain ⟨_, -, made⟩ := except_bind_eq_ok.mp read
  cases made
  rfl

section Plain

variable {depth : Nat} {nodes : List XmlNode} {versions : List ConfigDefinition}
  (plain : ∀ d ∈ versions, d.mXsltElement = none) {elts : List Element}
include plain

theorem named_versions {nodes' : List XmlNode}
    (added : addDefinitions floats repos depth nodes versions = some (.ok (elts, nodes'))) :
    ∀ elt ∈ elts, elt.isNamed defNs "definition_version" = true := by
  intro elt member
  obtain ⟨-, all⟩ := (addDefinitions_eq_ok plain).mp added
  obtain ⟨d, -, defs, -, made⟩ := exists_left_of_forall₂ all member
  exact named_version made

theorem loads_versions_iff {token icon : String} {loaded : List ConfigDefinition}
    {nodes' : List XmlNode}
    (added : addDefinitions floats repos depth nodes versions = some (.ok (elts, nodes))) :
    parseDefinitionVersions floats token icon nodes elts = .ok (loaded, nodes') ↔
      nodes' = nodes ∧ List.Forall₂ (fun elt d =>
        parseDefinitionVersion floats token icon nodes elt = .ok (d, nodes)) elts loaded := by
  apply parseDefinitionVersions_eq_ok
  intro elt member e nodes' read
  obtain ⟨-, all⟩ := (addDefinitions_eq_ok plain).mp added
  obtain ⟨d, here, defs, -, made⟩ := exists_left_of_forall₂ all member
  exact nodes_of_parsed (plain d here) made read

/-- Versions without transforms are kept just when each of them is. -/
theorem versions_saved_iff {token icon : String} :
    (∃ elts loaded, addDefinitions floats repos depth nodes versions = some (.ok (elts, nodes)) ∧
      parseDefinitionVersions floats token icon nodes elts = .ok (loaded, nodes) ∧
      List.Forall₂ (SameDefinition nodes) versions loaded) ↔
      ∀ d ∈ versions, getPropertyDefinitions repos depth d = some d.mPropertyDefs ∧
        KeptDefinition d ∧ d.mToken = token ∧ d.mIconLocation = icon := by
  constructor
  · rintro ⟨elts, loaded, added, read, same⟩
    obtain ⟨-, read⟩ := (loads_versions_iff plain added).mp read
    obtain ⟨-, added⟩ := (addDefinitions_eq_ok plain).mp added
    intro d member
    obtain ⟨node, e, ⟨defs, inherited, made⟩, loads, equal⟩ :=
      forall₂_chain_iff.mp ⟨elts, loaded, added, read, same⟩ d member
    have front := isPrefix_getPropertyDefinitions inherited
    obtain ⟨rfl, kept⟩ :=
      (definition_saved_iff (plain d member) front).mp ⟨node, e, made, loads, equal⟩
    exact ⟨inherited, kept⟩
  · intro all
    have chains : ∀ d ∈ versions, ∃ node e, (∃ defs,
        getPropertyDefinitions repos depth d = some defs ∧
        addDefinition floats nodes d defs = .ok (node, nodes)) ∧
        parseDefinitionVersion floats token icon nodes node = .ok (e, nodes) ∧
        SameDefinition nodes d e := by
      intro d member
      obtain ⟨inherited, kept⟩ := all d member
      obtain ⟨node, e, made, loads, equal⟩ :=
        (definition_saved_iff (plain d member) List.prefix_rfl).mpr ⟨rfl, kept⟩
      exact ⟨node, e, ⟨_, inherited, made⟩, loads, equal⟩
    obtain ⟨elts, loaded, added, read, same⟩ := forall₂_chain_iff.mpr chains
    have added' : addDefinitions floats repos depth nodes versions = some (.ok (elts, nodes)) :=
      (addDefinitions_eq_ok plain).mpr ⟨rfl, added⟩
    exact ⟨elts, loaded, added', (loads_versions_iff plain added').mpr ⟨rfl, read⟩, same⟩

end Plain

theorem mem_sortVersions {versions : List ConfigDefinition} {d : ConfigDefinition} :
    d ∈ sortVersions versions ↔ d ∈ versions :=
  List.mem_mergeSort

/-- The list is sorted once. -/
theorem sortVersions_idem (versions : List ConfigDefinition) :
    sortVersions (sortVersions versions) = sortVersions versions := by
  apply List.mergeSort_of_pairwise
  apply List.pairwise_mergeSort
  · intro d e f first second
    rw [decide_eq_true_eq] at first second ⊢
    exact Int.le_trans first second
  · intro d e
    rw [Bool.or_eq_true, decide_eq_true_eq, decide_eq_true_eq]
    exact Int.le_total d.mVersion e.mVersion

/-- A list that can be written twice has no transform. -/
theorem plain_of_savedTwice {nodes : List XmlNode} {versions : List ConfigDefinition}
    (saved : SavedTwice floats repos nodes versions) : ∀ d ∈ versions, d.mXsltElement = none := by
  obtain ⟨document, sorted, written, loaded, there, ⟨m, writes⟩, read, -, again, rewritten,
    ⟨n, rewrites⟩⟩ := saved
  obtain ⟨first, rest, elts, isSorted, same, added, rfl⟩ :=
    writeDefinition_eq_ok.mp (writes m le_rfl)
  obtain ⟨_, _, elts', isSorted', same', added', -⟩ :=
    writeDefinition_eq_ok.mp (rewrites n le_rfl)
  obtain ⟨once, -⟩ := addDefinitions_attaches added
  obtain ⟨twice, -⟩ := addDefinitions_attaches added'
  intro d member
  by_contra transform
  obtain ⟨r, here⟩ := Option.ne_none_iff_exists'.mp transform
  have inSorted : d ∈ sorted := by
    rw [same, ← isSorted]
    exact mem_sortVersions.mpr member
  have inAgain : d ∈ again := by
    rw [same', ← isSorted']
    exact mem_sortVersions.mpr inSorted
  -- the parser leaves the transform in the first document
  obtain ⟨node, found, attached⟩ := (once d inSorted r here).2
  obtain ⟨extra, rfl⟩ := prefix_parseDefinition read
  refine (twice d inAgain r here).1 ⟨node, ?_, attached⟩
  rw [List.getElem?_append_left (List.getElem?_eq_some_iff.mp found).1, found]

/-- Versions that are kept can be written with any stack that is deep enough. -/
theorem ends_writeDefinition {nodes : List XmlNode} {versions rest : List ConfigDefinition}
    {first : ConfigDefinition} (isSorted : sortVersions versions = first :: rest)
    {elts : List Element}
    (added : Ends (addDefinitions floats repos · nodes (first :: rest)) (.ok (elts, nodes))) :
    Ends (writeDefinition floats repos nodes versions)
      (.ok (defElement "definition" [("name", first.mToken), ("icon_path", first.mIconLocation),
        ("xsi:schemaLocation", defNs ++ " " ++ defNs ++ ".xsd")] "" elts,
        first :: rest, nodes)) := by
  obtain ⟨deep, added⟩ := added
  refine ⟨deep, fun depth enough => writeDefinition_eq_ok.mpr ?_⟩
  exact ⟨first, rest, elts, isSorted, rfl, added depth enough, rfl⟩

/-- One stack that is deep enough for all versions. -/
theorem exists_deep {versions : List ConfigDefinition} (own : ∀ d ∈ versions, OwnOnly repos d) :
    ∃ deep, ∀ depth, deep ≤ depth → ∀ d ∈ versions,
      getPropertyDefinitions repos depth d = some d.mPropertyDefs := by
  induction versions with
  | nil => exact ⟨0, fun _ _ d member => absurd member List.not_mem_nil⟩
  | cons d rest ih =>
    rw [List.forall_mem_cons] at own
    obtain ⟨m, first⟩ := returns_own_iff.mpr own.1
    obtain ⟨n, others⟩ := ih own.2
    refine ⟨max m n, fun depth enough => List.forall_mem_cons.mpr ⟨?_, ?_⟩⟩
    · exact first depth (Nat.le_trans (Nat.le_max_left m n) enough)
    · exact others depth (Nat.le_trans (Nat.le_max_right m n) enough)

/-- What comes back can be told from the versions. -/
theorem kept_of_savedTwice {nodes : List XmlNode} {versions : List ConfigDefinition}
    (saved : SavedTwice floats repos nodes versions) :
    (∀ d ∈ versions, d.mXsltElement = none ∧ OwnOnly repos d ∧ KeptDefinition d) ∧
      ∀ d ∈ versions, ∀ e ∈ versions, d.mToken = e.mToken ∧ d.mIconLocation = e.mIconLocation := by
  have plain := plain_of_savedTwice saved
  obtain ⟨document, sorted, written, loaded, there, ⟨m, writes⟩, read, same, -⟩ := saved
  -- each stack that is deep enough says the same of all versions
  have kept (depth : Nat) (enough : m ≤ depth) : ∃ first : ConfigDefinition, ∀ d ∈ versions,
      getPropertyDefinitions repos depth d = some d.mPropertyDefs ∧ KeptDefinition d ∧
      d.mToken = first.mToken ∧ d.mIconLocation = first.mIconLocation := by
    obtain ⟨first, rest, elts, isSorted, rfl, added, rfl⟩ :=
      writeDefinition_eq_ok.mp (writes depth enough)
    have plain' : ∀ d ∈ first :: rest, d.mXsltElement = none := by
      rw [← isSorted]
      exact fun d member => plain d (mem_sortVersions.mp member)
    rw [parse_document (named_versions plain' added)] at read
    obtain ⟨rfl, -⟩ := (addDefinitions_eq_ok plain').mp added
    obtain ⟨rfl, -⟩ := (loads_versions_iff plain' added).mp read
    refine ⟨first, fun d member => ?_⟩
    apply (versions_saved_iff plain').mp ⟨elts, loaded, added, read, same⟩
    rw [← isSorted]
    exact mem_sortVersions.mpr member
  obtain ⟨first, all⟩ := kept m le_rfl
  refine ⟨fun d member => ⟨plain d member, ?_, (all d member).2.1⟩, fun d here e there => ?_⟩
  · refine returns_own_iff.mp ⟨m, fun depth enough => ?_⟩
    obtain ⟨_, all⟩ := kept depth enough
    exact (all d member).1
  · obtain ⟨-, -, token, icon⟩ := all d here
    obtain ⟨-, -, token', icon'⟩ := all e there
    exact ⟨token.trans token'.symm, icon.trans icon'.symm⟩

/-- The versions come back, and can be written again with the same result, just when they have
no transforms, inherit nothing and agree on the token and the icon, and the texts, values and
enumerations of each last. -/
theorem savedTwice_iff (floats : FloatText) (repos : ConfigDefinitionRepository)
    (nodes : List XmlNode) {versions : List ConfigDefinition} (nonempty : versions ≠ []) :
    SavedTwice floats repos nodes versions ↔
      (∀ d ∈ versions, d.mXsltElement = none ∧ OwnOnly repos d ∧ KeptDefinition d) ∧
      ∀ d ∈ versions, ∀ e ∈ versions, d.mToken = e.mToken ∧ d.mIconLocation = e.mIconLocation := by
  constructor
  · exact kept_of_savedTwice
  · rintro ⟨kept, alike⟩
    obtain ⟨deep, own⟩ := exists_deep fun d member => (kept d member).2.1
    cases isSorted : sortVersions versions with
    | nil =>
      obtain ⟨d, member⟩ := List.exists_mem_of_ne_nil versions nonempty
      rw [← mem_sortVersions, isSorted] at member
      cases member
    | cons first rest =>
      have inVersions : ∀ d ∈ first :: rest, d ∈ versions := by
        rw [← isSorted]
        exact fun d => mem_sortVersions.mp
      have plain : ∀ d ∈ first :: rest, d.mXsltElement = none :=
        fun d member => (kept d (inVersions d member)).1
      have front : first ∈ versions := inVersions first (List.mem_cons_self ..)
      have all (depth : Nat) (enough : deep ≤ depth) : ∀ d ∈ first :: rest,
          getPropertyDefinitions repos depth d = some d.mPropertyDefs ∧ KeptDefinition d ∧
          d.mToken = first.mToken ∧ d.mIconLocation = first.mIconLocation := by
        intro d member
        have here := inVersions d member
        exact ⟨own depth enough d here, (kept d here).2.2, alike d here first front⟩
      obtain ⟨elts, loaded, added, read, same⟩ :=
        (versions_saved_iff plain).mpr (all deep le_rfl)
      have ends :
          Ends (addDefinitions floats repos · nodes (first :: rest)) (.ok (elts, nodes)) := by
        refine ⟨deep, fun depth enough => ?_⟩
        obtain ⟨-, each⟩ := (addDefinitions_eq_ok plain).mp added
        -- the properties of the versions are the same for a deeper stack
        refine (addDefinitions_eq_ok plain).mpr
          ⟨rfl, (forall₂_congr_mem fun d member node _ => ?_).mp each⟩
        rw [(all deep le_rfl d member).1, (all depth enough d member).1]
      rw [← parse_document (named_versions plain added)] at read
      refine ⟨_, _, _, loaded, nodes, ends_writeDefinition isSorted ends, read, same, _, _,
        ends_writeDefinition ?_ ends⟩
      rw [← isSorted, sortVersions_idem]

end Saving

/-! ## Versions of a tracker -/

/-- A property with an enumeration that can be edited. -/
def rateProperty : PropertyDefinition where
  mToken := "rate"
  mType := .integer
  mHelp := "Samples in a second."
  mPropValueDefs := [{ mLabel := "Rate", mDefaultValue := some (.integer 60) }]
  mEditableEnum := true
  mEnums := SortedMap.empty.insert "Fast" (some ⟨1, .integer 120⟩)
  mAllowedTypes := []
  mVariable := false

/-- The property of the parent is declared again. -/
def tracker (version : Int) : ConfigDefinition where
  mName := "Tracker"
  mToken := "tracker"
  mIconLocation := "tracker.png"
  mVersion := version
  mIsAbstract := false
  mParents := ["input_device", "filtered"]
  mHelp := "A tracker."
  mCategories := ["/Devices/Trackers/"]
  mPropertyDefs := [textProperty "device_host" "The node of the device.", rateProperty]
  mXsltElement := none

theorem returns_inputDevice :
    Returns (getPropertyDefinitions devices · inputDevice) inputDevice.mPropertyDefs := by
  apply returns_own_iff.mpr
  intro parent member
  cases member

theorem resolved_tracker (version : Int) : resolved devices (tracker version) = [inputDevice] := rfl

theorem ownOnly_tracker (version : Int) : OwnOnly devices (tracker version) := by
  intro parent member
  rw [resolved_tracker, List.mem_singleton] at member
  obtain rfl := member
  refine ⟨_, returns_inputDevice, ?_⟩
  show ∀ x ∈ inputDevice.mPropertyDefs,
    [textProperty "device_host" "The node of the device.", rateProperty].any x.equals = true
  decide

theorem keptProperty_deviceHost :
    KeptProperty (textProperty "device_host" "The node of the device.") where
  help := by
    show trim (normalize "The node of the device.") = "The node of the device."
    decide +kernel
  defaults v member := by
    obtain rfl := List.mem_singleton.mp member
    exact ⟨_, rfl, trivial⟩
  enums e member := by cases member
  editable _ := rfl
  allowed type member := by cases member

theorem keptProperty_rate : KeptProperty rateProperty where
  help := by
    show trim (normalize "Samples in a second.") = "Samples in a second."
    decide +kernel
  defaults v member := by
    obtain rfl := List.mem_singleton.mp member
    exact ⟨_, rfl, (by decide : Int32 60)⟩
  enums e member := by
    obtain rfl := List.mem_singleton.mp member
    exact ⟨_, rfl, (by decide : Int32 120)⟩
  editable none := by cases none
  allowed type member := by cases member

theorem kept_tracker {version : Int} (fits : Int32 version) : KeptDefinition (tracker version) where
  version := fits
  help := by
    show trim (normalize "A tracker.") = "A tracker."
    decide +kernel
  parents := by
    show ∀ p ∈ ["input_device", "filtered"], trim (normalize p) = p ∧ p ≠ ""
    decide +kernel
  categories c member := by
    obtain rfl := List.mem_singleton.mp member
    decide +kernel
  properties := by
    intro p member
    rcases List.mem_pair.mp member with rfl | rfl
    · exact keptProperty_deviceHost
    · exact keptProperty_rate

/-- The versions are not sorted. -/
theorem savedTwice_tracker : SavedTwice bitTexts devices [] [tracker 2, tracker 1] := by
  refine (savedTwice_iff bitTexts devices [] (by simp)).mpr ⟨?_, ?_⟩
  · intro d member
    rcases List.mem_pair.mp member with rfl | rfl
    · exact ⟨rfl, ownOnly_tracker 2, kept_tracker (by decide)⟩
    · exact ⟨rfl, ownOnly_tracker 1, kept_tracker (by decide)⟩
  · simp [tracker]

/-- What a glove inherits becomes its own, and a transform is in the first document when the
second one is written. -/
theorem savedTwice_fails :
    ¬ SavedTwice bitTexts devices [] [glove] ∧
      ¬ SavedTwice bitTexts devices [⟨defElement "transform" [] "" [], false⟩]
        [tracker 1, { tracker 2 with mXsltElement := some 0 }] := by
  constructor
  · intro saved
    obtain ⟨all, -⟩ := kept_of_savedTwice saved
    obtain ⟨-, own, -⟩ := all glove (List.mem_singleton_self glove)
    obtain ⟨defs, ⟨deep, returns⟩, present⟩ :=
      own positionDevice (List.mem_of_mem_getLast? (rfl : _ = some positionDevice))
    -- the parent has at least its own property
    have front := isPrefix_getPropertyDefinitions (returns deep le_rfl)
    have inherited := present _ (front.subset (List.mem_singleton_self _))
    revert inherited
    decide
  · intro saved
    have plain := plain_of_savedTwice saved _ (List.mem_cons_of_mem _ (List.mem_singleton_self _))
    cases plain

end VRJuggler.ConfigIo
