import VRJuggler.ConfigIo.DefinitionDocuments
import VRJuggler.ConfigIo.SavedElements

/-!
# Properties that are written and read again

A property is kept just when its texts are as they are found in a document, the default values
of simple types and the values of its enumeration have its type, and an enumeration that can be
edited has a value.
-/
namespace VRJuggler.ConfigIo

open Config

/-! ## What is kept -/

/-- The text is read as it was written. -/
def Lasts (text : String) : Prop := trim (normalize text) = text

/-- A value of the type, which has a text. -/
def Convertible : ValueType → SimpleValue → Prop
  | .boolean, .boolean _ => True
  | .integer, .integer value => Int32 value
  | .float, .float _ => True
  | .string, .string _ => True
  | .configElementPointer, .pointer (some _) => True
  | _, _ => False

/-- The default of a pointer or an element is not written. -/
def KeptDefault (type : ValueType) (v : PropertyValueDefinition) : Prop :=
  match type with
  | .configElement => True
  | .configElementPointer =>
    ∀ value, v.mDefaultValue = some value → ∃ mTarget, value = .pointer mTarget
  | type => ∃ value, v.mDefaultValue = some value ∧ Convertible type value

/-- The values of an enumeration, whatever objects they are. -/
def enumValues (mEnums : SortedMap String (Option ValueObject)) :
    List (String × Option SimpleValue) :=
  mEnums.entries.map fun e => (e.1, e.2.map (·.value))

structure KeptProperty (p : PropertyDefinition) : Prop where
  help : Lasts p.mHelp
  defaults : ∀ v ∈ p.mPropValueDefs, KeptDefault p.mType v
  enums : ∀ e ∈ enumValues p.mEnums, ∃ value, e.2 = some value ∧ Convertible p.mType value
  editable : p.mEnums.entries = [] → p.mEditableEnum = false
  allowed : ∀ type ∈ p.mAllowedTypes, Lasts type

/-- The properties are equal, and so is what `equals` does not compare. -/
structure SameProperty (p q : PropertyDefinition) : Prop where
  equal : p.equals q = true
  enums : enumValues p.mEnums = enumValues q.mEnums
  editable : p.mEditableEnum = q.mEditableEnum
  allowed : p.mAllowedTypes = q.mAllowedTypes

/-! ## Values -/

variable {floats : FloatText}

theorem parseInt_fits {text : String} {n : Int} (parsed : parseInt text = some n) : Int32 n := by
  rw [parseInt, Option.filter_eq_some_iff] at parsed
  exact of_decide_eq_true parsed.2

/-- The text of a value is read as the value just when the value has the type. -/
theorem convertTo_iff {type : ValueType} {value : SimpleValue} {text : String}
    (written : valueText floats value = some text) :
    convertTo floats (some text) type = .ok (some value) ↔ Convertible type value := by
  constructor
  · intro converted
    cases type with
    | boolean =>
      cases converted
      trivial
    | integer =>
      rw [convertTo, Option.bind_some] at converted
      cases parsed : parseInt text with
      | none =>
        rw [parsed] at converted
        cases converted
      | some n =>
        rw [parsed] at converted
        cases converted
        exact parseInt_fits parsed
    | float =>
      rw [convertTo] at converted
      cases parsed : floats.parse text with
      | none =>
        rw [parsed] at converted
        cases converted
      | some bits =>
        rw [parsed] at converted
        cases converted
        trivial
    | string =>
      cases converted
      trivial
    | configElement => cases converted
    | configElementPointer =>
      cases converted
      trivial
  · intro convertible
    match type, value, convertible with
    | .boolean, .boolean true, _ =>
      obtain rfl := Option.some.inj written
      rw [convertTo, Option.any_some, isTrue_true]
    | .boolean, .boolean false, _ =>
      obtain rfl := Option.some.inj written
      rw [convertTo, Option.any_some, isTrue_false]
    | .integer, .integer n, fits =>
      obtain rfl := Option.some.inj written
      rw [convertTo, Option.bind_some, parseInt_repr fits]
      rfl
    | .float, .float bits, _ =>
      obtain rfl := Option.some.inj written
      simp only [convertTo, floats.parse_toText]
      rfl
    | .string, .string _, _ =>
      obtain rfl := Option.some.inj written
      rfl
    | .configElementPointer, .pointer (some _), _ =>
      obtain rfl := Option.some.inj written
      rfl

theorem attributeText_eq_ok {value : Option SimpleValue} {text : String} :
    attributeText floats value = .ok text ↔
      ∃ v, value = some v ∧ valueText floats v = some text := by
  cases value with
  | none => simp [attributeText]
  | some v => simp [attributeText, required_eq_ok]

theorem valueText_of_convertible (floats : FloatText) {type : ValueType} {value : SimpleValue}
    (convertible : Convertible type value) : ∃ text, valueText floats value = some text := by
  match type, value, convertible with
  | .boolean, .boolean true, _ => exact ⟨_, rfl⟩
  | .boolean, .boolean false, _ => exact ⟨_, rfl⟩
  | .integer, .integer _, _ => exact ⟨_, rfl⟩
  | .float, .float _, _ => exact ⟨_, rfl⟩
  | .string, .string _, _ => exact ⟨_, rfl⟩
  | .configElementPointer, .pointer (some _), _ => exact ⟨_, rfl⟩

/-- A value is written and read again when it has the type. -/
theorem attribute_kept_iff {type : ValueType} {value : Option SimpleValue} :
    (∃ text, attributeText floats value = .ok text ∧
      convertTo floats (some text) type = .ok value) ↔
      ∃ v, value = some v ∧ Convertible type v := by
  constructor
  · rintro ⟨text, written, read⟩
    obtain ⟨v, rfl, own⟩ := attributeText_eq_ok.mp written
    exact ⟨v, rfl, (convertTo_iff own).mp read⟩
  · rintro ⟨v, rfl, convertible⟩
    obtain ⟨text, own⟩ := valueText_of_convertible floats convertible
    exact ⟨text, attributeText_eq_ok.mpr ⟨v, rfl, own⟩, (convertTo_iff own).mpr convertible⟩

/-- What is converted to a simple type is no pointer. -/
theorem ne_pointer_of_converted {type : ValueType} {text : String} {value : SimpleValue}
    (simple : type ≠ .configElementPointer)
    (converted : convertTo floats (some text) type = .ok (some value)) (mTarget : Option String) :
    value ≠ .pointer mTarget := by
  rintro rfl
  cases type with
  | boolean => cases converted
  | integer =>
    rw [convertTo] at converted
    cases parsed : (some text).bind parseInt <;> rw [parsed] at converted <;> cases converted
  | float =>
    rw [convertTo] at converted
    cases parsed : floats.parse text <;> rw [parsed] at converted <;> cases converted
  | string => cases converted
  | configElement => cases converted
  | configElementPointer => exact simple rfl

theorem ne_none_of_converted {type : ValueType} {text : String} {value : Option SimpleValue}
    (simple : type ≠ .configElement) (converted : convertTo floats (some text) type = .ok value) :
    value ≠ none := by
  rintro rfl
  cases type with
  | boolean => cases converted
  | integer =>
    rw [convertTo] at converted
    cases parsed : (some text).bind parseInt <;> rw [parsed] at converted <;> cases converted
  | float =>
    rw [convertTo] at converted
    cases parsed : floats.parse text <;> rw [parsed] at converted <;> cases converted
  | string => cases converted
  | configElement => exact simple rfl
  | configElementPointer => cases converted

theorem keptDefault_iff {type : ValueType} {v : PropertyValueDefinition}
    (simple : type ≠ .configElement ∧ type ≠ .configElementPointer) :
    KeptDefault type v ↔ ∃ value, v.mDefaultValue = some value ∧ Convertible type value := by
  cases type with
  | configElement => exact absurd rfl simple.1
  | configElementPointer => exact absurd rfl simple.2
  | _ => exact Iff.rfl

/-- A default value is kept when it has its type, or when it is that of a pointer. -/
theorem value_saved_iff {type : ValueType} {v : PropertyValueDefinition} :
    (∃ node w, createValueElement floats type v = .ok node ∧
      parseValue floats type node = .ok w ∧ v.equals w = true) ↔ KeptDefault type v := by
  -- the default value is written for simple types only
  by_cases simple : type ≠ .configElement ∧ type ≠ .configElementPointer
  · have parsed (text : String) : parseValue floats type (defElement "value"
        [("label", v.mLabel), ("defaultvalue", text)] "" []) =
        (convertTo floats (some text) type).map fun value => ⟨v.mLabel, value⟩ := rfl
    rw [keptDefault_iff simple]
    simp only [createValueElement, if_pos simple, except_bind_eq_ok]
    constructor
    · rintro ⟨node, w, ⟨text, written, made⟩, read, equal⟩
      cases made
      obtain ⟨x, here, own⟩ := attributeText_eq_ok.mp written
      rw [parsed] at read
      cases converted : convertTo floats (some text) type with
      | error e =>
        rw [converted] at read
        cases read
      | ok value =>
        rw [converted] at read
        cases read
        -- what is read is never null, so equal values are the same
        obtain ⟨y, rfl⟩ := Option.ne_none_iff_exists'.mp
          (ne_none_of_converted simple.1 converted)
        simp only [PropertyValueDefinition.equals, here, decide_true, Bool.true_and] at equal
        have same :=
          (SimpleValue.equals_iff_eq (ne_pointer_of_converted simple.2 converted)).mp equal
        rw [← same] at converted
        exact ⟨x, here, (convertTo_iff own).mp converted⟩
    · rintro ⟨x, here, convertible⟩
      obtain ⟨text, own⟩ := valueText_of_convertible floats convertible
      refine ⟨_, ⟨v.mLabel, some x⟩, ⟨text, attributeText_eq_ok.mpr ⟨x, here, own⟩, rfl⟩, ?_, ?_⟩
      · rw [parsed, (convertTo_iff own).mpr convertible]
        rfl
      · simp only [PropertyValueDefinition.equals, here, SimpleValue.equals_self, decide_true,
          Bool.and_self]
  · have created : createValueElement floats type v =
        .ok (defElement "value" [("label", v.mLabel)] "" []) := if_neg simple
    have given : (∃ node w, createValueElement floats type v = .ok node ∧
        parseValue floats type node = .ok w ∧ v.equals w = true) ↔
        ∃ w, parseValue floats type (defElement "value" [("label", v.mLabel)] "" []) = .ok w ∧
          v.equals w = true := by
      simp only [created, Except.ok.injEq, exists_and_left, exists_eq_left']
    rw [given]
    cases type with
    | configElement =>
      apply iff_of_true
      · refine ⟨⟨v.mLabel, none⟩, rfl, ?_⟩
        simp [PropertyValueDefinition.equals]
      · trivial
    | configElementPointer =>
      have read : parseValue floats .configElementPointer
          (defElement "value" [("label", v.mLabel)] "" []) =
          .ok ⟨v.mLabel, some (.pointer none)⟩ := rfl
      simp only [read, Except.ok.injEq, exists_eq_left', PropertyValueDefinition.equals,
        decide_true, Bool.true_and, KeptDefault]
      cases v.mDefaultValue with
      | none => simp
      | some value =>
        simp only [Option.some.injEq, forall_eq']
        cases value with
        | pointer mTarget =>
          apply iff_of_true
          · cases mTarget <;> rfl
          · exact ⟨mTarget, rfl⟩
        | _ => simp [SimpleValue.equals]
    | _ => exact absurd ⟨by decide, by decide⟩ simple

/-! ## Enumerations -/

/-- The value of a label is kept when it has the type. -/
theorem enum_saved_iff {type : ValueType} {e : String × Option ValueObject} :
    (∃ node r, createEnumElement floats e = .ok node ∧ parseEnum floats type node = .ok r ∧
      (e.1, e.2.map (·.value)) = r) ↔
      ∃ value, e.2.map (·.value) = some value ∧ Convertible type value := by
  rw [← @attribute_kept_iff floats]
  have parsed (text : String) : parseEnum floats type
      (defElement "enum" [("label", e.1), ("value", text)] "" []) =
      (convertTo floats (some text) type).map fun value => (e.1, value) := rfl
  simp only [createEnumElement, except_bind_eq_ok]
  constructor
  · rintro ⟨node, r, ⟨text, written, made⟩, read, rfl⟩
    cases made
    rw [parsed] at read
    cases converted : convertTo floats (some text) type with
    | error e =>
      rw [converted] at read
      cases read
    | ok value =>
      rw [converted] at read
      refine ⟨text, written, ?_⟩
      cases read
      exact converted
  · rintro ⟨text, written, read⟩
    refine ⟨_, _, ⟨text, written, rfl⟩, ?_, rfl⟩
    rw [parsed, read]
    rfl

theorem values_numbered (enums : List (String × Option SimpleValue)) :
    (numbered enums).map (fun e => (e.1, e.2.map (·.value))) = enums := by
  rw [numbered, List.map_map]
  have same : ((fun e : String × Option ValueObject => (e.1, e.2.map (·.value))) ∘
      fun e : (String × Option SimpleValue) × Nat => (e.1.1, e.1.2.map (⟨e.2 + 1, ·⟩))) =
      Prod.fst := by
    funext e
    obtain ⟨⟨label, value⟩, i⟩ := e
    cases value with
    | none => rfl
    | some value => rfl
  rw [same, List.zipIdx_map_fst]

theorem named_enum {e : String × Option ValueObject} {node : Element}
    (created : createEnumElement floats e = .ok node) : node.isNamed defNs "enum" = true := by
  obtain ⟨text, -, made⟩ := except_bind_eq_ok.mp created
  cases made
  exact isNamed_defElement ..

/-- The label is read in any case. -/
theorem label_of_saved {type : ValueType} {e : String × Option ValueObject} {node : Element}
    {r : String × Option SimpleValue} (created : createEnumElement floats e = .ok node)
    (read : parseEnum floats type node = .ok r) : r.1 = e.1 := by
  obtain ⟨text, -, made⟩ := except_bind_eq_ok.mp created
  cases made
  obtain ⟨value, -, rest⟩ := except_bind_eq_ok.mp read
  obtain ⟨label, here, made⟩ := except_bind_eq_ok.mp rest
  cases made
  exact (Option.some.inj (required_eq_ok.mp here)).symm

theorem editableText_booleanText (value : Bool) : editableText (booleanText value) = value := by
  cases value with
  | false => decide
  | true => decide

theorem isTrue_booleanText (value : Bool) : isTrue (booleanText value) = value := by
  cases value with
  | false => exact isTrue_false
  | true => exact isTrue_true

/-- The values that are read are those in the document when the labels are in order. -/
theorem enumValues_numbered {enums : List (String × Option SimpleValue)}
    (sorted : enums.Pairwise fun a b => a.1 < b.1) :
    enumValues ((numbered enums).foldl (fun m e => m.insert e.1 e.2) SortedMap.empty) = enums := by
  have keys : (numbered enums).Pairwise fun a b => a.1 < b.1 := by
    have mapped := values_numbered enums
    rw [← mapped, List.pairwise_map] at sorted
    exact sorted
  rw [enumValues, SortedMap.entries_foldl_insert (by exact keys)]
  exact values_numbered enums

theorem enumeration_saved_iff {p : PropertyDefinition} :
    (∃ nodes r, createEnumeration floats p = .ok nodes ∧
      parseEnumeration floats p.mType nodes.head? = .ok r ∧
      enumValues p.mEnums = enumValues r.2 ∧ p.mEditableEnum = r.1) ↔
      (∀ e ∈ enumValues p.mEnums, ∃ value, e.2 = some value ∧ Convertible p.mType value) ∧
        (p.mEnums.entries = [] → p.mEditableEnum = false) := by
  -- without labels there is no node, and the flag is lost
  by_cases none : p.mEnums.entries = []
  · have created : createEnumeration floats p = .ok [] := if_pos none
    have values : enumValues p.mEnums = [] := by rw [enumValues, none]; rfl
    rw [created, values]
    constructor
    · rintro ⟨nodes, r, made, read, -, editable⟩
      cases made
      cases read
      exact ⟨fun e member => absurd member List.not_mem_nil, fun _ => editable⟩
    · rintro ⟨-, editable⟩
      exact ⟨[], _, rfl, rfl, rfl, editable none⟩
  · have each : (∀ e ∈ enumValues p.mEnums, ∃ value, e.2 = some value ∧
        Convertible p.mType value) ↔ ∃ ys zs, p.mEnums.entries.mapM (createEnumElement floats) =
          .ok ys ∧ ys.mapM (parseEnum floats p.mType) = .ok zs ∧
          List.Forall₂ (fun e r => (e.1, e.2.map (·.value)) = r) p.mEnums.entries zs := by
      rw [except_mapM_mapM, enumValues, List.forall_mem_map]
      exact forall₂_congr fun e _ => enum_saved_iff.symm
    have same (zs : List (String × Option SimpleValue)) :
        List.Forall₂ (fun e r => (e.1, e.2.map (·.value)) = r) p.mEnums.entries zs ↔
          enumValues p.mEnums = zs := by
      rw [enumValues, ← List.forall₂_eq_eq_eq, List.forall₂_map_left_iff]
    have sorted : (enumValues p.mEnums).Pairwise fun a b => a.1 < b.1 := by
      rw [enumValues, List.pairwise_map]
      exact p.mEnums.sorted
    have children (attributes : List (String × String)) (ys : List Element)
        (first : p.mEnums.entries.mapM (createEnumElement floats) = .ok ys) :
        (defElement "enumeration" attributes "" ys).getChildren "enum" defNs = ys := by
      apply (filter_isNamed (fun y member => ?_) "enum").trans (if_pos rfl)
      obtain ⟨e, -, created⟩ := exists_left_of_forall₂ (except_mapM_eq_ok.mp first) member
      exact named_enum created
    rw [each, and_iff_left fun empty => absurd empty none]
    simp only [createEnumeration, if_neg none, except_bind_eq_ok, same]
    constructor
    · rintro ⟨nodes, r, ⟨ys, first, made⟩, read, values, -⟩
      cases made
      obtain ⟨editable, -, rest⟩ := except_bind_eq_ok.mp read
      obtain ⟨zs, second, made⟩ := except_bind_eq_ok.mp rest
      obtain rfl := Except.ok.inj made
      rw [children _ _ first] at second
      refine ⟨ys, zs, first, second, ?_⟩
      -- the labels that are read are those of the enumeration
      have labels : List.Forall₂ (fun e z => z.1 = e.1) p.mEnums.entries zs := by
        refine forall₂_trans ?_ (except_mapM_eq_ok.mp first) (except_mapM_eq_ok.mp second)
        intro e node z created read
        exact label_of_saved created read
      have ordered : zs.Pairwise fun a b => a.1 < b.1 := by
        refine (pairwise_iff_of_forall₂ labels ?_).mp p.mEnums.sorted
        intro a b x y left right
        rw [left, right]
      rw [values, enumValues_numbered ordered]
    · rintro ⟨ys, zs, first, second, rfl⟩
      refine ⟨_, (p.mEditableEnum, (numbered (enumValues p.mEnums)).foldl
        (fun m e => m.insert e.1 e.2) SortedMap.empty), ⟨ys, first, rfl⟩, ?_,
        (enumValues_numbered sorted).symm, rfl⟩
      rw [← children _ _ first] at second
      have flag : required .nullPointer (some (booleanText p.mEditableEnum)) = .ok _ := rfl
      refine except_bind_eq_ok.mpr ⟨_, flag, except_bind_eq_ok.mpr ⟨_, second, ?_⟩⟩
      rw [editableText_booleanText]
      rfl

/-! ## Properties -/

theorem getTextTrim_textElement (name text : String) :
    (textElement name text).getTextTrim = trim (normalize text) := rfl

theorem getValueTypeClass_valuetypeText (type : ValueType) :
    getValueTypeClass (valuetypeText type) = .ok type := by
  cases type with
  | _ => rfl

theorem named_value {type : ValueType} {v : PropertyValueDefinition} {node : Element}
    (created : createValueElement floats type v = .ok node) :
    node.isNamed defNs "value" = true := by
  rw [createValueElement] at created
  split at created
  · obtain ⟨text, -, made⟩ := except_bind_eq_ok.mp created
    cases made
    exact isNamed_defElement ..
  · cases created
    exact isNamed_defElement ..

theorem named_textElement {name : String} {texts : List String} :
    ∀ node ∈ texts.map (textElement name), node.isNamed defNs name = true := by
  intro node member
  obtain ⟨text, -, rfl⟩ := List.mem_map.mp member
  exact isNamed_defElement ..

/-- Texts that are written and read again. -/
theorem lasts_iff {texts : List String} {name : String} :
    texts = (texts.map (textElement name)).map Element.getTextTrim ↔
      ∀ text ∈ texts, Lasts text := by
  rw [List.map_map]
  exact eq_map_iff

section Children

variable {attributes : List (String × String)} {help : String} {values enumeration : List Element}
  {allowed : List String} (named : ∀ node ∈ values, node.isNamed defNs "value" = true)
  (only : ∀ node ∈ enumeration, node.isNamed defNs "enumeration" = true)
include named only

/-- What the parser finds among the children of a property. -/
theorem children_property (name : String) :
    (defElement "property" attributes "" ([textElement "help" help] ++ values ++
      allowed.map (textElement "allowed_type") ++ enumeration)).getChildren name defNs =
      (if "help" = name then [textElement "help" help] else []) ++
      (if "value" = name then values else []) ++
      (if "allowed_type" = name then allowed.map (textElement "allowed_type") else []) ++
      (if "enumeration" = name then enumeration else []) := by
  have first : ∀ node ∈ [textElement "help" help], node.isNamed defNs "help" = true := by
    intro node member
    obtain rfl := List.mem_singleton.mp member
    exact isNamed_defElement ..
  simp only [getChildren_defElement, List.filter_append, filter_isNamed first, filter_isNamed named,
    filter_isNamed named_textElement, filter_isNamed only]

theorem parse_property {p : PropertyDefinition} :
    parsePropertyDefinition floats (defElement "property" [("valuetype", valuetypeText p.mType),
      ("variable", booleanText p.mVariable), ("name", p.mToken)] ""
      ([textElement "help" p.mHelp] ++ values ++
        p.mAllowedTypes.map (textElement "allowed_type") ++ enumeration)) = (do
      let values ← values.mapM (parseValue floats p.mType)
      let enumeration ← parseEnumeration floats p.mType enumeration.head?
      pure {
        mToken := p.mToken
        mType := p.mType
        mHelp := trim (normalize p.mHelp)
        mPropValueDefs := values
        mEditableEnum := enumeration.1
        mEnums := enumeration.2
        mAllowedTypes := (p.mAllowedTypes.map (textElement "allowed_type")).map Element.getTextTrim
        mVariable := p.mVariable }) := by
  have valuetype (type kind name : String) : [("valuetype", type), ("variable", kind),
      ("name", name)].lookup "valuetype" = some type := rfl
  have kind (type kind name : String) : [("valuetype", type), ("variable", kind),
      ("name", name)].lookup "variable" = some kind := rfl
  have name (type kind name : String) : [("valuetype", type), ("variable", kind),
      ("name", name)].lookup "name" = some name := rfl
  simp only [parsePropertyDefinition, getChildTextTrim, getChild_eq_head?,
    getAttributeValue_defElement, children_property named only, valuetype, kind, name, required,
    except_ok_bind, getValueTypeClass_valuetypeText, isTrue_booleanText, String.reduceEq, if_true,
    if_false, List.nil_append, List.append_nil, List.head?_cons, Option.map_some,
    Option.getD_some, getTextTrim_textElement]

end Children

theorem named_values {p : PropertyDefinition} {values : List Element}
    (created : p.mPropValueDefs.mapM (createValueElement floats p.mType) = .ok values) :
    ∀ node ∈ values, node.isNamed defNs "value" = true := by
  intro node member
  obtain ⟨v, -, here⟩ := exists_left_of_forall₂ (except_mapM_eq_ok.mp created) member
  exact named_value here

theorem named_enumeration {p : PropertyDefinition} {nodes : List Element}
    (created : createEnumeration floats p = .ok nodes) :
    ∀ node ∈ nodes, node.isNamed defNs "enumeration" = true := by
  intro node member
  rw [createEnumeration] at created
  split at created
  · cases created
    cases member
  · obtain ⟨enums, -, made⟩ := except_bind_eq_ok.mp created
    cases made
    obtain rfl := List.mem_singleton.mp member
    exact isNamed_defElement ..

/-- A property is written and the same property is read just when it is kept. -/
theorem property_saved_iff {p : PropertyDefinition} :
    (∃ node q, createPropertyElement floats p = .ok node ∧
      parsePropertyDefinition floats node = .ok q ∧ SameProperty p q) ↔ KeptProperty p := by
  have defaults : (∀ v ∈ p.mPropValueDefs, KeptDefault p.mType v) ↔ ∃ ys zs,
      p.mPropValueDefs.mapM (createValueElement floats p.mType) = .ok ys ∧
      ys.mapM (parseValue floats p.mType) = .ok zs ∧
      List.Forall₂ (fun v w => v.equals w = true) p.mPropValueDefs zs := by
    rw [except_mapM_mapM]
    exact forall₂_congr fun v _ => value_saved_iff.symm
  constructor
  · rintro ⟨node, q, created, read, same⟩
    obtain ⟨values, first, rest⟩ := except_bind_eq_ok.mp created
    obtain ⟨nodes, second, made⟩ := except_bind_eq_ok.mp rest
    cases made
    rw [parse_property (named_values first) (named_enumeration second)] at read
    obtain ⟨ws, third, rest⟩ := except_bind_eq_ok.mp read
    obtain ⟨r, fourth, made⟩ := except_bind_eq_ok.mp rest
    cases made
    have equal := same.equal
    simp only [PropertyDefinition.equals, Bool.and_eq_true, decide_eq_true_eq,
      equalLists_iff] at equal
    obtain ⟨⟨⟨-, help⟩, equalValues⟩, -⟩ := equal
    obtain ⟨enums, editable⟩ := enumeration_saved_iff.mp
      ⟨nodes, r, second, fourth, same.enums, same.editable⟩
    exact {
      help := help.symm
      defaults := defaults.mpr ⟨values, ws, first, third, equalValues⟩
      enums := enums
      editable := editable
      allowed := lasts_iff.mp same.allowed }
  · intro kept
    obtain ⟨values, ws, first, third, equalValues⟩ := defaults.mp kept.defaults
    obtain ⟨nodes, r, second, fourth, enums, editable⟩ :=
      enumeration_saved_iff.mpr ⟨kept.enums, kept.editable⟩
    have read : parsePropertyDefinition floats _ = _ :=
      parse_property (p := p) (named_values first) (named_enumeration second)
    rw [third, except_ok_bind, fourth, except_ok_bind] at read
    refine ⟨_, _, except_bind_eq_ok.mpr ⟨values, first, except_bind_eq_ok.mpr ⟨nodes, second, rfl⟩⟩,
      read, ?_, enums, editable, lasts_iff.mpr kept.allowed⟩
    simp only [PropertyDefinition.equals, equalLists_iff.mpr equalValues,
      show trim (normalize p.mHelp) = p.mHelp from kept.help, decide_true, Bool.and_self]

end VRJuggler.ConfigIo
