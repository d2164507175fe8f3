import VRJuggler.ConfigIo.ElementDocuments

/-!
# Elements that are written and read again

An element whose values have the types of its definition is written, and what is written is
read. The same element is read just when each property has as many values as it should have and
no text that is written for a value is the label of another value.
-/
namespace VRJuggler.ConfigIo

open Config Throwing

/-! ## Elements that fit their definitions -/

/-- A value of the type. Its strings are tidy. -/
def HasType : ValueType → SimpleValue → Prop
  | .boolean, .boolean _ => True
  | .integer, .integer value => Int32 value
  | .float, .float _ => True
  | .string, .string value => Tidy value
  | .configElementPointer, .pointer mTarget => Tidy (mTarget.getD "")
  | _, _ => False

def Typed (d : PropertyDefinition) : Value ConfigElement → Prop
  | .object v => HasType d.mType v.value
  | .element _ => d.mType = .configElement
  | .null => False

/-- The labels are tidy, and the pointers have targets. -/
def FitsEnum (d : PropertyDefinition) : Prop :=
  ∀ label value, d.mEnums.find label = some value →
    Tidy label ∧ ∀ v : ValueObject, value = some v → v.value ≠ .pointer none

/-- The definition is the newest, and there are values of the right types for each of its
properties. -/
inductive Fits (repos : ConfigDefinitionRepository) : ConfigElement → Prop where
  | mk {e : ConfigElement} {defs : List PropertyDefinition}
    (newest : repos.get e.mDefinition.mToken = some e.mDefinition)
    (version : Int32 e.mDefinition.mVersion)
    (returns : Returns (getPropertyDefinitions repos · e.mDefinition) defs)
    (enums : ∀ d ∈ defs, FitsEnum d)
    (distinct : (e.mProps.map Prod.fst).Nodup)
    (tokens : ∀ token, token ∈ e.mProps.map Prod.fst ↔ token ∈ defs.map (·.mToken))
    (typed : ∀ d ∈ defs, ∀ vs, e.mProps.lookup d.mToken = some vs → ∀ v ∈ vs, Typed d v)
    (embedded : ∀ p ∈ e.mProps, ∀ c : ConfigElement, .element c ∈ p.2 → Fits repos c) :
    Fits repos e

/-- No definition of the elements lists a token twice. -/
inductive WrittenOnce (repos : ConfigDefinitionRepository) : ConfigElement → Prop where
  | mk {e : ConfigElement} {defs : List PropertyDefinition}
    (returns : Returns (getPropertyDefinitions repos · e.mDefinition) defs)
    (distinct : (defs.map (·.mToken)).Nodup)
    (embedded : ∀ p ∈ e.mProps, ∀ c : ConfigElement, .element c ∈ p.2 → WrittenOnce repos c) :
    WrittenOnce repos e

/-! ## Elements that keep their values -/

section Storable

variable (floats : FloatText)

/-- The text that is written for the value is no label, or the label of an equal value. -/
def Readable (d : PropertyDefinition) (v : ValueObject) : Prop :=
  ∀ value, d.mEnums.find ((getValueString floats d v).getD "") = some value →
    ∃ w, value = some w ∧ filled v.value = filled w.value

/-- What has to be written for an embedded element is no label. -/
def Unmistakable (d : PropertyDefinition) : Value ConfigElement → Prop
  | .object v => Readable floats d v
  | .element _ => d.mEnums.find "" = none
  | .null => False

/-- There are as many values as there should be, and none is taken for another one. -/
structure StorableValues (d : PropertyDefinition) (vs : List (Value ConfigElement)) : Prop where
  count : d.mVariable = false → vs.length = d.mPropValueDefs.length
  unmistakable : ∀ v ∈ vs, Unmistakable floats d v

/-- The values of all properties are kept, at every depth. -/
inductive Storable (repos : ConfigDefinitionRepository) : ConfigElement → Prop where
  | mk {e : ConfigElement} {defs : List PropertyDefinition}
    (returns : Returns (getPropertyDefinitions repos · e.mDefinition) defs)
    (values : ∀ d ∈ defs, ∀ vs, e.mProps.lookup d.mToken = some vs → StorableValues floats d vs)
    (embedded : ∀ p ∈ e.mProps, ∀ c : ConfigElement, .element c ∈ p.2 → Storable repos c) :
    Storable repos e

end Storable

/-! ## Texts -/

theorem isTrue_false : isTrue "false" = false := by decide

theorem isTrue_true : isTrue "true" = true := by decide

theorem tidy_empty : Tidy "" := by decide

theorem tidy_false : Tidy "false" := by decide

theorem tidy_true : Tidy "true" := by decide

/-- A tidy text is written and read as it is. -/
theorem trim_normalize {text : String} (tidy : Tidy text) : trim (normalize text) = text := by
  rw [tidy.1, tidy.2]

variable {floats : FloatText}

/-- The text of a value is that of the same value. -/
theorem convert_valueText {type : ValueType} {v : SimpleValue} (hasType : HasType type v) :
    convert floats ((valueText floats v).getD "") type = some (filled v) := by
  match type, v, hasType with
  | .boolean, .boolean true, _ => simp [convert, valueText, filled, isTrue_true]
  | .boolean, .boolean false, _ => simp [convert, valueText, filled, isTrue_false]
  | .integer, .integer n, fits => simp [convert, valueText, filled, parseInt_repr fits]
  | .float, .float bits, _ => simp [convert, valueText, filled, floats.parse_toText]
  | .string, .string text, _ => rfl
  | .configElementPointer, .pointer none, _ => rfl
  | .configElementPointer, .pointer (some _), _ => rfl

theorem tidy_valueText {type : ValueType} {v : SimpleValue} (hasType : HasType type v) :
    Tidy ((valueText floats v).getD "") := by
  match type, v, hasType with
  | .boolean, .boolean true, _ => exact tidy_true
  | .boolean, .boolean false, _ => exact tidy_false
  | .integer, .integer n, _ => exact tidy_repr n
  | .float, .float bits, _ => exact floats.tidy bits
  | .string, .string text, tidy => exact tidy
  | .configElementPointer, .pointer mTarget, tidy => exact tidy

/-- The text that is written for a value is a label or its own text. -/
theorem getValueString_eq (floats : FloatText) (d : PropertyDefinition) (v : ValueObject) :
    (∃ label value, d.mEnums.find label = some value ∧
      getValueString floats d v = some label) ∨
    getValueString floats d v = valueText floats v.value := by
  rw [getValueString]
  split
  · split
    next e found =>
      have member := List.mem_of_find?_eq_some found
      have here : d.mEnums.find e.1 = some e.2 :=
        lookup_eq_some_of_mem d.mEnums.nodup_keys member
      exact .inl ⟨e.1, e.2, here, rfl⟩
    next => exact .inr rfl
  · exact .inr rfl

theorem filled_filled (v : SimpleValue) : filled (filled v) = filled v := by
  match v with
  | .pointer none => rfl
  | .pointer (some _) => rfl
  | .boolean _ => rfl
  | .integer _ => rfl
  | .float _ => rfl
  | .string _ => rfl

theorem filled_ne (v : SimpleValue) : filled v ≠ .pointer none := by
  match v with
  | .pointer none => simp [filled]
  | .pointer (some _) => simp [filled]
  | .boolean _ => simp [filled]
  | .integer _ => simp [filled]
  | .float _ => simp [filled]
  | .string _ => simp [filled]

/-! ## One value -/

section Passing

variable (floats) (transform : Nat → Element → Option (Element × List Element))
  (repos : ConfigDefinitionRepository)

/-- The element is written, what is written is read, and the same element is read just when all
its values are kept. -/
def Passes (e : ConfigElement) : Prop :=
  ∃ node c, Ends (addElement floats repos · e) (.ok node) ∧
    Ends (parse floats transform repos · node) (.ok (c, [])) ∧
    (Same e c ↔ Storable floats repos e) ∧ (Storable floats repos e → Settled repos c)

/-- The value is not taken for another, and an embedded element keeps its values. -/
def Kept (d : PropertyDefinition) (v : Value ConfigElement) : Prop :=
  Unmistakable floats d v ∧ ∀ c, v = .element c → Storable floats repos c

/-- The value is written as `node`, and `w` is read. -/
structure ValuePasses (d : PropertyDefinition) (v : Value ConfigElement) (node : Element)
    (w : Value ConfigElement) : Prop where
  written : Ends (fun depth => addValue floats (addElement floats repos depth) d v) (.ok node)
  named : node.isNamed cfgNs d.mToken = true
  read : Ends (fun depth => parsePropertyValue floats (parse floats transform repos depth) d node)
    (.ok w)
  same : SameValue Same v w ↔ Kept floats repos d v
  targets : Kept floats repos d v → ∀ o : ValueObject, w = .object o → o.value ≠ .pointer none
  settled : Kept floats repos d v → ∀ c, w = .element c → Settled repos c

variable {floats transform repos}

theorem isNamed_cfgElement (name text : String) (children : List Element) :
    (cfgElement name text children).isNamed cfgNs name = true := by
  simp [cfgElement, Element.isNamed]

/-- A text that is a label is read as the value of the label. -/
theorem parse_label {d : PropertyDefinition} {node : Element} {value : Option ValueObject}
    (found : d.mEnums.find (trim node.text) = some value) :
    Ends (fun depth => parsePropertyValue floats (parse floats transform repos depth) d node)
      (.ok ((value.map Value.object).getD .null)) := by
  have eq (depth : Nat) :
      parsePropertyValue floats (parse floats transform repos depth) d node =
        pure ((value.map Value.object).getD .null) := by
    rw [parsePropertyValue]
    cases value with
    | none => simp only [found, Option.map_none, Option.getD_none]
    | some v => simp only [found, Option.map_some, Option.getD_some]
  simp only [eq]
  exact .pure _

/-- A text that is no label is read as a value of the type. -/
theorem parse_text {d : PropertyDefinition} {node : Element} {value : SimpleValue}
    (simple : d.mType ≠ .configElement) (none : d.mEnums.find (trim node.text) = none)
    (converted : convert floats (trim node.text) d.mType = some value) :
    Ends (fun depth => parsePropertyValue floats (parse floats transform repos depth) d node)
      (.ok (.object ⟨0, value⟩)) := by
  have eq (depth : Nat) :
      parsePropertyValue floats (parse floats transform repos depth) d node =
        pure (.object ⟨0, value⟩) := by
    rw [parsePropertyValue]
    simp only [none, if_pos simple, converted]
    rfl
  simp only [eq]
  exact .pure _

theorem parse_embedded {d : PropertyDefinition} {node child : Element} {c : ConfigElement}
    {created : List Element} (embedded : d.mType = .configElement)
    (none : d.mEnums.find (trim node.text) = none) (children : node.children = [child])
    (read : Ends (parse floats transform repos · child) (.ok (c, created))) :
    Ends (fun depth => parsePropertyValue floats (parse floats transform repos depth) d node)
      (.ok (.element c)) := by
  have eq (depth : Nat) :
      parsePropertyValue floats (parse floats transform repos depth) d node =
        rethrow (withDetail (· ++ "\nCaught while parsing property " ++ d.mToken))
          (parse floats transform repos depth child >>= fun r => pure (.element r.1)) := by
    rw [parsePropertyValue]
    simp only [none, if_neg (not_not.mpr embedded), children]
    rfl
  simp only [eq]
  exact (read.map fun r => Value.element r.1).rethrow_ok

theorem object_passes {d : PropertyDefinition} {v : ValueObject}
    (hasType : HasType d.mType v.value) (enums : FitsEnum d) :
    ∃ node w, ValuePasses floats transform repos d (.object v) node w := by
  have simple : d.mType ≠ .configElement := by
    intro embedded
    rw [embedded] at hasType
    cases hasType
  -- the text has no blanks at its ends, so reading it back does not trim it
  have tidy : Tidy ((getValueString floats d v).getD "") := by
    rcases getValueString_eq floats d v with ⟨label, value, found, text⟩ | text
    · rw [text]
      exact (enums label value found).1
    · rw [text]
      exact tidy_valueText hasType
  have written : Ends (fun depth => addValue floats (addElement floats repos depth) d (.object v))
      (.ok (cfgElement d.mToken ((getValueString floats d v).getD "") [])) := by
    simp only [addValue, if_pos simple]
    exact .pure _
  have text : trim (cfgElement d.mToken ((getValueString floats d v).getD "") []).text =
      (getValueString floats d v).getD "" := trim_normalize tidy
  have noElement (c : ConfigElement) (same : Value.object v = .element c) :
      Storable floats repos c := by cases same
  -- the parser takes a text that is a label for the value of the label
  cases found : d.mEnums.find ((getValueString floats d v).getD "") with
  | some value =>
    have read : Ends (fun depth =>
        parsePropertyValue floats (parse floats transform repos depth) d _) _ :=
      parse_label (text ▸ found)
    refine ⟨_, _, written, isNamed_cfgElement .., read, ?_, ?_, ?_⟩
    · constructor
      · intro same
        refine ⟨fun value' here => ?_, noElement⟩
        rw [found] at here
        obtain rfl := Option.some.inj here
        cases value with
        | none => cases same
        | some w =>
          cases same with
          | object same => exact ⟨w, rfl, same⟩
      · rintro ⟨readable, -⟩
        obtain ⟨w, rfl, same⟩ := readable value found
        exact .object same
    · rintro ⟨readable, -⟩ o here
      obtain ⟨w, rfl, -⟩ := readable value found
      cases here
      exact (enums _ _ found).2 _ rfl
    · intro _ c here
      cases value with
      | none => cases here
      | some w => cases here
  | none =>
    -- a label would have been found
    have own : getValueString floats d v = valueText floats v.value := by
      rcases getValueString_eq floats d v with ⟨label, value, here, same⟩ | own
      · rw [same, Option.getD_some, here] at found
        cases found
      · exact own
    have converted : convert floats ((getValueString floats d v).getD "") d.mType =
        some (filled v.value) := by
      rw [own]
      exact convert_valueText hasType
    have read : Ends (fun depth =>
        parsePropertyValue floats (parse floats transform repos depth) d _) _ :=
      parse_text simple (text ▸ found) (text ▸ converted)
    refine ⟨_, _, written, isNamed_cfgElement .., read, ?_, ?_, ?_⟩
    · apply iff_of_true
      · exact .object (filled_filled v.value).symm
      · refine ⟨fun value here => ?_, noElement⟩
        rw [found] at here
        cases here
    · rintro _ o here
      cases here
      exact filled_ne v.value
    · rintro _ c here
      cases here

theorem embedded_passes {d : PropertyDefinition} {e : ConfigElement}
    (embedded : d.mType = .configElement) (below : Passes floats transform repos e) :
    ∃ node w, ValuePasses floats transform repos d (.element e) node w := by
  obtain ⟨child, c, inner, parsed, same, settled⟩ := below
  have written : Ends (fun depth => addValue floats (addElement floats repos depth) d (.element e))
      (.ok (cfgElement d.mToken "" [child])) := by
    simp only [addValue, if_neg (not_not.mpr embedded)]
    exact inner.ok_bind (.pure _)
  have text : trim (cfgElement d.mToken "" [child]).text = "" := trim_normalize tidy_empty
  have kept : Kept floats repos d (.element e) ↔
      d.mEnums.find "" = none ∧ Storable floats repos e := by
    constructor
    · rintro ⟨none, storable⟩
      exact ⟨none, storable e rfl⟩
    · rintro ⟨none, storable⟩
      refine ⟨none, fun c here => ?_⟩
      cases here
      exact storable
  cases found : d.mEnums.find "" with
  | some value =>
    have read : Ends (fun depth =>
        parsePropertyValue floats (parse floats transform repos depth) d _) _ :=
      parse_label (text ▸ found)
    have lost : ¬ Kept floats repos d (.element e) := by
      rw [kept, found]
      rintro ⟨none, -⟩
      cases none
    refine ⟨_, _, written, isNamed_cfgElement .., read, ?_, fun here => absurd here lost,
      fun here => absurd here lost⟩
    refine iff_of_false (fun same => ?_) lost
    cases value with
    | none => cases same
    | some w => cases same
  | none =>
    have read : Ends (fun depth =>
        parsePropertyValue floats (parse floats transform repos depth) d _) _ :=
      parse_embedded embedded (text ▸ found) rfl parsed
    refine ⟨_, _, written, isNamed_cfgElement .., read, ?_, ?_, ?_⟩
    · rw [kept, ← same]
      constructor
      · intro here
        cases here with
        | element here => exact ⟨found, here⟩
      · rintro ⟨-, here⟩
        exact .element here
    · rintro _ o here
      cases here
    · rintro here c' there
      cases there
      exact settled (kept.mp here).2

theorem value_passes {d : PropertyDefinition} {v : Value ConfigElement} (typed : Typed d v)
    (enums : FitsEnum d) (below : ∀ c, v = .element c → Passes floats transform repos c) :
    ∃ node w, ValuePasses floats transform repos d v node w := by
  cases v with
  | null => exact typed.elim
  | object v => exact object_passes typed enums
  | element c => exact embedded_passes typed (below c rfl)

/-! ## The values of a property -/

/-- The values that are read where there are `ws` in the document. -/
def readValues (d : PropertyDefinition) (ws : List (Value ConfigElement)) :
    List (Value ConfigElement) :=
  if d.mVariable then ws
  else if ws.length < d.mPropValueDefs.length then
    ws ++ List.replicate (d.mPropValueDefs.length - ws.length) (defaultAt d ws.length)
  else ws.take d.mPropValueDefs.length

theorem length_readValues (d : PropertyDefinition) (ws : List (Value ConfigElement)) :
    (readValues d ws).length =
      if d.mVariable then ws.length else d.mPropValueDefs.length := by
  rw [readValues]
  split
  · rfl
  · split
    · rw [List.length_append, List.length_replicate]
      omega
    · rw [List.length_take]
      omega

/-- Nothing is added or removed where there are as many values as there should be. -/
theorem readValues_eq {d : PropertyDefinition} {ws : List (Value ConfigElement)}
    (count : d.mVariable = false → ws.length = d.mPropValueDefs.length) :
    readValues d ws = ws := by
  rw [readValues]
  split
  · rfl
  next fixed =>
    have sizes := count (Bool.not_eq_true _ ▸ fixed)
    rw [if_neg (by omega), ← sizes, List.take_length]

theorem isNamed_of_ne {name other : String} (ne : other ≠ name) (e : Element)
    (named : e.isNamed cfgNs other = true) : e.isNamed cfgNs name = false := by
  simp only [Element.isNamed, Bool.and_eq_true, decide_eq_true_eq] at named
  simp [Element.isNamed, named.2, ne]

theorem parsePropertyValues_ends {d : PropertyDefinition} {children nodes : List Element}
    {ws : List (Value ConfigElement)}
    (elements : children.filter (Element.isNamed cfgNs d.mToken) = nodes)
    (read : List.Forall₂ (fun node w => Ends (fun depth =>
      parsePropertyValue floats (parse floats transform repos depth) d node) (.ok w)) nodes ws) :
    ∃ left, Ends (fun depth =>
        parsePropertyValues floats (parse floats transform repos depth) d children)
        (.ok (readValues d ws, left)) ∧
      ∀ token, token ≠ d.mToken → left.filter (Element.isNamed cfgNs token) =
        children.filter (Element.isNamed cfgNs token) := by
  have sizes := read.length_eq
  simp only [parsePropertyValues, elements]
  by_cases excess : (!d.mVariable && d.mPropValueDefs.length < nodes.length) = true
  · refine ⟨removeExcess (Element.isNamed cfgNs d.mToken) d.mPropValueDefs.length children, ?_, ?_⟩
    · rw [Bool.and_eq_true, decide_eq_true_eq, Bool.not_eq_true'] at excess
      have values : readValues d ws = ws.take d.mPropValueDefs.length := by
        rw [readValues, if_neg (by simp [excess.1]), if_neg (by omega)]
      have none : (!d.mVariable && nodes.length < d.mPropValueDefs.length) = false := by
        simp [Nat.le_of_lt excess.2]
      have more : (!d.mVariable && d.mPropValueDefs.length < nodes.length) = true := by
        simp [excess.1, excess.2]
      simp only [none, more, if_true, Bool.false_eq_true, if_false, filter_removeExcess, elements,
        values, List.append_nil]
      have kept := Ends.mapM (List.forall₂_take d.mPropValueDefs.length read)
      exact kept.map fun values => (values, _)
    · intro token other
      exact filter_removeExcess_of_ne (isNamed_of_ne other) _ _
  · refine ⟨children, ?_, fun _ _ => rfl⟩
    simp only [excess, Bool.false_eq_true, if_false, elements]
    have values : readValues d ws = ws ++
        if (!d.mVariable && nodes.length < d.mPropValueDefs.length) = true then
          List.replicate (d.mPropValueDefs.length - nodes.length) (defaultAt d nodes.length)
        else [] := by
      rw [readValues, sizes]
      cases fixed : d.mVariable with
      | true => simp
      | false =>
        simp [fixed, sizes] at excess
        by_cases few : ws.length < d.mPropValueDefs.length
        · simp [few]
        · have all : ws.take d.mPropValueDefs.length = ws := by
            rw [List.take_of_length_le]
            omega
          simp [few, all]
    rw [values]
    exact (Ends.mapM read).map fun values => (values ++ _, children)

/-- All values are kept, and there are as many as there should be. -/
def KeptAll (floats : FloatText) (repos : ConfigDefinitionRepository) (d : PropertyDefinition)
    (vs : List (Value ConfigElement)) : Prop :=
  (d.mVariable = false → vs.length = d.mPropValueDefs.length) ∧ ∀ v ∈ vs, Kept floats repos d v

theorem same_readValues {d : PropertyDefinition} {vs ws : List (Value ConfigElement)}
    (each : List.Forall₂ (fun v w => SameValue Same v w ↔ Kept floats repos d v) vs ws) :
    List.Forall₂ (SameValue Same) vs (readValues d ws) ↔ KeptAll floats repos d vs := by
  have sizes := each.length_eq
  have same : List.Forall₂ (SameValue Same) vs ws ↔ ∀ v ∈ vs, Kept floats repos d v := by
    clear sizes
    induction each with
    | nil => simp
    | cons first _ ih => rw [List.forall₂_cons, List.forall_mem_cons, first, ih]
  by_cases count : d.mVariable = false → vs.length = d.mPropValueDefs.length
  · rw [readValues_eq (by rwa [← sizes]), same, KeptAll, and_iff_right count]
  · refine iff_of_false (fun related => count fun fixed => ?_) fun kept => count kept.1
    have lengths := related.length_eq
    rwa [length_readValues, fixed, if_neg Bool.false_ne_true] at lengths

/-- The property is written as `nodes`, and values are read from them whatever other properties
there are. -/
structure PropertyPasses (floats : FloatText)
    (transform : Nat → Element → Option (Element × List Element))
    (repos : ConfigDefinitionRepository) (d : PropertyDefinition)
    (vs : List (Value ConfigElement)) (nodes : List Element) (ws : List (Value ConfigElement)) :
    Prop where
  written : Ends (fun depth => vs.mapM (addValue floats (addElement floats repos depth) d))
    (.ok nodes)
  named : ∀ node ∈ nodes, node.isNamed cfgNs d.mToken = true
  read : ∀ children, children.filter (Element.isNamed cfgNs d.mToken) = nodes →
    ∃ left, Ends (fun depth =>
        parsePropertyValues floats (parse floats transform repos depth) d children)
        (.ok (ws, left)) ∧
      ∀ token, token ≠ d.mToken → left.filter (Element.isNamed cfgNs token) =
        children.filter (Element.isNamed cfgNs token)
  same : List.Forall₂ (SameValue Same) vs ws ↔ KeptAll floats repos d vs
  targets : KeptAll floats repos d vs → ∀ o : ValueObject, .object o ∈ ws → o.value ≠ .pointer none
  settled : KeptAll floats repos d vs → ∀ c, .element c ∈ ws → Settled repos c

theorem property_passes {d : PropertyDefinition} {vs : List (Value ConfigElement)}
    (enums : FitsEnum d) (typed : ∀ v ∈ vs, Typed d v)
    (below : ∀ c, .element c ∈ vs → Passes floats transform repos c) :
    ∃ nodes ws, PropertyPasses floats transform repos d vs nodes ws := by
  obtain ⟨pairs, each⟩ := exists_forall₂ fun v member => by
    have here : ∃ node w, ValuePasses floats transform repos d v node w :=
      value_passes (typed v member) enums fun c same => below c (same ▸ member)
    obtain ⟨node, w, passes⟩ := here
    exact (⟨(node, w), passes⟩ : ∃ p : Element × Value ConfigElement,
      ValuePasses floats transform repos d v p.1 p.2)
  have written : List.Forall₂ (fun v node => Ends (fun depth =>
      addValue floats (addElement floats repos depth) d v) (.ok node)) vs (pairs.map (·.1)) := by
    rw [List.forall₂_map_right_iff]
    exact each.imp fun _ _ passes => passes.written
  have read : List.Forall₂ (fun node w => Ends (fun depth =>
      parsePropertyValue floats (parse floats transform repos depth) d node) (.ok w))
      (pairs.map (·.1)) (pairs.map (·.2)) := by
    rw [List.forall₂_map_left_iff, List.forall₂_map_right_iff, List.forall₂_same]
    intro p member
    obtain ⟨v, -, passes⟩ := exists_left_of_forall₂ each member
    exact passes.read
  have same : List.Forall₂ (fun v w => SameValue Same v w ↔ Kept floats repos d v) vs
      (pairs.map (·.2)) := by
    rw [List.forall₂_map_right_iff]
    exact each.imp fun _ _ passes => passes.same
  have origin (kept : KeptAll floats repos d vs) (w : Value ConfigElement)
      (member : w ∈ readValues d (pairs.map (·.2))) :
      ∃ v node, ValuePasses floats transform repos d v node w ∧ Kept floats repos d v := by
    rw [readValues_eq (by simpa [each.length_eq] using kept.1)] at member
    obtain ⟨p, there, rfl⟩ := List.mem_map.mp member
    obtain ⟨v, here, passes⟩ := exists_left_of_forall₂ each there
    exact ⟨v, p.1, passes, kept.2 v here⟩
  refine ⟨pairs.map (·.1), readValues d (pairs.map (·.2)), .mapM written, ?_,
    fun children elements => parsePropertyValues_ends elements read, same_readValues same, ?_, ?_⟩
  · intro node member
    obtain ⟨p, there, rfl⟩ := List.mem_map.mp member
    obtain ⟨v, -, passes⟩ := exists_left_of_forall₂ each there
    exact passes.named
  · intro kept o member
    obtain ⟨v, node, passes, keeps⟩ := origin kept _ member
    exact passes.targets keeps o rfl
  · intro kept c member
    obtain ⟨v, node, passes, keeps⟩ := origin kept _ member
    exact passes.settled keeps c rfl

/-! ## Whole elements -/

/-- The nodes of a property are found among those of all properties. -/
theorem filter_flatten {P : PropertyDefinition → List Element → Prop}
    {defs : List PropertyDefinition} {parts : List (List Element)}
    (related : List.Forall₂ (fun d nodes =>
      (∀ node ∈ nodes, node.isNamed cfgNs d.mToken = true) ∧ P d nodes) defs parts)
    (distinct : (defs.map (·.mToken)).Nodup) :
    ∀ d ∈ defs, P d (parts.flatten.filter (Element.isNamed cfgNs d.mToken)) := by
  induction related with
  | nil => exact fun d member => absurd member List.not_mem_nil
  | @cons d nodes defs parts first related ih =>
    rw [List.map_cons, List.nodup_cons] at distinct
    intro d' member
    rw [List.flatten_cons, List.filter_append]
    rcases List.mem_cons.mp member with rfl | member
    · have own : nodes.filter (Element.isNamed cfgNs d'.mToken) = nodes :=
        List.filter_eq_self.mpr first.1
      have others : parts.flatten.filter (Element.isNamed cfgNs d'.mToken) = [] := by
        rw [List.filter_eq_nil_iff]
        intro node here
        obtain ⟨part, there, inside⟩ := List.mem_flatten.mp here
        obtain ⟨d, isDef, named, -⟩ := exists_left_of_forall₂ related there
        have ne : d.mToken ≠ d'.mToken := fun same =>
          distinct.1 (same ▸ List.mem_map_of_mem isDef)
        rw [isNamed_of_ne ne node (named node inside)]
        exact Bool.false_ne_true
      rw [own, others, List.append_nil]
      exact first.2
    · have others : nodes.filter (Element.isNamed cfgNs d'.mToken) = [] := by
        rw [List.filter_eq_nil_iff]
        intro node here
        have ne : d.mToken ≠ d'.mToken := fun same =>
          distinct.1 (same ▸ List.mem_map_of_mem member)
        rw [isNamed_of_ne ne node (first.1 node here)]
        exact Bool.false_ne_true
      rw [others, List.nil_append]
      exact ih distinct.2 d' member

/-- Each property is read from its own nodes. -/
theorem parseProperties_ends {defs : List PropertyDefinition} {children : List Element}
    {props : List (String × List (Value ConfigElement))}
    {Q : PropertyDefinition → List (Value ConfigElement) → Prop}
    (distinct : (defs.map (·.mToken)).Nodup) (sorted : props.Pairwise fun p q => p.1 < q.1)
    (read : ∀ d ∈ defs, ∀ others, others.filter (Element.isNamed cfgNs d.mToken) =
        children.filter (Element.isNamed cfgNs d.mToken) →
      ∃ ws left, Q d ws ∧ Ends (fun depth =>
          parsePropertyValues floats (parse floats transform repos depth) d others)
          (.ok (ws, left)) ∧
        ∀ token, token ≠ d.mToken → left.filter (Element.isNamed cfgNs token) =
          others.filter (Element.isNamed cfgNs token)) :
    ∃ result, Ends (fun depth =>
        parseProperties floats (parse floats transform repos depth) defs children props)
        (.ok result) ∧
      (∀ d ∈ defs, ∃ ws, result.lookup d.mToken = some ws ∧ Q d ws) ∧
      (∀ token, token ∉ defs.map (·.mToken) → result.lookup token = props.lookup token) ∧
      result.Pairwise fun p q => p.1 < q.1 := by
  induction defs generalizing children props with
  | nil =>
    refine ⟨props, .pure _, ?_, fun _ _ => rfl, sorted⟩
    exact fun d member => absurd member List.not_mem_nil
  | cons d rest ih =>
    rw [List.map_cons, List.nodup_cons] at distinct
    obtain ⟨ws, left, good, first, same⟩ := read d (List.mem_cons_self ..) children rfl
    have keep (d' : PropertyDefinition) (member : d' ∈ rest) :
        left.filter (Element.isNamed cfgNs d'.mToken) =
          children.filter (Element.isNamed cfgNs d'.mToken) :=
      same d'.mToken fun equal => distinct.1 (equal ▸ List.mem_map_of_mem member)
    obtain ⟨result, ends, found, others, sorted'⟩ := @ih left
      (SortedMap.insertEntry d.mToken ws props) distinct.2
      (SortedMap.pairwise_insertEntry d.mToken ws sorted) fun d' member others equal =>
        read d' (List.mem_cons_of_mem _ member) others (equal.trans (keep d' member))
    have here : result.lookup d.mToken = some ws := by
      rw [others d.mToken distinct.1, SortedMap.lookup_insertEntry_self]
    refine ⟨result, ?_, ?_, ?_, sorted'⟩
    · simp only [parseProperties]
      exact first.ok_bind ends
    · intro d' member
      rcases List.mem_cons.mp member with rfl | member
      · exact ⟨ws, here, good⟩
      · exact found d' member
    · intro token absent
      rw [List.map_cons, List.mem_cons, not_or] at absent
      rw [others token absent.2, SortedMap.lookup_insertEntry_of_ne _ _ absent.1]

/-- An element of the newest version is not upgraded. -/
theorem parse_newest {root : Element} {d : ConfigDefinition} {defs : List PropertyDefinition}
    {name : String} {props : List (String × List (Value ConfigElement))}
    (newest : repos.get root.name = some d) (fits : Int32 d.mVersion)
    (version : root.getAttributeValue "version" = some d.mVersion.repr)
    (named : root.getAttributeValue "name" = some name)
    (returns : Returns (getPropertyDefinitions repos · d) defs)
    (read : Ends (fun depth =>
      parseProperties floats (parse floats transform repos depth) defs root.children [])
      (.ok props)) :
    Ends (parse floats transform repos · root) (.ok (⟨name, d, props⟩, [])) := by
  obtain ⟨number, here⟩ := ConfigDefinitionRepository.newest_of_get newest
  have eq (depth : Nat) : parse floats transform repos (depth + 1) root =
      rethrow (withDetail ("Failed to parse config element \"" ++ name ++ "\"\n" ++ ·)) (do
        let defs ← ExceptT.lift (getPropertyDefinitions repos depth d)
        let mProps ← parseProperties floats (parse floats transform repos depth) defs
          root.children []
        pure (⟨name, d, mProps⟩, [])) := by
    simp only [parse, version, named, number, orThrow_some, pure_bind, parseInt_repr fits, here,
      Int.sub_self, Int.toNat_zero, upgrade]
  refine Returns.congr eq (Ends.rethrow_ok ?_)
  exact (Ends.lift returns).ok_bind
    (read.map fun mProps => ((⟨name, d, mProps⟩ : ConfigElement), []))

theorem storable_iff {e : ConfigElement} {defs : List PropertyDefinition}
    (returns : Returns (getPropertyDefinitions repos · e.mDefinition) defs)
    (distinct : (e.mProps.map Prod.fst).Nodup)
    (tokens : ∀ token, token ∈ e.mProps.map Prod.fst ↔ token ∈ defs.map (·.mToken)) :
    Storable floats repos e ↔
      ∀ d ∈ defs, ∀ vs, e.mProps.lookup d.mToken = some vs → KeptAll floats repos d vs := by
  constructor
  · intro storable d member vs found
    cases storable with
    | mk returns' values embedded =>
      obtain rfl := returns.unique returns'
      have here := values d member vs found
      refine ⟨here.count, fun v inside => ⟨here.unmistakable v inside, ?_⟩⟩
      rintro c rfl
      exact embedded _ (mem_of_lookup found) c inside
  · intro kept
    refine .mk returns (fun d member vs found => ?_) fun p member c inside => ?_
    · have here := kept d member vs found
      exact ⟨here.1, fun v inside => (here.2 v inside).1⟩
    · obtain ⟨d, isDef, token⟩ := List.mem_map.mp
        ((tokens p.1).mp (List.mem_map_of_mem member))
      have here := kept d isDef p.2 (token ▸ lookup_eq_some_of_mem distinct member)
      exact (here.2 _ inside).2 c rfl

/-- The properties of an element are read as `result`. -/
structure ElementPasses (floats : FloatText)
    (transform : Nat → Element → Option (Element × List Element))
    (repos : ConfigDefinitionRepository) (e : ConfigElement) (defs : List PropertyDefinition)
    (result : List (String × List (Value ConfigElement))) : Prop where
  found : ∀ d ∈ defs, ∃ vs nodes ws, e.mProps.lookup d.mToken = some vs ∧
    result.lookup d.mToken = some ws ∧ PropertyPasses floats transform repos d vs nodes ws
  absent : ∀ token, token ∉ defs.map (·.mToken) → result.lookup token = none
  sorted : result.Pairwise fun p q => p.1 < q.1

section Results

variable {e : ConfigElement} {defs : List PropertyDefinition}
  {result : List (String × List (Value ConfigElement))}
  (passes : ElementPasses floats transform repos e defs result)
include passes

/-- The same element is read when all values of all properties are kept. -/
theorem ElementPasses.same_iff
    (tokens : ∀ token, token ∈ e.mProps.map Prod.fst ↔ token ∈ defs.map (·.mToken)) :
    Same e ⟨e.mName, e.mDefinition, result⟩ ↔
      ∀ d ∈ defs, ∀ vs, e.mProps.lookup d.mToken = some vs → KeptAll floats repos d vs := by
  rw [VRJuggler.ConfigIo.same_iff]
  constructor
  · rintro ⟨-, -, values⟩ d member vs here
    obtain ⟨vs', nodes, ws, here', there, property⟩ := passes.found d member
    obtain rfl := Option.some.inj (here.symm.trans here')
    have related := values d.mToken
    rw [here, there] at related
    cases related with
    | some related => exact property.same.mp related
  · intro kept
    refine ⟨rfl, rfl, fun token => ?_⟩
    by_cases known : token ∈ defs.map (·.mToken)
    · obtain ⟨d, member, rfl⟩ := List.mem_map.mp known
      obtain ⟨vs, nodes, ws, here, there, property⟩ := passes.found d member
      rw [here, there]
      exact .some (property.same.mpr (kept d member vs here))
    · have none : e.mProps.lookup token = none := by
        rw [← Option.not_isSome_iff_eq_none, isSome_lookup_iff, tokens]
        exact known
      rw [none, passes.absent token known]
      exact .none

/-- What is read for kept values has targets and definitions of the repository. -/
theorem ElementPasses.settled (newest : repos.get e.mDefinition.mToken = some e.mDefinition)
    (kept : ∀ d ∈ defs, ∀ vs, e.mProps.lookup d.mToken = some vs → KeptAll floats repos d vs) :
    Settled repos ⟨e.mName, e.mDefinition, result⟩ := by
  have distinct : (result.map Prod.fst).Nodup := by
    rw [List.Nodup, List.pairwise_map]
    exact passes.sorted.imp fun less => ne_of_lt less
  have origin (p : String × List (Value ConfigElement)) (member : p ∈ result) :
      ∃ d vs nodes, PropertyPasses floats transform repos d vs nodes p.2 ∧
        KeptAll floats repos d vs := by
    have here := lookup_eq_some_of_mem distinct member
    by_cases known : p.1 ∈ defs.map (·.mToken)
    · obtain ⟨d, isDef, token⟩ := List.mem_map.mp known
      obtain ⟨vs, nodes, ws, old, new, property⟩ := passes.found d isDef
      rw [token, here] at new
      obtain rfl := Option.some.inj new
      exact ⟨d, vs, nodes, property, kept d isDef vs old⟩
    · rw [passes.absent p.1 known] at here
      cases here
  refine .mk newest distinct (fun p member v inside => ?_) fun p member c inside => ?_
  · obtain ⟨d, vs, nodes, property, keeps⟩ := origin p member
    exact property.targets keeps v inside
  · obtain ⟨d, vs, nodes, property, keeps⟩ := origin p member
    exact property.settled keeps c inside

end Results

/-- An element that fits its definition is written and read. -/
theorem Fits.passes {e : ConfigElement} (fits : Fits repos e) (once : WrittenOnce repos e) :
    Passes floats transform repos e := by
  induction fits with
  | @mk e defs newest version returns enums distinct tokens typed embedded ih =>
    cases once with
    | mk returns' once below =>
      obtain rfl := returns.unique returns'
      have each (d : PropertyDefinition) (member : d ∈ defs) :
          ∃ p : List Element × List (Value ConfigElement), ∃ vs,
            e.mProps.lookup d.mToken = some vs ∧
            PropertyPasses floats transform repos d vs p.1 p.2 := by
        have known := (tokens d.mToken).mpr (List.mem_map_of_mem member)
        obtain ⟨vs, found⟩ := Option.isSome_iff_exists.mp (isSome_lookup_iff.mpr known)
        have there := mem_of_lookup found
        obtain ⟨nodes, ws, passes⟩ := property_passes (enums d member) (typed d member vs found)
          fun c inside => ih _ there c inside (below _ there c inside)
        exact ⟨(nodes, ws), vs, found, passes⟩
      obtain ⟨pairs, related⟩ := exists_forall₂ each
      have written : Ends (fun depth => defs.mapM fun prop_def => do
          let values ← orThrow (.illegalArgument ("Invalid property: " ++ prop_def.mToken))
            (e.mProps.lookup prop_def.mToken)
          values.mapM (addValue floats (addElement floats repos depth) prop_def))
          (.ok (pairs.map (·.1))) := by
        apply Ends.mapM
        rw [List.forall₂_map_right_iff]
        refine related.imp ?_
        rintro d p ⟨vs, found, property⟩
        simp only [found, orThrow_some, pure_bind]
        exact property.written
      have nodes := @filter_flatten (fun d nodes => ∃ vs ws,
          e.mProps.lookup d.mToken = some vs ∧
            PropertyPasses floats transform repos d vs nodes ws) defs (pairs.map (·.1)) (by
        rw [List.forall₂_map_right_iff]
        refine related.imp ?_
        rintro d p ⟨vs, found, property⟩
        exact ⟨property.named, vs, p.2, found, property⟩) once
      obtain ⟨result, ends, found, absent, sorted⟩ :
          ∃ result, Ends (fun depth => parseProperties floats (parse floats transform repos depth)
              defs (pairs.map (·.1)).flatten []) (.ok result) ∧
            (∀ d ∈ defs, ∃ ws, result.lookup d.mToken = some ws ∧ ∃ vs nodes,
              e.mProps.lookup d.mToken = some vs ∧
              PropertyPasses floats transform repos d vs nodes ws) ∧
            (∀ token, token ∉ defs.map (·.mToken) → result.lookup token = [].lookup token) ∧
            result.Pairwise fun p q => p.1 < q.1 := by
        refine parseProperties_ends once .nil fun d member others same => ?_
        obtain ⟨vs, ws, found, property⟩ := nodes d member
        obtain ⟨left, read, rest⟩ := property.read others same
        exact ⟨ws, left, ⟨vs, _, found, property⟩, read, rest⟩
      have passes : ElementPasses floats transform repos e defs result := by
        refine ⟨fun d member => ?_, absent, sorted⟩
        obtain ⟨ws, there, vs, nodes, here, property⟩ := found d member
        exact ⟨vs, nodes, ws, here, there, property⟩
      have storable : Storable floats repos e ↔ _ := storable_iff returns distinct tokens
      refine ⟨_, ⟨e.mName, e.mDefinition, result⟩, Returns.congr (fun depth => rfl)
        ((Ends.lift returns).ok_bind (written.map _)),
        parse_newest newest version rfl rfl returns ends, ?_, ?_⟩
      · rw [passes.same_iff tokens, storable]
      · intro kept
        exact passes.settled newest (storable.mp kept)

end Passing

end VRJuggler.ConfigIo
