import VRJuggler.ConfigIo.SavedConfigurations

/-!
# Elements that are parsed

An element that the parser accepts should have the values that its definition asks for: the
stored ones in order, and for the missing ones the defaults of their places. The parser takes the
default of the first missing place for all of them, whether there is one or not, and where a
token is listed twice its last definition decides.
-/
namespace VRJuggler.ConfigIo

open Config Throwing

/-! ## What an element should be -/

def classOf : SimpleValue → ValueType
  | .boolean _ => .boolean
  | .integer _ => .integer
  | .float _ => .float
  | .string _ => .string
  | .pointer _ => .configElementPointer

/-- A value of the type that is not `null`. -/
def IsOf (type : ValueType) : Value ConfigElement → Prop
  | .null => False
  | .object v => classOf v.value = type
  | .element _ => type = .configElement

/-- Without transforms only documents are accepted in which nothing is upgraded. -/
def noTransform : Nat → Element → Option (Element × List Element) := fun _ _ => none

section Expected

variable (floats : FloatText)

/-- The value is stored in the node. Which embedded element it is does not matter here. -/
def Means (d : PropertyDefinition) (node : Element) (value : Value ConfigElement) : Prop :=
  match d.mEnums.find (trim node.text) with
  | some (some labelled) => value = .object labelled
  | some none => value = .null
  | none =>
    if d.mType = .configElement then ∃ e, value = .element e
    else ∃ v, convert floats (trim node.text) d.mType = some v ∧ value = .object ⟨0, v⟩

/-- The values of a property whose stored values are in the nodes. -/
structure HoldsValues (p : PropertyDefinition) (nodes : List Element)
    (values : List (Value ConfigElement)) : Prop where
  typed : ∀ value ∈ values, IsOf p.mType value
  count : p.mVariable = false → values.length = p.mPropValueDefs.length
  stored : p.mVariable = false → ∀ i node value, i < p.mPropValueDefs.length →
    nodes[i]? = some node → values[i]? = some value → Means floats p node value
  filled : p.mVariable = false → ∀ i, nodes.length ≤ i → i < p.mPropValueDefs.length →
    values[i]? = some (defaultAt p i)

variable (repos : ConfigDefinitionRepository)

/-- Up to this depth of embedded elements the element has the values that it should have. -/
def ConformsTo : Nat → Element → ConfigElement → Prop
  | 0, _, _ => True
  | depth + 1, root, elt =>
    root.getAttributeValue "name" = some elt.mName ∧ repos.get root.name = some elt.mDefinition ∧
      ∃ defs, Returns (getPropertyDefinitions repos · elt.mDefinition) defs ∧
        ∀ p ∈ defs, ∃ values, elt.mProps.lookup p.mToken = some values ∧
          HoldsValues floats p (root.getChildren p.mToken cfgNs) values ∧
          ∀ (i : Nat) (e : ConfigElement), values[i]? = some (.element e) → ∃ node child : Element,
            (root.getChildren p.mToken cfgNs)[i]? = some node ∧
            node.children.head? = some child ∧ ConformsTo depth child e

/-- The element and all elements in it conform to their definitions. -/
def Conforms (root : Element) (elt : ConfigElement) : Prop :=
  ∀ depth, ConformsTo floats repos depth root elt

end Expected

/-! ## When an element is so -/

/-- How many of the stored values a definition of the property leaves. -/
def keep (p : PropertyDefinition) (stored : Nat) : Nat :=
  if p.mVariable then stored else min stored p.mPropValueDefs.length

/-- How many of them all definitions of one token leave. -/
def keepAll (same : List PropertyDefinition) (stored : Nat) : Nat :=
  same.foldl (fun kept p => keep p kept) stored

/-- The definitions of the token. -/
def ofToken (defs : List PropertyDefinition) (token : String) : List PropertyDefinition :=
  defs.filter (·.mToken = token)

/-- How many values there are. -/
def valueCount (q : PropertyDefinition) (kept : Nat) : Nat :=
  if q.mVariable then kept else q.mPropValueDefs.length

/-- The child in which an embedded element is stored. -/
def Embeds (d : PropertyDefinition) (node child : Element) : Prop :=
  d.mEnums.find (trim node.text) = none ∧ d.mType = .configElement ∧
    node.children.head? = some child

section Condition

variable (floats : FloatText)

/-- The values for `q`, of which the first are `kept` stored ones, are right for `p` too. -/
structure Serves (q p : PropertyDefinition) (nodes : List Element) (kept : Nat) : Prop where
  count : p.mVariable = false → valueCount q kept = p.mPropValueDefs.length
  stored : ∀ node ∈ nodes.take kept, ∀ value, Means floats q node value →
    IsOf p.mType value ∧ (p.mVariable = false → Means floats p node value)
  filled : ∀ i, kept ≤ i → i < valueCount q kept →
    IsOf p.mType (defaultAt q kept) ∧
      (p.mVariable = false → defaultAt q kept = defaultAt p i)

variable (repos : ConfigDefinitionRepository)

/-- For each property, the values for the last definition of its token are right; and so on in
the embedded elements up to this depth. -/
def FillsTo : Nat → Element → Prop
  | 0, _ => True
  | depth + 1, root =>
    ∃ d defs, repos.get root.name = some d ∧ Returns (getPropertyDefinitions repos · d) defs ∧
      ∀ p ∈ defs, ∃ q, (ofToken defs p.mToken).getLast? = some q ∧
        let nodes := root.getChildren p.mToken cfgNs
        let kept := keepAll (ofToken defs p.mToken) nodes.length
        Serves floats q p nodes kept ∧
          ∀ node ∈ nodes.take kept, ∀ child, Embeds q node child → FillsTo depth child

def Fills (root : Element) : Prop := ∀ depth, FillsTo floats repos depth root

end Condition

/-! ## One value -/

variable {floats : FloatText}

theorem classOf_convert {text : String} {type : ValueType} {v : SimpleValue}
    (converted : convert floats text type = some v) : classOf v = type := by
  cases type with
  | boolean =>
    cases converted
    rfl
  | integer =>
    obtain ⟨n, -, rfl⟩ := Option.map_eq_some_iff.mp converted
    rfl
  | float =>
    obtain ⟨bits, -, rfl⟩ := Option.map_eq_some_iff.mp converted
    rfl
  | string =>
    cases converted
    rfl
  | configElement => cases converted
  | configElementPointer =>
    cases converted
    rfl

/-- Two values that are stored in one node differ at most as embedded elements. -/
theorem Means.agree {q : PropertyDefinition} {node : Element} {v w : Value ConfigElement}
    (left : Means floats q node v) (right : Means floats q node w) :
    v = w ∨ ∃ e c, v = .element e ∧ w = .element c := by
  unfold Means at left right
  cases label : q.mEnums.find (trim node.text) with
  | some labelled =>
    cases labelled with
    | some labelled =>
      simp only [label] at left right
      exact .inl (left.trans right.symm)
    | none =>
      simp only [label] at left right
      exact .inl (left.trans right.symm)
  | none =>
    simp only [label] at left right
    by_cases embedded : q.mType = .configElement
    · rw [if_pos embedded] at left right
      obtain ⟨e, rfl⟩ := left
      obtain ⟨c, rfl⟩ := right
      exact .inr ⟨e, c, rfl, rfl⟩
    · rw [if_neg embedded] at left right
      obtain ⟨x, converted, rfl⟩ := left
      obtain ⟨y, converted', rfl⟩ := right
      rw [converted] at converted'
      cases converted'
      exact .inl rfl

theorem means_element {p : PropertyDefinition} {node : Element} {e c : ConfigElement} :
    Means floats p node (.element e) → Means floats p node (.element c) := by
  unfold Means
  split
  · simp
  · simp
  · split
    · simp
    · simp

/-- What holds of one value that is stored in the node holds of each. -/
theorem Means.serves {q p : PropertyDefinition} {node : Element} {v w : Value ConfigElement}
    (left : Means floats q node v) (right : Means floats q node w)
    (typed : IsOf p.mType v) (means : p.mVariable = false → Means floats p node v) :
    IsOf p.mType w ∧ (p.mVariable = false → Means floats p node w) := by
  rcases left.agree right with rfl | ⟨e, c, rfl, rfl⟩
  · exact ⟨typed, means⟩
  · exact ⟨typed, fun fixed => means_element (means fixed)⟩

section Parsing

variable {parse : Element → Throwing Thrown (ConfigElement × List Element)}

theorem means_of_parse {d : PropertyDefinition} {node : Element} {value : Value ConfigElement}
    (parsed : parsePropertyValue floats parse d node = some (.ok value)) :
    Means floats d node value ∧ (∀ e, value = .element e → ∃ child created,
      Embeds d node child ∧ parse child = some (.ok (e, created))) ∧
      ∀ child, Embeds d node child → ∃ e, value = .element e := by
  simp only [parsePropertyValue] at parsed
  cases label : d.mEnums.find (trim node.text) with
  | some labelled =>
    cases labelled with
    | some v =>
      simp only [label] at parsed
      cases Option.some.inj parsed
      simp [Means, Embeds, label]
    | none =>
      simp only [label] at parsed
      cases Option.some.inj parsed
      simp [Means, Embeds, label]
  | none =>
    simp only [label, rethrow_eq_ok] at parsed
    by_cases embedded : d.mType = .configElement
    · rw [if_neg (not_not.mpr embedded)] at parsed
      obtain ⟨child, first, parsed⟩ := bind_eq_ok.mp parsed
      obtain ⟨⟨e, created⟩, below, parsed⟩ := bind_eq_ok.mp parsed
      cases Option.some.inj parsed
      have first := orThrow_eq_ok.mp first
      refine ⟨by simp [Means, label, embedded], fun c same => ?_, fun _ _ => ⟨e, rfl⟩⟩
      cases same
      exact ⟨child, created, ⟨label, embedded, first⟩, below⟩
    · rw [if_pos embedded] at parsed
      obtain ⟨v, converted, parsed⟩ := bind_eq_ok.mp parsed
      cases Option.some.inj parsed
      have converted := orThrow_eq_ok.mp converted
      simp [Means, Embeds, label, embedded, converted]

end Parsing

/-! ## The values of a property -/

theorem keep_le (p : PropertyDefinition) (stored : Nat) : keep p stored ≤ stored := by
  unfold keep
  split
  · exact Nat.le_refl _
  · exact Nat.min_le_left ..

theorem keepAll_le (same : List PropertyDefinition) (stored : Nat) :
    keepAll same stored ≤ stored := by
  induction same generalizing stored with
  | nil => exact Nat.le_refl _
  | cons p rest ih => exact Nat.le_trans (ih (keep p stored)) (keep_le p stored)

/-- No definition that is not variable leaves more than it asks for. -/
theorem keepAll_le_of_mem {same : List PropertyDefinition} {p : PropertyDefinition}
    (member : p ∈ same) (fixed : p.mVariable = false) (stored : Nat) :
    keepAll same stored ≤ p.mPropValueDefs.length := by
  induction same generalizing stored with
  | nil => cases member
  | cons r rest ih =>
    rcases List.mem_cons.mp member with rfl | later
    · apply Nat.le_trans (keepAll_le rest (keep p stored))
      simp [keep, fixed]
    · exact ih later (keep r stored)

/-- Either all stored values are left, or as many as one of the definitions asks for. -/
theorem keepAll_cases (same : List PropertyDefinition) (stored : Nat) :
    keepAll same stored = stored ∨ ∃ r ∈ same, r.mVariable = false ∧
      keepAll same stored = r.mPropValueDefs.length := by
  induction same generalizing stored with
  | nil => exact .inl rfl
  | cons p rest ih =>
    have step : keepAll (p :: rest) stored = keepAll rest (keep p stored) := rfl
    rw [step]
    rcases ih (keep p stored) with all | ⟨r, member, fixed, here⟩
    · rw [all]
      unfold keep
      split
      · exact .inl rfl
      · next fixed =>
        rcases min_choice stored p.mPropValueDefs.length with same | same
        · exact .inl same
        · exact .inr ⟨p, List.mem_cons_self .., by simpa using fixed, same⟩
    · exact .inr ⟨r, List.mem_cons_of_mem p member, fixed, here⟩

variable (floats) in
/-- What the parser takes for the values of a property: `q` is its last definition, and `kept`
of the stored values are left. -/
def Took (parse : Element → Throwing Thrown (ConfigElement × List Element))
    (q : PropertyDefinition) (nodes : List Element) (kept : Nat)
    (values : List (Value ConfigElement)) : Prop :=
  ∃ read, List.Forall₂ (fun node value => parsePropertyValue floats parse q node =
      some (.ok value)) (nodes.take kept) read ∧
    values = read ++ List.replicate (valueCount q kept - kept) (defaultAt q kept)

section Values

variable {parse : Element → Throwing Thrown (ConfigElement × List Element)}

theorem disjoint_isNamed {token other : String} (different : other ≠ token) (e : Element)
    (named : e.isNamed cfgNs other = true) : e.isNamed cfgNs token = false := by
  simp only [Element.isNamed, Bool.and_eq_true, Bool.and_eq_false_iff, decide_eq_true_eq,
    decide_eq_false_iff_not] at named ⊢
  exact .inr fun same => different (named.2.symm.trans same)

/-- The values of the property and the children that are left, of this token and of others. -/
theorem parsePropertyValues_ok {p : PropertyDefinition} {children children' : List Element}
    {values : List (Value ConfigElement)}
    (parsed : parsePropertyValues floats parse p children = some (.ok (values, children'))) :
    let nodes := children.filter (Element.isNamed cfgNs p.mToken)
    Took floats parse p nodes (keep p nodes.length) values ∧
      children'.filter (Element.isNamed cfgNs p.mToken) = nodes.take (keep p nodes.length) ∧
      ∀ other, other ≠ p.mToken → children'.filter (Element.isNamed cfgNs other) =
        children.filter (Element.isNamed cfgNs other) := by
  intro nodes
  simp only [parsePropertyValues] at parsed
  obtain ⟨read, each, parsed⟩ := bind_eq_ok.mp parsed
  cases Option.some.inj parsed
  have each := mapM_eq_ok.mp each
  have fewer : (if (!p.mVariable && decide (p.mPropValueDefs.length < nodes.length)) = true then
      removeExcess (Element.isNamed cfgNs p.mToken) p.mPropValueDefs.length children
      else children).filter (Element.isNamed cfgNs p.mToken) =
      nodes.take (keep p nodes.length) := by
    cases fixed : p.mVariable with
    | true => simp [keep, fixed, nodes]
    | false =>
      by_cases excess : p.mPropValueDefs.length < nodes.length
      · have least : min nodes.length p.mPropValueDefs.length = p.mPropValueDefs.length :=
          Nat.min_eq_right (Nat.le_of_lt excess)
        simp [keep, fixed, excess, filter_removeExcess, least, nodes]
      · have least : min nodes.length p.mPropValueDefs.length = nodes.length :=
          Nat.min_eq_left (Nat.le_of_not_lt excess)
        simp [keep, fixed, excess, least, nodes]
  rw [fewer] at each
  refine ⟨⟨read, each, ?_⟩, fewer, fun other different => ?_⟩
  · congr 1
    cases fixed : p.mVariable with
    | true => simp [valueCount, keep, fixed]
    | false =>
      by_cases missing : nodes.length < p.mPropValueDefs.length
      · have least : min nodes.length p.mPropValueDefs.length = nodes.length :=
          Nat.min_eq_left (Nat.le_of_lt missing)
        simp [valueCount, keep, fixed, missing, least, nodes] at missing ⊢
      · have least : min nodes.length p.mPropValueDefs.length = p.mPropValueDefs.length :=
          Nat.min_eq_right (Nat.le_of_not_lt missing)
        simp [valueCount, keep, fixed, least, nodes] at missing ⊢
        simp [missing]
  · split
    · exact filter_removeExcess_of_ne (disjoint_isNamed different) _ _
    · rfl

theorem ofToken_cons_self {p : PropertyDefinition} {rest : List PropertyDefinition} :
    ofToken (p :: rest) p.mToken = p :: ofToken rest p.mToken := by
  simp [ofToken]

theorem ofToken_cons_of_ne {p : PropertyDefinition} {rest : List PropertyDefinition}
    {token : String} (different : p.mToken ≠ token) :
    ofToken (p :: rest) token = ofToken rest token := by
  simp [ofToken, different]

/-- The last definition of a token decides its values, after each one has removed the excess. -/
theorem parseProperties_ok {defs : List PropertyDefinition} {children : List Element}
    {props mProps : List (String × List (Value ConfigElement))}
    (parsed : parseProperties floats parse defs children props = some (.ok mProps))
    (token : String) :
    let nodes := children.filter (Element.isNamed cfgNs token)
    (ofToken defs token = [] → mProps.lookup token = props.lookup token) ∧
      ∀ q, (ofToken defs token).getLast? = some q → ∃ values,
        mProps.lookup token = some values ∧
        Took floats parse q nodes (keepAll (ofToken defs token) nodes.length) values := by
  induction defs generalizing children props with
  | nil =>
    cases Option.some.inj parsed
    simp [ofToken]
  | cons p rest ih =>
    intro nodes
    rw [parseProperties] at parsed
    obtain ⟨⟨values, children'⟩, first, parsed⟩ := bind_eq_ok.mp parsed
    obtain ⟨took, left, others⟩ := parsePropertyValues_ok first
    obtain ⟨unlisted, listed⟩ := ih parsed
    by_cases here : p.mToken = token
    · subst here
      rw [left] at listed
      refine ⟨fun none' => by simp [ofToken] at none', fun q last => ?_⟩
      rw [ofToken_cons_self] at last ⊢
      have size : (nodes.take (keep p nodes.length)).length = keep p nodes.length :=
        List.length_take_of_le (keep_le p nodes.length)
      cases same : ofToken rest p.mToken with
      | nil =>
        -- this is the last one
        rw [same] at last
        obtain rfl : p = q := by simpa using last
        refine ⟨values, ?_, took⟩
        rw [unlisted same, SortedMap.lookup_insertEntry_self]
      | cons r more =>
        rw [same] at last listed
        obtain ⟨values', found, took'⟩ := listed q (by simpa using last)
        refine ⟨values', found, ?_⟩
        have fewer := keepAll_le (r :: more) (keep p nodes.length)
        rw [size] at took'
        unfold Took at took' ⊢
        rwa [List.take_take, Nat.min_eq_left fewer] at took'
    · rw [ofToken_cons_of_ne here]
      rw [others token (Ne.symm here)] at listed
      refine ⟨fun none' => ?_, listed⟩
      rw [unlisted none', SortedMap.lookup_insertEntry_of_ne _ _ (Ne.symm here)]

end Values

/-! ## The values are right -/

section Right

variable {parse : Element → Throwing Thrown (ConfigElement × List Element)}
  {q p : PropertyDefinition} {nodes : List Element} {kept : Nat}
  {values : List (Value ConfigElement)}

theorem defaultAt_ne_element (d : PropertyDefinition) (index : Nat) (e : ConfigElement) :
    defaultAt d index ≠ .element e := by
  unfold defaultAt
  split
  · simp
  · simp

theorem le_valueCount {same : List PropertyDefinition} (member : q ∈ same) (stored : Nat) :
    keepAll same stored ≤ valueCount q (keepAll same stored) := by
  unfold valueCount
  split
  · exact Nat.le_refl _
  · next fixed => exact keepAll_le_of_mem member (by simpa using fixed) stored

theorem Took.length (took : Took floats parse q nodes kept values)
    (stored : kept ≤ nodes.length) (enough : kept ≤ valueCount q kept) :
    values.length = valueCount q kept := by
  obtain ⟨read, each, rfl⟩ := took
  have size := each.length_eq
  rw [List.length_take_of_le stored] at size
  rw [List.length_append, List.length_replicate, ← size]
  omega

/-- The first values are read from the nodes. -/
theorem Took.read (took : Took floats parse q nodes kept values)
    (stored : kept ≤ nodes.length) {i : Nat} (below : i < kept) :
    ∃ node value, nodes[i]? = some node ∧ node ∈ nodes.take kept ∧ values[i]? = some value ∧
      parsePropertyValue floats parse q node = some (.ok value) := by
  obtain ⟨read, each, rfl⟩ := took
  have size := each.length_eq
  have inside : i < (nodes.take kept).length := by rwa [List.length_take_of_le stored]
  refine ⟨(nodes.take kept).get ⟨i, inside⟩, read.get ⟨i, size ▸ inside⟩, ?_,
    List.get_mem .., ?_, ?_⟩
  · rw [List.get_eq_getElem, List.getElem_take]
    exact List.getElem?_eq_getElem ..
  · rw [List.getElem?_append_left (size ▸ inside), List.get_eq_getElem]
    exact List.getElem?_eq_getElem ..
  · exact each.get inside (size ▸ inside)

/-- The others are the default of the first place that is not stored. -/
theorem Took.filled (took : Took floats parse q nodes kept values)
    (stored : kept ≤ nodes.length) {i : Nat} (behind : kept ≤ i) (below : i < valueCount q kept) :
    values[i]? = some (defaultAt q kept) := by
  obtain ⟨read, each, rfl⟩ := took
  have size := each.length_eq
  rw [List.length_take_of_le stored] at size
  rw [List.getElem?_append_right (by omega), List.getElem?_replicate, if_pos (by omega)]

/-- The values are right for all definitions of the token just when those for the last one
serve each of them. -/
theorem holds_iff_serves {same : List PropertyDefinition} (last : same.getLast? = some q)
    (took : Took floats parse q nodes (keepAll same nodes.length) values) :
    (∀ p ∈ same, HoldsValues floats p nodes values) ↔
      ∀ p ∈ same, Serves floats q p nodes (keepAll same nodes.length) := by
  -- the values up to there are read from nodes, those behind are defaults
  have stored := keepAll_le same nodes.length
  have enough := le_valueCount (List.mem_of_getLast? last) nodes.length
  have length := took.length stored enough
  -- where no definition asks for less, all nodes are left before the first default
  have reaches (fixed : ∀ r ∈ same, r.mVariable = false →
      valueCount q (keepAll same nodes.length) = r.mPropValueDefs.length) {i : Nat}
      (behind : keepAll same nodes.length ≤ i)
      (below : i < valueCount q (keepAll same nodes.length)) :
      keepAll same nodes.length = nodes.length := by
    rcases keepAll_cases same nodes.length with all | ⟨r, member, notVariable, here⟩
    · exact all
    · have := fixed r member notVariable
      omega
  constructor
  · intro holds p member
    have counts (r : PropertyDefinition) (here : r ∈ same) (fixed : r.mVariable = false) :
        valueCount q (keepAll same nodes.length) = r.mPropValueDefs.length := by
      rw [← length]
      exact (holds r here).count fixed
    refine ⟨counts p member, fun node inside value means => ?_, fun i behind below => ?_⟩
    · obtain ⟨i, below, rfl⟩ := List.mem_take_iff_getElem.mp inside
      obtain ⟨node, value', here, -, there, parsed⟩ := took.read stored (i := i) (by omega)
      obtain rfl : nodes[i] = node := by
        rw [List.getElem?_eq_getElem (by omega)] at here
        exact Option.some.inj here
      refine (means_of_parse parsed).1.serves means
        ((holds p member).typed value' (List.mem_of_getElem? there)) fun fixed => ?_
      have most := keepAll_le_of_mem member fixed nodes.length
      exact (holds p member).stored fixed i _ _ (by omega) here there
    · have here := took.filled stored behind below
      refine ⟨(holds p member).typed _ (List.mem_of_getElem? here), fun fixed => ?_⟩
      have all := reaches counts behind below
      have most := counts p member fixed
      have there := (holds p member).filled fixed i (by omega) (by omega)
      rw [here] at there
      exact Option.some.inj there
  · intro serves p member
    have counts (r : PropertyDefinition) (here : r ∈ same) (fixed : r.mVariable = false) :
        valueCount q (keepAll same nodes.length) = r.mPropValueDefs.length :=
      (serves r here).count fixed
    refine ⟨fun value inside => ?_, fun fixed => ?_, fun fixed i node value below here there => ?_,
      fun fixed i behind below => ?_⟩
    · obtain ⟨i, here⟩ := List.mem_iff_getElem?.mp inside
      have below : i < values.length := (List.getElem?_eq_some_iff.mp here).1
      by_cases read : i < keepAll same nodes.length
      · obtain ⟨node, value', -, kept, there, parsed⟩ := took.read stored read
        obtain rfl : value = value' := Option.some.inj (here.symm.trans there)
        exact ((serves p member).stored node kept value (means_of_parse parsed).1).1
      · have there := took.filled stored (i := i) (by omega) (by omega)
        obtain rfl : value = defaultAt q _ := Option.some.inj (here.symm.trans there)
        exact ((serves p member).filled i (by omega) (by omega)).1
    · rw [length]
      exact counts p member fixed
    · have count := counts p member fixed
      have among : i < nodes.length := (List.getElem?_eq_some_iff.mp here).1
      have read : i < keepAll same nodes.length := by
        by_contra behind
        have := reaches counts (i := i) (by omega) (by omega)
        omega
      obtain ⟨node', value', here', kept, there', parsed⟩ := took.read stored read
      obtain rfl : node = node' := Option.some.inj (here.symm.trans here')
      obtain rfl : value = value' := Option.some.inj (there.symm.trans there')
      exact ((serves p member).stored node kept value (means_of_parse parsed).1).2 fixed
    · have count := counts p member fixed
      rw [took.filled stored (by omega) (by omega)]
      exact congrArg some (((serves p member).filled i (by omega) (by omega)).2 fixed)

end Right

/-! ## The whole element -/

variable {repos : ConfigDefinitionRepository}

theorem upgrade_noTransform {token : String} {count : Nat} {ver_num : Int} {root : Element}
    {r : Element × List Element}
    (upgraded : upgrade noTransform repos token count ver_num root = some (.ok r)) :
    count = 0 ∧ r = (root, []) := by
  cases count with
  | zero =>
    cases Option.some.inj upgraded
    simp
  | succ count =>
    rw [upgrade] at upgraded
    obtain ⟨next, -, upgraded⟩ := bind_eq_ok.mp upgraded
    obtain ⟨xslt_element, -, upgraded⟩ := bind_eq_ok.mp upgraded
    obtain ⟨transformed, here, -⟩ := bind_eq_ok.mp upgraded
    have here := orThrow_eq_ok.mp here
    simp [noTransform] at here

/-- The newest definition of the type gives the properties. -/
theorem parse_ok {depth : Nat} {root : Element} {elt : ConfigElement} {created : List Element}
    (accepted : parse floats noTransform repos depth root = some (.ok (elt, created))) :
    root.getAttributeValue "name" = some elt.mName ∧ repos.get root.name = some elt.mDefinition ∧
      ∃ deep defs, getPropertyDefinitions repos deep elt.mDefinition = some defs ∧
        parseProperties floats (parse floats noTransform repos deep) defs root.children [] =
          some (.ok elt.mProps) := by
  cases depth with
  | zero => cases accepted
  | succ depth =>
    simp only [parse] at accepted
    obtain ⟨version_str, -, accepted⟩ := bind_eq_ok.mp accepted
    obtain ⟨our_version, -, accepted⟩ := bind_eq_ok.mp accepted
    obtain ⟨name, named, accepted⟩ := bind_eq_ok.mp accepted
    obtain ⟨newest_version_number, newest, accepted⟩ := bind_eq_ok.mp accepted
    obtain ⟨upgraded, here, accepted⟩ := bind_eq_ok.mp accepted
    obtain ⟨-, rfl⟩ := upgrade_noTransform here
    obtain ⟨mDefinition, found, accepted⟩ := bind_eq_ok.mp accepted
    obtain ⟨defs, listed, accepted⟩ := bind_eq_ok.mp (rethrow_eq_ok.mp accepted)
    obtain ⟨mProps, parsed, accepted⟩ := bind_eq_ok.mp accepted
    cases Option.some.inj accepted
    have newest := orThrow_eq_ok.mp newest
    have found := orThrow_eq_ok.mp found
    refine ⟨orThrow_eq_ok.mp named, ?_, depth, defs, lift_eq_ok.mp listed, parsed⟩
    rw [ConfigDefinitionRepository.get, newest, Option.bind_some]
    exact found

/-- The elements that are read for a property are right when their documents are. -/
theorem embedded_iff {parse : Element → Throwing Thrown (ConfigElement × List Element)}
    {q : PropertyDefinition} {nodes : List Element} {kept : Nat}
    {values : List (Value ConfigElement)} (stored : kept ≤ nodes.length)
    (took : Took floats parse q nodes kept values)
    {R : Element → ConfigElement → Prop} {S : Element → Prop}
    (below : ∀ child e created, parse child = some (.ok (e, created)) → (R child e ↔ S child)) :
    (∀ (i : Nat) (e : ConfigElement), values[i]? = some (.element e) → ∃ node child : Element,
        nodes[i]? = some node ∧ node.children.head? = some child ∧ R child e) ↔
      ∀ node ∈ nodes.take kept, ∀ child, Embeds q node child → S child := by
  constructor
  · intro right node inside child embeds
    obtain ⟨i, low, rfl⟩ := List.mem_take_iff_getElem.mp inside
    obtain ⟨node, value, here, -, there, parsed⟩ := took.read stored (i := i) (by omega)
    obtain rfl : nodes[i] = node := by
      rw [List.getElem?_eq_getElem (by omega)] at here
      exact Option.some.inj here
    obtain ⟨-, element, any⟩ := means_of_parse parsed
    obtain ⟨e, rfl⟩ := any child embeds
    obtain ⟨child', created, embeds', read⟩ := element e rfl
    obtain rfl : child = child' := Option.some.inj (embeds.2.2.symm.trans embeds'.2.2)
    obtain ⟨node', child', here', first, holds⟩ := right i e there
    rw [here] at here'
    cases here'
    obtain rfl : child = child' := Option.some.inj (embeds.2.2.symm.trans first)
    exact (below child e created read).mp holds
  · intro right i e there
    have read : i < kept := by
      by_contra behind
      obtain ⟨read, each, rfl⟩ := took
      have size := each.length_eq
      rw [List.length_take_of_le stored] at size
      rw [List.getElem?_append_right (by omega)] at there
      have default' := (List.mem_replicate.mp (List.mem_of_getElem? there)).2
      exact defaultAt_ne_element _ _ _ default'.symm
    obtain ⟨node, value, here, inside, there', parsed⟩ := took.read stored read
    obtain rfl : Value.element e = value := Option.some.inj (there.symm.trans there')
    obtain ⟨child, created, embeds, read⟩ := (means_of_parse parsed).2.1 e rfl
    exact ⟨node, child, here, embeds.2.2,
      (below child e created read).mpr (right node inside child embeds)⟩

/-- Up to each depth of embedded elements. -/
theorem conformsTo_iff (k : Nat) {depth : Nat} {root : Element} {elt : ConfigElement}
    {created : List Element}
    (accepted : parse floats noTransform repos depth root = some (.ok (elt, created))) :
    ConformsTo floats repos k root elt ↔ FillsTo floats repos k root := by
  -- the induction is on the depth of the embedding
  induction k generalizing depth root elt created with
  | zero => simp [ConformsTo, FillsTo]
  | succ k ih =>
    obtain ⟨named, newest, deep, defs, listed, parsed⟩ := parse_ok accepted
    have returns : Returns (getPropertyDefinitions repos · elt.mDefinition) defs :=
      .of_mono (fun _ _ => getPropertyDefinitions_mono) deep listed
    -- the values of each property, and the definition that decides them
    have each (p : PropertyDefinition) (member : p ∈ defs) : ∃ q values,
        (ofToken defs p.mToken).getLast? = some q ∧ elt.mProps.lookup p.mToken = some values ∧
        Took floats (parse floats noTransform repos deep) q
          (root.getChildren p.mToken cfgNs)
          (keepAll (ofToken defs p.mToken) (root.getChildren p.mToken cfgNs).length) values := by
      have among : p ∈ ofToken defs p.mToken := by simpa [ofToken] using member
      obtain ⟨q, last⟩ : ∃ q, (ofToken defs p.mToken).getLast? = some q :=
        Option.isSome_iff_exists.mp (List.getLast?_isSome.mpr (List.ne_nil_of_mem among))
      obtain ⟨values, found, took⟩ := (parseProperties_ok parsed p.mToken).2 q last
      exact ⟨q, values, last, found, took⟩
    have others {p r : PropertyDefinition} (here : r ∈ ofToken defs p.mToken) :
        r ∈ defs ∧ r.mToken = p.mToken := by simpa [ofToken] using here
    constructor
    · rintro ⟨-, -, defs', returns', right⟩
      obtain rfl := returns.unique returns'
      refine ⟨elt.mDefinition, defs, newest, returns, fun p member => ?_⟩
      obtain ⟨q, values, last, found, took⟩ := each p member
      have holds : ∀ r ∈ ofToken defs p.mToken,
          HoldsValues floats r (root.getChildren p.mToken cfgNs) values := by
        intro r here
        obtain ⟨listed', same⟩ := others here
        obtain ⟨values', found', holds, -⟩ := right r listed'
        rw [same, found] at found'
        cases found'
        rwa [same] at holds
      obtain ⟨values', found', -, embedded⟩ := right p member
      rw [found] at found'
      cases found'
      refine ⟨q, last, (holds_iff_serves last took).mp holds p ?_, ?_⟩
      · simpa [ofToken] using member
      · exact (embedded_iff (keepAll_le ..) took fun _ _ _ => ih).mp embedded
    · rintro ⟨d, defs', newest', returns', right⟩
      rw [newest] at newest'
      cases newest'
      obtain rfl := returns.unique returns'
      refine ⟨named, newest, defs, returns, fun p member => ?_⟩
      obtain ⟨q, values, last, found, took⟩ := each p member
      have serves : ∀ r ∈ ofToken defs p.mToken,
          Serves floats q r (root.getChildren p.mToken cfgNs) (keepAll (ofToken defs p.mToken)
            (root.getChildren p.mToken cfgNs).length) := by
        intro r here
        obtain ⟨listed', same⟩ := others here
        obtain ⟨q', last', serves, -⟩ := right r listed'
        rw [same, last] at last'
        cases last'
        rwa [same] at serves
      obtain ⟨q', last', -, embedded⟩ := right p member
      rw [last] at last'
      cases last'
      refine ⟨values, found, (holds_iff_serves last took).mpr serves p ?_, ?_⟩
      · simpa [ofToken] using member
      · exact (embedded_iff (keepAll_le ..) took fun _ _ _ => ih).mpr embedded

/-- An element that is accepted without an upgrade conforms to its definition, at every depth,
just when the values of each property are right for it. -/
theorem conforms_iff {depth : Nat} {root : Element} {elt : ConfigElement}
    {created : List Element}
    (accepted : parse floats noTransform repos depth root = some (.ok (elt, created))) :
    Conforms floats repos root elt ↔ Fills floats repos root :=
  forall_congr' fun k => conformsTo_iff k accepted

/-! ## Properties that are listed once -/

/-- What a label or a default should be: the values of the stored labels have the type, and each
missing value has the default of the first missing one, which has the type too. -/
structure Sound (p : PropertyDefinition) (nodes : List Element) : Prop where
  labels : ∀ node ∈ nodes, ∀ value, p.mEnums.find (trim node.text) = some value →
    ∃ v : ValueObject, value = some v ∧ classOf v.value = p.mType
  defaults : p.mVariable = false → ∀ i, nodes.length ≤ i → i < p.mPropValueDefs.length →
    IsOf p.mType (defaultAt p nodes.length) ∧ defaultAt p nodes.length = defaultAt p i

/-- A value that is stored under no label has the type. -/
theorem isOf_of_means {p : PropertyDefinition} {node : Element} {value : Value ConfigElement}
    (none' : p.mEnums.find (trim node.text) = none) (means : Means floats p node value) :
    IsOf p.mType value := by
  simp only [Means, none'] at means
  by_cases embedded : p.mType = .configElement
  · rw [if_pos embedded] at means
    obtain ⟨e, rfl⟩ := means
    exact embedded
  · rw [if_neg embedded] at means
    obtain ⟨v, converted, rfl⟩ := means
    exact classOf_convert converted

/-- The condition for a property whose token is listed once. -/
theorem serves_self_iff {p : PropertyDefinition} {nodes : List Element} :
    Serves floats p p nodes (keep p nodes.length) ↔
      Sound p (nodes.take (keep p nodes.length)) := by
  have size : (nodes.take (keep p nodes.length)).length = keep p nodes.length :=
    List.length_take_of_le (keep_le p nodes.length)
  constructor
  · intro serves
    refine ⟨fun node inside value label => ?_, fun fixed i behind below => ?_⟩
    · cases value with
      | none =>
        have means : Means floats p node .null := by simp [Means, label]
        exact absurd (serves.stored node inside _ means).1 (by simp [IsOf])
      | some v =>
        have means : Means floats p node (.object v) := by simp [Means, label]
        exact ⟨v, rfl, (serves.stored node inside _ means).1⟩
    · rw [size] at behind ⊢
      obtain ⟨typed, same⟩ := serves.filled i behind (by simpa [valueCount, fixed] using below)
      exact ⟨typed, same fixed⟩
  · intro sound
    refine ⟨fun fixed => by simp [valueCount, fixed], fun node inside value means => ?_,
      fun i behind below => ?_⟩
    · refine ⟨?_, fun _ => means⟩
      cases label : p.mEnums.find (trim node.text) with
      | none => exact isOf_of_means label means
      | some labelled =>
        obtain ⟨v, rfl, typed⟩ := sound.labels node inside labelled label
        simp only [Means, label] at means
        rw [means]
        exact typed
    · cases fixed : p.mVariable with
      | true =>
        -- nothing is missing
        simp [valueCount, fixed] at below
        omega
      | false =>
        obtain ⟨typed, same⟩ := sound.defaults fixed i (by rwa [size])
          (by simpa [valueCount, fixed] using below)
        rw [size] at typed same
        exact ⟨typed, fun _ => same⟩

/-! ## Windows -/

/-- The sizes of a window have different defaults. -/
def windowSize (width height : Int) : PropertyDefinition :=
  { textProperty "size" "The size of the window." with
    mType := .integer
    mPropValueDefs := [{ mLabel := "Width", mDefaultValue := some (.integer width) },
      { mLabel := "Height", mDefaultValue := some (.integer height) }] }

def displayWindow (width height : Int) : ConfigDefinition :=
  deviceDefinition "display_window" [] [windowSize width height]

/-- A document without sizes. -/
def emptyWindow : Element where
  namespace_ := cfgNs
  name := "display_window"
  attributes := [("name", "simulator"), ("version", "1")]
  text := ""
  children := []

/-- Both sizes are the default of the width. -/
def filledWindow (width height : Int) : ConfigElement :=
  ⟨"simulator", displayWindow width height,
    [("size", [.object ⟨0, .integer width⟩, .object ⟨0, .integer width⟩])]⟩

theorem parse_emptyWindow (floats : FloatText) (width height : Int) :
    parse floats noTransform (.load [displayWindow width height]) 2 emptyWindow =
      some (.ok (filledWindow width height, [])) := by
  rfl

theorem returns_displayWindow (width height : Int) :
    Returns (getPropertyDefinitions (.load [displayWindow width height]) ·
      (displayWindow width height)) [windowSize width height] :=
  .of_mono (fun _ _ => getPropertyDefinitions_mono) 1 rfl

/-- The height is the default of the width. -/
theorem conforms_fails :
    ¬ ∀ (repos : ConfigDefinitionRepository) (depth : Nat) (root : Element) (elt : ConfigElement)
      (created : List Element),
      parse bitTexts noTransform repos depth root = some (.ok (elt, created)) →
        Conforms bitTexts repos root elt := by
  intro all
  have conforms := all _ 2 _ _ _ (parse_emptyWindow bitTexts 640 480) 1
  obtain ⟨-, -, defs, returns, right⟩ := conforms
  obtain rfl := (returns_displayWindow 640 480).unique returns
  obtain ⟨values, found, holds, -⟩ := right (windowSize 640 480) (List.mem_singleton.mpr rfl)
  obtain rfl := Option.some.inj found
  have height := holds.filled rfl 1 (Nat.zero_le 1) (Nat.lt_succ_self 1)
  simp [defaultAt, windowSize] at height

theorem get_displayWindow (width height : Int) :
    (ConfigDefinitionRepository.load [displayWindow width height]).get "display_window" =
      some (displayWindow width height) := by
  rfl

/-- Where width and height have the same default, the window is filled up as it should be. -/
theorem fills_emptyWindow (floats : FloatText) (size : Int) :
    Fills floats (.load [displayWindow size size]) emptyWindow := by
  intro depth
  cases depth with
  | zero => trivial
  | succ depth =>
    refine ⟨_, _, get_displayWindow size size, returns_displayWindow size size, fun p member => ?_⟩
    obtain rfl := List.mem_singleton.mp member
    refine ⟨windowSize size size, rfl, serves_self_iff.mpr ⟨?_, ?_⟩, ?_⟩
    · intro node inside
      cases inside
    · intro fixed i behind below
      refine ⟨rfl, ?_⟩
      have place : i = 0 ∨ i = 1 := by
        have : i < 2 := below
        omega
      rcases place with rfl | rfl
      · rfl
      · rfl
    · intro node inside
      cases inside

theorem conforms_emptyWindow :
    Conforms bitTexts (.load [displayWindow 512 512]) emptyWindow (filledWindow 512 512) :=
  (conforms_iff (parse_emptyWindow bitTexts 512 512)).mpr (fills_emptyWindow bitTexts 512)

end VRJuggler.ConfigIo
