import Mathlib.Algebra.Order.Monoid.Unbundled.Basic
import Mathlib.Data.List.Count
import VRJuggler.Base.Lists
import VRJuggler.Base.Sums
import VRJuggler.Jccl.Embedded

/-!
# Pointers as dependencies

`jccl::ConfigElement::getElementPtrDependencies` goes through all properties that the definition
and its parents list, and into the embedded elements. A property that is listed more than once,
as those of a definition with two ways up to it are, is gone through more than once.
-/
namespace VRJuggler.Jccl

/-! ## The code -/

/-- `boost::trim`, and `std::isspace` in the classic locale. -/
def isspace (c : Char) : Bool :=
  c = ' ' || c = '\t' || c = '\n' || c = '\x0b' || c = '\x0c' || c = '\r'

def trimmed (text : String) : String :=
  String.ofList ((text.toList.dropWhile isspace).reverse.dropWhile isspace).reverse

/-- The nodes of a property. -/
def Element.getChildren (e : Element) (token : String) : List (Content Element) :=
  (e.properties.filter fun p => p.1.text = token).map Prod.snd

/-- A text node is created where there is none. -/
def Content.getCdata : Content Element → String
  | .cdata text => text
  | _ => ""

section Dependencies

variable (repository : DefinitionRepository)
  (enumVals : Definition → String → List (String × String))

/-- The text of a value, which may be the label of another: `enumVals` has the labels and values
in the node of the property that a definition has for a token. -/
def propertyText (mDef : Definition) (prop : String) (content : Content Element) : String :=
  (enumVals mDef prop).foldl (fun prop_string_rep p => if prop_string_rep = p.1 then p.2
    else prop_string_rep) (trimmed content.getCdata)

/-- There is no text for a property that has no definition. -/
def getPropertyString (depth : Nat) (mDef : Definition) (prop : String)
    (content : Content Element) : Option String :=
  (getPropertyDefinition repository depth mDef prop).map fun prop_def =>
    if prop_def.isSome then propertyText enumVals mDef prop content else ""

/-- The embedded element, if there is a definition of its type. -/
def getProperty_ElementPtr : Content Element → Option (Definition × Element)
  | .element child => (repository.get child.type).map fun mDef => (mDef, child)
  | _ => none

/-- `depth` calls fit on the stack. The call fails for an embedded element that is null. -/
def getElementPtrDependencies : Nat → Definition → Element → Option (List String)
  | 0, _, _ => none
  | depth + 1, mDef, mNode =>
    (getAllPropertyDefinitions repository depth mDef).bind fun prop_defs =>
      (prop_defs.mapM fun prop_def : Child =>
        match prop_def.getVarType with
        | .T_ELEMENT_PTR =>
          ((mNode.getChildren prop_def.getToken).mapM fun content =>
            getPropertyString repository enumVals depth mDef prop_def.getToken content).map
              fun names : List String => names.filter (· ≠ "")
        | .T_CHILD_ELEMENT =>
          ((mNode.getChildren prop_def.getToken).mapM fun content =>
            (getProperty_ElementPtr repository content).bind fun child =>
              getElementPtrDependencies depth child.1 child.2).map List.flatten
        | _ => some []).map List.flatten

/-- The loop of `DepChecker::depSatisfied`. -/
def allActive (isElementInActiveList : String → Bool) (dependencies : List String) : Bool :=
  dependencies.foldl (fun pass name => if isElementInActiveList name then pass else false) true

def depSatisfied (isElementInActiveList : String → Bool) (depth : Nat) (mDef : Definition)
    (element : Element) : Option Bool :=
  (getElementPtrDependencies repository enumVals depth mDef element).map
    (allActive isElementInActiveList)

/-! ## What should be returned -/

open Classical in
/-- The properties that a definition and its parents list. -/
noncomputable def listing (d : Definition) : List Child :=
  if h : ∃ all, Returns (getAllPropertyDefinitions repository · d) all then h.choose else []

open Classical in
/-- The type of the property that is found for a token. -/
noncomputable def typeOf (d : Definition) (token : String) : VarType :=
  if h : ∃ prop_def, Returns (getPropertyDefinition repository · d token) (some prop_def) then
    h.choose.getVarType
  else .VJ_T_INVALID

theorem sizeOf_child {e child : Element} {p : XmlName × Content Element} {d : Definition}
    (member : p ∈ e.properties) (found : getProperty_ElementPtr repository p.2 = some (d, child)) :
    sizeOf child < sizeOf e := by
  obtain ⟨token, content⟩ := p
  cases content with
  | empty => cases found
  | cdata text => cases found
  | element c =>
    obtain ⟨_, -, same⟩ := Option.map_eq_some_iff.mp found
    cases same
    have inside := List.sizeOf_lt_of_mem member
    cases e with
    | mk type name properties =>
      simp only [Element.mk.sizeOf_spec, Prod.mk.sizeOf_spec, Content.element.sizeOf_spec] at *
      omega

/-- What is reported for a value of a property with this type; `call` is for embedded elements. -/
def reported (call : Definition → Element → List String) (type : VarType) (d : Definition)
    (p : XmlName × Content Element) : List String :=
  match type with
  | .T_ELEMENT_PTR => [propertyText enumVals d p.1.text p.2].filter (· ≠ "")
  | .T_CHILD_ELEMENT =>
    match getProperty_ElementPtr repository p.2 with
    | some child => call child.1 child.2
    | none => []
  | _ => []

/-- The pointers of an element and of all that is embedded in it. -/
noncomputable def pointerValues (d : Definition) (e : Element) : List String :=
  e.properties.attach.flatMap fun p =>
    match typeOf repository d p.1.1.text with
    | .T_ELEMENT_PTR => [propertyText enumVals d p.1.1.text p.1.2].filter (· ≠ "")
    | .T_CHILD_ELEMENT =>
      match found : getProperty_ElementPtr repository p.1.2 with
      | some (d', child) =>
        have := sizeOf_child repository p.2 found
        pointerValues d' child
      | none => []
    | _ => []
termination_by sizeOf e

/-- What the code goes through: each listed property, with all values of its token. -/
noncomputable def collected (d : Definition) (e : Element) : List String :=
  (listing repository d).flatMap fun q =>
    e.properties.attach.flatMap fun p =>
      if p.1.1.text = q.getToken then
        match q.getVarType with
        | .T_ELEMENT_PTR => [propertyText enumVals d p.1.1.text p.1.2].filter (· ≠ "")
        | .T_CHILD_ELEMENT =>
          match found : getProperty_ElementPtr repository p.1.2 with
          | some (d', child) =>
            have := sizeOf_child repository p.2 found
            collected d' child
          | none => []
        | _ => []
      else []
termination_by sizeOf e

theorem pointerValues_eq (d : Definition) (e : Element) :
    pointerValues repository enumVals d e = e.properties.flatMap fun p =>
      reported repository enumVals (pointerValues repository enumVals)
        (typeOf repository d p.1.text) d p := by
  rw [pointerValues]
  conv_rhs => rw [← List.attach_map_subtype_val e.properties, List.flatMap_map]
  apply List.flatMap_congr
  intro p _
  generalize typeOf repository d p.1.1.text = type
  cases type with
  | T_CHILD_ELEMENT =>
    simp only [reported]
    split <;> simp [*]
  | _ => rfl

theorem collected_eq (d : Definition) (e : Element) :
    collected repository enumVals d e = (listing repository d).flatMap fun q =>
      e.properties.flatMap fun p =>
        if p.1.text = q.getToken then
          reported repository enumVals (collected repository enumVals) q.getVarType d p
        else [] := by
  rw [collected]
  apply List.flatMap_congr
  intro q _
  conv_rhs => rw [← List.attach_map_subtype_val e.properties, List.flatMap_map]
  apply List.flatMap_congr
  intro p _
  dsimp only
  split
  · generalize q.getVarType = type
    cases type with
    | T_CHILD_ELEMENT =>
      simp only [reported]
      split <;> simp [*]
    | _ => rfl
  · rfl

/-! ## When it holds -/

/-- How often a definition and its parents list the token with the type. -/
noncomputable def listed (d : Definition) (token : String) (type : VarType) : Nat :=
  (listing repository d).countP fun q => q.getToken = token ∧ q.getVarType = type

/-- Neither the definitions nor the embedded elements stop the code: no definition is its own
ancestor, and where a property is listed as one of embedded elements, its values are that. -/
inductive Runs : Definition → Element → Prop where
  | mk {d : Definition} {e : Element} (ends : repository.hierarchy.NoLoop d)
    (known : ∀ q ∈ listing repository d, q.getVarType = .T_CHILD_ELEMENT →
      ∀ p ∈ e.properties, p.1.text = q.getToken →
        (getProperty_ElementPtr repository p.2).isSome)
    (deeper : ∀ q ∈ listing repository d, q.getVarType = .T_CHILD_ELEMENT →
      ∀ p ∈ e.properties, p.1.text = q.getToken →
        ∀ child, getProperty_ElementPtr repository p.2 = some child → Runs child.1 child.2) :
    Runs d e

/-- A listed property of the element, or of one that is embedded in it, has something to
report. -/
inductive Reports : Definition → Element → Prop where
  | pointer {d : Definition} {e : Element} {q : Child} {p : XmlName × Content Element}
    (listed : q ∈ listing repository d) (type : q.getVarType = .T_ELEMENT_PTR)
    (member : p ∈ e.properties) (same : p.1.text = q.getToken)
    (text : propertyText enumVals d p.1.text p.2 ≠ "") : Reports d e
  | embedded {d : Definition} {e : Element} {q : Child} {p : XmlName × Content Element}
    {child : Definition × Element}
    (listed : q ∈ listing repository d) (type : q.getVarType = .T_CHILD_ELEMENT)
    (member : p ∈ e.properties) (same : p.1.text = q.getToken)
    (found : getProperty_ElementPtr repository p.2 = some child)
    (reports : Reports child.1 child.2) : Reports d e

/-- Where there is something to report, the property is listed once, with the type by which it
is found. -/
inductive Once : Definition → Element → Prop where
  | mk {d : Definition} {e : Element}
    (pointers : ∀ p ∈ e.properties, propertyText enumVals d p.1.text p.2 ≠ "" →
      listed repository d p.1.text .T_ELEMENT_PTR =
        if typeOf repository d p.1.text = .T_ELEMENT_PTR then 1 else 0)
    (embedded : ∀ p ∈ e.properties, ∀ child,
      getProperty_ElementPtr repository p.2 = some child →
        Reports repository enumVals child.1 child.2 →
          listed repository d p.1.text .T_CHILD_ELEMENT =
            if typeOf repository d p.1.text = .T_CHILD_ELEMENT then 1 else 0)
    (deeper : ∀ p ∈ e.properties, typeOf repository d p.1.text = .T_CHILD_ELEMENT →
      ∀ child, getProperty_ElementPtr repository p.2 = some child → Once child.1 child.2) :
    Once d e

/-- The call returns the pointers of the element and of all that is embedded in it, each as
often as it is there, and nothing else. -/
def PointersComplete (d : Definition) (e : Element) : Prop :=
  ∃ dep_list, Returns (getElementPtrDependencies repository enumVals · d e) dep_list ∧
    dep_list.Perm (pointerValues repository enumVals d e)

end Dependencies

/-! ## What is listed and found -/

section Listing

variable {repository : DefinitionRepository} {d : Definition} {token : String}

theorem returns_listing (ends : repository.hierarchy.NoLoop d) :
    Returns (getAllPropertyDefinitions repository · d) (listing repository d) := by
  have all : ∃ all, Returns (getAllPropertyDefinitions repository · d) all :=
    getAllPropertyDefinitions_terminates_iff.mpr ends
  rw [listing, dif_pos all]
  exact all.choose_spec

theorem listing_eq (ends : repository.hierarchy.NoLoop d) : listing repository d =
    (repository.resolved d).flatMap (listing repository) ++ d.properties := by
  apply (returns_listing ends).unique
  apply returns_getAllPropertyDefinitions
  intro e member
  exact returns_listing (noLoop_iff_acc.mp ((noLoop_iff_acc.mpr ends).inv (mem_resolved.mp member)))

theorem finds_of_listed (ends : Acc repository.hierarchy.Parent d) {q : Child}
    (member : q ∈ listing repository d) : Finds repository q.getToken d := by
  induction ends with
  | intro d above ih =>
    rw [listing_eq (noLoop_iff_acc.mp (.intro d above)), List.mem_append, List.mem_flatMap]
      at member
    rcases member with ⟨e, up, there⟩ | own
    · obtain ⟨before, after, parts⟩ := List.append_of_mem up
      have passed : ∀ f ∈ before, repository.hierarchy.NoLoop f := by
        intro f here
        have parent : f ∈ repository.resolved d := by
          rw [parts]
          exact List.mem_append_left _ here
        exact noLoop_iff_acc.mp (above f (mem_resolved.mp parent))
      exact .parent parts passed (ih e (mem_resolved.mp up) there)
    · exact .own (isSome_own own rfl)

theorem mem_listing_of_found {depth : Nat} {q : Child} (ends : Acc repository.hierarchy.Parent d)
    (searched : getPropertyDefinition repository depth d token = some (some q)) :
    q ∈ listing repository d ∧ q.getToken = token := by
  induction depth generalizing d with
  | zero => cases searched
  | succ depth ih =>
    rw [getPropertyDefinition_succ] at searched
    rw [listing_eq (noLoop_iff_acc.mp ends), List.mem_append, List.mem_flatMap]
    cases own : d.own token with
    | some p =>
      rw [own, Option.elim_some] at searched
      cases searched
      obtain ⟨member, same⟩ := own_eq_some own
      exact ⟨.inr member, same⟩
    | none =>
      rw [own, Option.elim_none] at searched
      rcases firstFound_eq_some searched with
        ⟨none', -⟩ | ⟨before, e, after, p, parts, -, here, found⟩
      · cases none'
      · cases found
        have up : e ∈ repository.resolved d := by
          rw [parts]
          exact List.mem_append_right _ (List.mem_cons_self ..)
        obtain ⟨member, same⟩ := ih (ends.inv (mem_resolved.mp up)) here
        exact ⟨.inl ⟨e, up, member⟩, same⟩

theorem typeOf_eq {q : Child}
    (found : Returns (getPropertyDefinition repository · d token) (some q)) :
    typeOf repository d token = q.getVarType := by
  have some' : ∃ q, Returns (getPropertyDefinition repository · d token) (some q) := ⟨q, found⟩
  rw [typeOf, dif_pos some']
  exact congrArg Child.getVarType (Option.some.inj (some'.choose_spec.unique found))

/-- A token has a definition that is found if it has one that is listed. -/
theorem found_of_listed (ends : repository.hierarchy.NoLoop d) {q : Child}
    (member : q ∈ listing repository d) :
    ∃ p, Returns (getPropertyDefinition repository · d q.getToken) (some p) :=
  searched_of_finds (finds_of_listed (noLoop_iff_acc.mpr ends) member)

theorem listed_pos {type : VarType} : 0 < listed repository d token type ↔
    ∃ q ∈ listing repository d, q.getToken = token ∧ q.getVarType = type := by
  simp [listed, List.countP_pos_iff]

/-- The property that is found is listed with its type. -/
theorem found_le_listed (ends : repository.hierarchy.NoLoop d) {type : VarType}
    (valid : type ≠ .VJ_T_INVALID) :
    (if typeOf repository d token = type then 1 else 0) ≤ listed repository d token type := by
  split
  next same =>
    by_cases some' : ∃ q, Returns (getPropertyDefinition repository · d token) (some q)
    · obtain ⟨q, found⟩ := some'
      obtain ⟨depth, searched⟩ := found.exists_some
      obtain ⟨member, token'⟩ := mem_listing_of_found (noLoop_iff_acc.mpr ends) searched
      have type' : q.getVarType = type := (typeOf_eq found).symm.trans same
      exact listed_pos.mpr ⟨q, member, token', type'⟩
    · rw [typeOf, dif_neg some'] at same
      exact absurd same.symm valid
  next => exact Nat.zero_le _

end Listing

/-! ## What is returned -/

section Running

variable {repository : DefinitionRepository}
  {enumVals : Definition → String → List (String × String)} {d : Definition} {e : Element}

theorem mapM_mono {α β : Type} {f g : α → Option β} {xs : List α} {ys : List β}
    (more : ∀ x y, f x = some y → g x = some y) (mapped : xs.mapM f = some ys) :
    xs.mapM g = some ys := by
  induction xs generalizing ys with
  | nil => exact mapped
  | cons x rest ih =>
    simp only [List.mapM_cons, bind, pure, Option.bind_eq_some_iff] at mapped ⊢
    obtain ⟨first, here, others, later, same⟩ := mapped
    exact ⟨first, more x first here, others, ih later, same⟩

theorem getAllPropertyDefinitions_mono {depth : Nat} {all : List Child}
    (here : getAllPropertyDefinitions repository depth d = some all) :
    getAllPropertyDefinitions repository (depth + 1) d = some all := by
  induction depth generalizing d all with
  | zero => cases here
  | succ depth ih =>
    rw [getAllPropertyDefinitions_succ] at here ⊢
    obtain ⟨inherited, mapped, same⟩ := Option.map_eq_some_iff.mp here
    exact Option.map_eq_some_iff.mpr ⟨inherited, mapM_mono (fun _ _ => ih) mapped, same⟩

theorem eq_listing {depth : Nat} {all : List Child}
    (here : getAllPropertyDefinitions repository depth d = some all) :
    all = listing repository d := by
  have returns : Returns (getAllPropertyDefinitions repository · d) all :=
    .of_mono (fun _ _ => getAllPropertyDefinitions_mono) depth here
  exact returns.unique (returns_listing (noLoop_iff_acc.mp (acc_of_listed here)))

/-- A call that returns with some stack meets nothing that stops it. -/
theorem runs_of_returned {depth : Nat} {names : List String}
    (returned : getElementPtrDependencies repository enumVals depth d e = some names) :
    Runs repository d e := by
  induction depth generalizing d e names with
  | zero => cases returned
  | succ depth ih =>
    rw [getElementPtrDependencies] at returned
    obtain ⟨prop_defs, all, returned⟩ := Option.bind_eq_some_iff.mp returned
    obtain rfl := eq_listing all
    obtain ⟨parts, each, -⟩ := Option.map_eq_some_iff.mp returned
    have embedded : ∀ q ∈ listing repository d, q.getVarType = .T_CHILD_ELEMENT →
        ∀ p ∈ e.properties, p.1.text = q.getToken →
          ∃ child deps, getProperty_ElementPtr repository p.2 = some child ∧
            getElementPtrDependencies repository enumVals depth child.1 child.2 = some deps := by
      intro q member type p value same
      obtain ⟨part, here⟩ := Option.isSome_iff_exists.mp (mapM_isSome each member)
      simp only [type] at here
      obtain ⟨lists, mapped, -⟩ := Option.map_eq_some_iff.mp here
      have content : p.2 ∈ e.getChildren q.getToken :=
        List.mem_map_of_mem (List.mem_filter.mpr ⟨value, by simpa using same⟩)
      obtain ⟨deps, there⟩ := Option.isSome_iff_exists.mp (mapM_isSome mapped content)
      obtain ⟨child, found, call⟩ := Option.bind_eq_some_iff.mp there
      exact ⟨child, deps, found, call⟩
    refine .mk (noLoop_iff_acc.mp (acc_of_listed all)) ?_ ?_
    · intro q member type p value same
      obtain ⟨child, -, found, -⟩ := embedded q member type p value same
      exact Option.isSome_iff_exists.mpr ⟨child, found⟩
    · intro q member type p value same child found
      obtain ⟨child', deps, found', call⟩ := embedded q member type p value same
      cases found.symm.trans found'
      exact ih call

/-- What is reported for the values of one property. -/
theorem flatMap_reported (call : Definition → Element → List String) (token : String)
    (type : VarType) : (e.properties.flatMap fun p =>
      if p.1.text = token then reported repository enumVals call type d p else []) =
    match type with
    | .T_ELEMENT_PTR => ((e.getChildren token).map (propertyText enumVals d token)).filter (· ≠ "")
    | .T_CHILD_ELEMENT => ((e.getChildren token).map fun content =>
        match getProperty_ElementPtr repository content with
        | some child => call child.1 child.2
        | none => []).flatten
    | _ => [] := by
  rw [flatMap_ite, Element.getChildren]
  have tokens : ∀ p ∈ e.properties.filter (fun p => p.1.text = token), p.1.text = token :=
    fun p member => of_decide_eq_true (List.mem_filter.mp member).2
  cases type with
  | T_ELEMENT_PTR =>
    dsimp only
    rw [List.map_map, List.map_eq_flatMap, List.filter_flatMap]
    apply List.flatMap_congr
    intro p member
    rw [Function.comp_apply, reported, tokens p member]
  | T_CHILD_ELEMENT =>
    dsimp only
    rw [List.map_map, ← List.flatMap_def]
    rfl
  | _ => simp [reported]

theorem returns_getPropertyString (ends : repository.hierarchy.NoLoop d) {q : Child}
    (member : q ∈ listing repository d) (content : Content Element) :
    Returns (getPropertyString repository enumVals · d q.getToken content)
      (propertyText enumVals d q.getToken content) := by
  obtain ⟨prop_def, found⟩ := found_of_listed ends member
  exact found.map fun prop_def =>
    if prop_def.isSome then propertyText enumVals d q.getToken content else ""

/-- Where nothing stops the code, it returns what it collects. -/
theorem returns_collected (runs : Runs repository d e) :
    Returns (getElementPtrDependencies repository enumVals · d e)
      (collected repository enumVals d e) := by
  induction runs with
  | @mk d e ends known deeper ih =>
    rw [collected_eq, List.flatMap_def]
    refine Returns.congr (fun depth => rfl) ((returns_listing ends).bind ?_)
    apply (Returns.mapM ?_).map List.flatten
    intro q member
    rw [flatMap_reported]
    cases type : q.getVarType with
    | T_ELEMENT_PTR =>
      exact (Returns.mapM fun content _ => returns_getPropertyString ends member content).map
        fun names => names.filter (· ≠ "")
    | T_CHILD_ELEMENT =>
      apply (Returns.mapM ?_).map List.flatten
      intro content inside
      obtain ⟨p, value, rfl⟩ := List.mem_map.mp inside
      obtain ⟨value, same⟩ := List.mem_filter.mp value
      have token : p.1.text = q.getToken := of_decide_eq_true same
      obtain ⟨child, found⟩ :=
        Option.isSome_iff_exists.mp (known q member type p value token)
      simp only [found, Option.bind_some]
      exact ih q member type p value token child found
    | _ => exact Returns.of_some []

theorem pointersComplete_iff_perm : PointersComplete repository enumVals d e ↔
    Runs repository d e ∧
      (collected repository enumVals d e).Perm (pointerValues repository enumVals d e) := by
  constructor
  · rintro ⟨dep_list, returns, perm⟩
    obtain ⟨depth, returned⟩ := returns.exists_some
    have runs := runs_of_returned returned
    rw [returns.unique (returns_collected runs)] at perm
    exact ⟨runs, perm⟩
  · rintro ⟨runs, perm⟩
    exact ⟨_, returns_collected runs, perm⟩

end Running

/-! ## How often a name is returned -/

section Counting

variable {repository : DefinitionRepository}
  {enumVals : Definition → String → List (String × String)} {d : Definition} {e : Element}
  {call : Definition → Element → List String}
  {type : VarType} {p : XmlName × Content Element} {s : String}

theorem count_reported : (reported repository enumVals call type d p).count s =
    (if type = .T_ELEMENT_PTR then
      (reported repository enumVals call .T_ELEMENT_PTR d p).count s else 0) +
    if type = .T_CHILD_ELEMENT then
      (reported repository enumVals call .T_CHILD_ELEMENT d p).count s else 0 := by
  cases type <;> simp [reported]

theorem count_pointerValues : (pointerValues repository enumVals d e).count s =
    (e.properties.map fun p =>
      (if typeOf repository d p.1.text = .T_ELEMENT_PTR then 1 else 0) *
        (reported repository enumVals (pointerValues repository enumVals) .T_ELEMENT_PTR d
          p).count s
      + (if typeOf repository d p.1.text = .T_CHILD_ELEMENT then 1 else 0) *
        (reported repository enumVals (pointerValues repository enumVals) .T_CHILD_ELEMENT d
          p).count s).sum := by
  rw [pointerValues_eq, List.count_flatMap]
  congr 1
  apply List.map_congr_left
  intro p _
  rw [Function.comp_apply, count_reported, ite_mul, ite_mul, Nat.one_mul, Nat.one_mul,
    Nat.zero_mul, Nat.zero_mul]

theorem count_collected : (collected repository enumVals d e).count s =
    (e.properties.map fun p =>
      listed repository d p.1.text .T_ELEMENT_PTR *
        (reported repository enumVals (collected repository enumVals) .T_ELEMENT_PTR d p).count s
      + listed repository d p.1.text .T_CHILD_ELEMENT *
        (reported repository enumVals (collected repository enumVals) .T_CHILD_ELEMENT d
          p).count s).sum := by
  rw [collected_eq, List.count_flatMap]
  simp only [Function.comp_def, List.count_flatMap]
  rw [sum_comm]
  congr 1
  apply List.map_congr_left
  intro p _
  -- the properties of the token, by their types
  rw [listed, listed, ← sum_map_ite_const, ← sum_map_ite_const, ← List.sum_map_add]
  congr 1
  apply List.map_congr_left
  intro q _
  by_cases same : p.1.text = q.getToken
  · rw [if_pos same, count_reported]
    simp [same]
  · rw [if_neg same]
    simp [Ne.symm same]

theorem mem_collected : s ∈ collected repository enumVals d e ↔
    ∃ q ∈ listing repository d, ∃ p ∈ e.properties, p.1.text = q.getToken ∧
      s ∈ reported repository enumVals (collected repository enumVals) q.getVarType d p := by
  rw [collected_eq]
  simp only [List.mem_flatMap]
  constructor
  · rintro ⟨q, member, p, value, here⟩
    split at here
    next same => exact ⟨q, member, p, value, same, here⟩
    next => cases here
  · rintro ⟨q, member, p, value, same, here⟩
    exact ⟨q, member, p, value, by rwa [if_pos same]⟩

theorem reported_pointer :
    s ∈ reported repository enumVals call .T_ELEMENT_PTR d p ↔
      s = propertyText enumVals d p.1.text p.2 ∧ s ≠ "" := by
  rw [reported, List.mem_filter, List.mem_singleton, decide_eq_true_iff]

theorem reported_some {child : Definition × Element}
    (found : getProperty_ElementPtr repository p.2 = some child) :
    reported repository enumVals call .T_CHILD_ELEMENT d p = call child.1 child.2 := by
  simp only [reported, found]

theorem reported_none (found : getProperty_ElementPtr repository p.2 = none) :
    reported repository enumVals call .T_CHILD_ELEMENT d p = [] := by
  simp only [reported, found]

theorem exists_of_reports (reports : Reports repository enumVals d e) :
    ∃ s, s ∈ collected repository enumVals d e := by
  induction reports with
  | @pointer d e q p listed type member same text =>
    refine ⟨propertyText enumVals d p.1.text p.2,
      mem_collected.mpr ⟨q, listed, p, member, same, ?_⟩⟩
    rw [type]
    exact reported_pointer.mpr ⟨rfl, text⟩
  | @embedded d e q p child listed type member same found _ ih =>
    obtain ⟨s, inside⟩ := ih
    refine ⟨s, mem_collected.mpr ⟨q, listed, p, member, same, ?_⟩⟩
    rwa [type, reported_some found]

theorem reports_of_mem (runs : Runs repository d e)
    (inside : s ∈ collected repository enumVals d e) : Reports repository enumVals d e := by
  induction runs with
  | @mk d e _ _ _ ih =>
    obtain ⟨q, member, p, value, same, here⟩ := mem_collected.mp inside
    cases type : q.getVarType with
    | T_ELEMENT_PTR =>
      rw [type] at here
      obtain ⟨rfl, text⟩ := reported_pointer.mp here
      exact .pointer member type value same text
    | T_CHILD_ELEMENT =>
      rw [type] at here
      cases found : getProperty_ElementPtr repository p.2 with
      | none =>
        rw [reported_none found] at here
        cases here
      | some child =>
        rw [reported_some found] at here
        exact .embedded member type value same found
          (ih q member type p value same child found here)
    | _ =>
      rw [type] at here
      cases here

end Counting

/-! ## When nothing is returned too often -/

section Repeating

variable {repository : DefinitionRepository}
  {enumVals : Definition → String → List (String × String)} {d : Definition} {e : Element}
  {p : XmlName × Content Element}

/-- The pointers of a property are returned as often as they are there. -/
theorem pointers_iff (ends : repository.hierarchy.NoLoop d)
    {call call' : Definition → Element → List String} :
    (∀ s, listed repository d p.1.text .T_ELEMENT_PTR *
        (reported repository enumVals call .T_ELEMENT_PTR d p).count s =
      (if typeOf repository d p.1.text = .T_ELEMENT_PTR then 1 else 0) *
        (reported repository enumVals call' .T_ELEMENT_PTR d p).count s) ↔
      (propertyText enumVals d p.1.text p.2 ≠ "" →
        listed repository d p.1.text .T_ELEMENT_PTR =
          if typeOf repository d p.1.text = .T_ELEMENT_PTR then 1 else 0) := by
  have below (_ : 0 < listed repository d p.1.text .T_ELEMENT_PTR) (s : String) :
      (reported repository enumVals call' .T_ELEMENT_PTR d p).count s ≤
        (reported repository enumVals call .T_ELEMENT_PTR d p).count s := Nat.le_refl _
  rw [forall_mul_eq_iff (found_le_listed ends (by decide)) below]
  have text : (∃ s, 0 < (reported repository enumVals call .T_ELEMENT_PTR d p).count s) ↔
      propertyText enumVals d p.1.text p.2 ≠ "" := by
    simp only [List.count_pos_iff, reported_pointer]
    constructor
    · rintro ⟨_, rfl, text⟩
      exact text
    · exact fun text => ⟨_, rfl, text⟩
  rw [text]
  exact and_iff_left fun _ _ => rfl

/-- What is shown of an element that runs, from what is embedded in it. -/
structure Compared (repository : DefinitionRepository)
    (enumVals : Definition → String → List (String × String)) (d : Definition) (e : Element) :
    Prop where
  runs : Runs repository d e
  notMissing : ∀ s, (pointerValues repository enumVals d e).count s ≤
    (collected repository enumVals d e).count s
  perm_iff : (collected repository enumVals d e).Perm (pointerValues repository enumVals d e) ↔
    Once repository enumVals d e

theorem embedded_le (ih : ∀ child, getProperty_ElementPtr repository p.2 = some child →
      Compared repository enumVals child.1 child.2) (s : String) :
    (reported repository enumVals (pointerValues repository enumVals) .T_CHILD_ELEMENT d
      p).count s ≤
    (reported repository enumVals (collected repository enumVals) .T_CHILD_ELEMENT d
      p).count s := by
  cases found : getProperty_ElementPtr repository p.2 with
  | none =>
    rw [reported_none found]
    exact Nat.zero_le _
  | some child =>
    rw [reported_some found, reported_some found]
    exact (ih child found).notMissing s

/-- What is embedded in a property is returned as often as it is there. -/
theorem embedded_iff (ends : repository.hierarchy.NoLoop d)
    (ih : 0 < listed repository d p.1.text .T_CHILD_ELEMENT →
      ∀ child, getProperty_ElementPtr repository p.2 = some child →
        Compared repository enumVals child.1 child.2) :
    (∀ s, listed repository d p.1.text .T_CHILD_ELEMENT *
        (reported repository enumVals (collected repository enumVals) .T_CHILD_ELEMENT d
          p).count s =
      (if typeOf repository d p.1.text = .T_CHILD_ELEMENT then 1 else 0) *
        (reported repository enumVals (pointerValues repository enumVals) .T_CHILD_ELEMENT d
          p).count s) ↔
      (∀ child, getProperty_ElementPtr repository p.2 = some child →
        Reports repository enumVals child.1 child.2 →
          listed repository d p.1.text .T_CHILD_ELEMENT =
            if typeOf repository d p.1.text = .T_CHILD_ELEMENT then 1 else 0) ∧
      (typeOf repository d p.1.text = .T_CHILD_ELEMENT →
        ∀ child, getProperty_ElementPtr repository p.2 = some child →
          Once repository enumVals child.1 child.2) := by
  have less : (if typeOf repository d p.1.text = .T_CHILD_ELEMENT then 1 else 0) ≤
      listed repository d p.1.text .T_CHILD_ELEMENT := found_le_listed ends (by decide)
  rw [forall_mul_eq_iff less fun some' => embedded_le (ih some')]
  cases found : getProperty_ElementPtr repository p.2 with
  | none => simp [reported_none found]
  | some child =>
    simp only [reported_some found, List.count_pos_iff, Option.some.injEq, forall_eq']
    rcases Nat.eq_zero_or_pos (listed repository d p.1.text .T_CHILD_ELEMENT) with none' | some'
    · have other : typeOf repository d p.1.text ≠ .T_CHILD_ELEMENT := by
        intro same
        rw [if_pos same] at less
        omega
      simp [other, none']
    · have compared := ih some' child found
      have reports : (∃ s, s ∈ collected repository enumVals child.1 child.2) ↔
          Reports repository enumVals child.1 child.2 :=
        ⟨fun ⟨_, inside⟩ => reports_of_mem compared.runs inside, exists_of_reports⟩
      have found' : (0 < if typeOf repository d p.1.text = .T_CHILD_ELEMENT then 1 else 0) ↔
          typeOf repository d p.1.text = .T_CHILD_ELEMENT := by
        split <;> simp [*]
      rw [reports, found', ← List.perm_iff_count, compared.perm_iff]

theorem once_iff : Once repository enumVals d e ↔ ∀ p ∈ e.properties,
    (propertyText enumVals d p.1.text p.2 ≠ "" → listed repository d p.1.text .T_ELEMENT_PTR =
      if typeOf repository d p.1.text = .T_ELEMENT_PTR then 1 else 0) ∧
    (∀ child, getProperty_ElementPtr repository p.2 = some child →
      Reports repository enumVals child.1 child.2 →
        listed repository d p.1.text .T_CHILD_ELEMENT =
          if typeOf repository d p.1.text = .T_CHILD_ELEMENT then 1 else 0) ∧
    (typeOf repository d p.1.text = .T_CHILD_ELEMENT →
      ∀ child, getProperty_ElementPtr repository p.2 = some child →
        Once repository enumVals child.1 child.2) := by
  constructor
  · rintro ⟨pointers, embedded, deeper⟩ p member
    exact ⟨pointers p member, embedded p member, deeper p member⟩
  · intro each
    exact .mk (fun p member => (each p member).1) (fun p member => (each p member).2.1)
      fun p member => (each p member).2.2

theorem compared_of_runs (runs : Runs repository d e) : Compared repository enumVals d e := by
  induction runs with
  | @mk d e ends known deeper ih =>
    have children : ∀ p ∈ e.properties, 0 < listed repository d p.1.text .T_CHILD_ELEMENT →
        ∀ child, getProperty_ElementPtr repository p.2 = some child →
          Compared repository enumVals child.1 child.2 := by
      intro p value some' child found
      obtain ⟨q, member, token, type⟩ := listed_pos.mp some'
      exact ih q member type p value token.symm child found
    have pointers (p : XmlName × Content Element) (s : String) :
        (if typeOf repository d p.1.text = .T_ELEMENT_PTR then 1 else 0) *
          (reported repository enumVals (pointerValues repository enumVals) .T_ELEMENT_PTR d
            p).count s ≤
        listed repository d p.1.text .T_ELEMENT_PTR *
          (reported repository enumVals (collected repository enumVals) .T_ELEMENT_PTR d
            p).count s :=
      Nat.mul_le_mul (found_le_listed ends (by decide)) (Nat.le_refl _)
    have embedded (p : XmlName × Content Element) (member : p ∈ e.properties) (s : String) :
        (if typeOf repository d p.1.text = .T_CHILD_ELEMENT then 1 else 0) *
          (reported repository enumVals (pointerValues repository enumVals) .T_CHILD_ELEMENT d
            p).count s ≤
        listed repository d p.1.text .T_CHILD_ELEMENT *
          (reported repository enumVals (collected repository enumVals) .T_CHILD_ELEMENT d
            p).count s := by
      have less : (if typeOf repository d p.1.text = .T_CHILD_ELEMENT then 1 else 0) ≤
      listed repository d p.1.text .T_CHILD_ELEMENT := found_le_listed ends (by decide)
      rcases Nat.eq_zero_or_pos (listed repository d p.1.text .T_CHILD_ELEMENT) with none' | some'
      · rw [none', Nat.le_zero] at less
        rw [less, Nat.zero_mul]
        exact Nat.zero_le _
      · exact Nat.mul_le_mul less (embedded_le (children p member some') s)
    have below (s : String) := fun p member => Nat.add_le_add (pointers p s) (embedded p member s)
    refine ⟨.mk ends known deeper, fun s => ?_, ?_⟩
    · rw [count_pointerValues, count_collected]
      exact List.sum_le_sum (below s)
    · -- sums of numbers that are not less, of which each has two parts
      have parts (s : String) (p : XmlName × Content Element) (member : p ∈ e.properties) :=
        add_eq_add_iff_eq_and_eq (pointers p s) (embedded p member s)
      rw [List.perm_iff_count, once_iff]
      constructor
      · intro same p member
        have each (s : String) := by
          have sums := same s
          rw [count_pointerValues, count_collected, sum_map_eq_iff (below s)] at sums
          exact (parts s p member).mp (sums p member).symm
        exact ⟨(pointers_iff ends).mp fun s => (each s).1.symm,
          (embedded_iff ends (children p member)).mp fun s => (each s).2.symm⟩
      · intro once s
        rw [count_pointerValues, count_collected, sum_map_eq_iff (below s)]
        intro p member
        obtain ⟨own, inside⟩ := once p member
        exact congrArg₂ (· + ·) ((pointers_iff ends).mpr own s)
          ((embedded_iff ends (children p member)).mpr inside s)

/-! ## The check of dependencies -/

variable {isElementInActiveList : String → Bool}

/-- Once it is false, `pass` stays so. -/
theorem foldl_active (pass : Bool) (dependencies : List String) :
    dependencies.foldl (fun pass name => if isElementInActiveList name then pass else false) pass =
      (pass && dependencies.all isElementInActiveList) := by
  induction dependencies generalizing pass with
  | nil => exact (Bool.and_true pass).symm
  | cons name rest ih =>
    rw [List.foldl_cons, ih, List.all_cons]
    cases isElementInActiveList name <;> simp

/-- A check that passes has seen each pointer of the element, and of what is embedded in it. -/
theorem active_of_depSatisfied
    (passed : Returns (depSatisfied repository enumVals isElementInActiveList · d e) true) :
    ∀ name ∈ pointerValues repository enumVals d e, isElementInActiveList name = true := by
  obtain ⟨depth, returned⟩ := passed.exists_some
  obtain ⟨dependencies, returned, -⟩ := Option.map_eq_some_iff.mp returned
  have runs := runs_of_returned returned
  have all := passed.unique ((returns_collected runs).map (allActive isElementInActiveList))
  rw [allActive, foldl_active, Bool.true_and] at all
  intro name inside
  have positive : 0 < (pointerValues repository enumVals d e).count name :=
    List.count_pos_iff.mpr inside
  have compared : Compared repository enumVals d e := compared_of_runs runs
  have more := compared.notMissing name
  exact List.all_eq_true.mp all.symm name
    (List.count_pos_iff.mp (Nat.lt_of_lt_of_le positive more))

end Repeating

/-- The pointers are returned exactly, for the element and all that is embedded in it, when
nothing stops the code and what has something to report is listed once. -/
theorem pointersComplete_iff (repository : DefinitionRepository)
    (enumVals : Definition → String → List (String × String)) (d : Definition) (e : Element) :
    PointersComplete repository enumVals d e ↔
      Runs repository d e ∧ Once repository enumVals d e := by
  rw [pointersComplete_iff_perm]
  exact and_congr_right fun runs => (compared_of_runs runs).perm_iff

/-- A joystick is an input device in two ways, and an input device is connected to a node of the
cluster. -/
def joystickDefinition : Definition :=
  define "directx_joystick" ["digital_device", "analog_device"] [("axis_buttons", "integer")]

def joystickDefinitions : DefinitionRepository :=
  .load [define "input_device" [] [("device_host", "configelementpointer")],
    define "digital_device" ["input_device"] [], define "analog_device" ["input_device"] [],
    joystickDefinition]

theorem acyclic_joystick : joystickDefinitions.hierarchy.Acyclic :=
  acyclic_of_ranks
    (rankOf ["input_device", "digital_device", "analog_device", "directx_joystick"]) (by decide)

def joystick : Element where
  type := "directx_joystick"
  name := "Joystick"
  properties := [(⟨"device_host", by decide⟩, .cdata "Node 1")]

/-- The node of the joystick is returned twice. -/
theorem joystick_host_twice : ¬ ∀ (repository : DefinitionRepository)
    (enumVals : Definition → String → List (String × String)) (d : Definition) (e : Element),
    repository.hierarchy.Acyclic → repository.get e.type = some d →
      PointersComplete repository enumVals d e := by
  intro all
  have complete := all joystickDefinitions (fun _ _ => []) joystickDefinition joystick
    acyclic_joystick rfl
  obtain ⟨runs, perm⟩ := pointersComplete_iff_perm.mp complete
  obtain ⟨pointers, -, -⟩ := (compared_of_runs runs).perm_iff.mp perm
  have once := pointers _ (List.mem_cons_self ..) (by decide)
  have twice : listing joystickDefinitions joystickDefinition =
      [property ("device_host", "configelementpointer"),
        property ("device_host", "configelementpointer"), property ("axis_buttons", "integer")] :=
    (eq_listing (rfl : getAllPropertyDefinitions _ 3 _ = _)).symm
  have count : listed joystickDefinitions joystickDefinition "device_host" .T_ELEMENT_PTR = 2 := by
    rw [listed, twice]
    rfl
  rw [count] at once
  split at once
  · cases once
  · cases once

end VRJuggler.Jccl
