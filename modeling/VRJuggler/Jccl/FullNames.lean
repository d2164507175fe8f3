import VRJuggler.Base.Lists
import VRJuggler.Jccl.Embedded

/-!
# Full names as paths

The full name of an embedded element is a path to it where all names are without separators, the
values of a property have different names, and the definition of the outermost element has the
properties of all that is embedded in it. A path is counted by its separators: each embedded
element on the way to a place takes two components.
-/
namespace VRJuggler.Jccl

variable (repository : DefinitionRepository) (d : Definition)

/-! ## What should hold -/

/-- The path leads to the place. -/
def LeadsTo (top : Element) (path : String) (place : List Nat) : Prop :=
  Returns (getChildElement repository · d top path) (.element place)

/-- For an element with the definition `d`: the full names of the elements embedded in it are
paths to them, and no two have the same. -/
structure NamesAddress (top : Element) : Prop where
  addressed : ∀ place x, place ≠ [] → occurrence [] top place = some x →
    ∃ path, x.getFullName = top.name ++ EMBEDDED_SEPARATOR ++ path ∧
      LeadsTo repository d top path place
  distinct : ∀ place place' x x', place ≠ [] → place' ≠ [] →
    occurrence [] top place = some x → occurrence [] top place' = some x' →
      x.getFullName = x'.getFullName → place = place'

/-! ## When it holds -/

/-- The definition of the outermost element has a property of embedded elements for the token. -/
def HasChildren (token : String) : Prop :=
  ∃ prop_def, Returns (getPropertyDefinition repository · d token) (some prop_def) ∧
    prop_def.getVarType = .T_CHILD_ELEMENT

/-- The value is the first of its property with its name, which has no separator. -/
structure Named (parent : Element) (i : Nat) (token : XmlName) (child : Element) : Prop where
  known : HasChildren repository d token.text
  plain : '/' ∉ child.name.toList
  first : ∀ j < i, ∀ other content, parent.properties[j]? = some (other, content) →
    other.text = token.text → content.hasName child.name = false

/-- The climb does not end at a property with this name. -/
def Climbs (token : XmlName) : Prop := token.text ≠ "root" ∧ token.text ≠ "elements"

/-- An embedded element that can be found by its full name. -/
structure Addressable (parent : Element) (i : Nat) (token : XmlName) (child : Element) : Prop
    extends Named repository d parent i token child where
  climbs : Climbs token
  defined : (repository.get child.type).isSome

/-! ## Strings -/

section Strings

variable {c r path : String}

theorem toList_separated : (c ++ EMBEDDED_SEPARATOR ++ r).toList = c.toList ++ '/' :: r.toList := by
  simp [EMBEDDED_SEPARATOR]

theorem hasSeparator_iff : hasSeparator path = true ↔ '/' ∈ path.toList := List.contains_iff_mem

theorem hasSeparator_separated : hasSeparator (c ++ EMBEDDED_SEPARATOR ++ r) = true := by
  rw [hasSeparator_iff, toList_separated]
  simp

theorem component_separated (plain : '/' ∉ c.toList) :
    getFirstNameComponent (c ++ EMBEDDED_SEPARATOR ++ r) = c := by
  rw [getFirstNameComponent, if_pos hasSeparator_separated, toList_separated,
    component_append plain, String.ofList_toList]

theorem remainder_separated (plain : '/' ∉ c.toList) :
    getRemainder (c ++ EMBEDDED_SEPARATOR ++ r) = r := by
  rw [getRemainder, if_pos hasSeparator_separated, toList_separated, behind_append plain,
    String.ofList_toList]

theorem hasSeparator_of_plain (plain : '/' ∉ c.toList) : ¬ hasSeparator c = true :=
  fun separated => plain (hasSeparator_iff.mp separated)

theorem plain_getFirstNameComponent : '/' ∉ (getFirstNameComponent path).toList := by
  rw [getFirstNameComponent]
  split
  · rw [String.toList_ofList]
    exact plain_component
  next unseparated => exact fun member => unseparated (hasSeparator_iff.mpr member)

/-- How many separators a path has. -/
def separators (path : String) : Nat := path.toList.count '/'

theorem separators_separated :
    separators (c ++ EMBEDDED_SEPARATOR ++ r) = separators c + separators r + 1 := by
  rw [separators, toList_separated, List.count_append, List.count_cons_self]
  rfl

theorem separators_of_plain (plain : '/' ∉ c.toList) : separators c = 0 :=
  List.count_eq_zero.mpr plain

theorem separators_getRemainder (separated : hasSeparator path = true) :
    separators (getRemainder path) + 1 = separators path := by
  rw [separators, getRemainder, if_pos separated, String.toList_ofList]
  exact count_behind (hasSeparator_iff.mp separated)

theorem separators_of_unseparated (unseparated : ¬ hasSeparator path = true) :
    separators path = 0 :=
  separators_of_plain fun member => unseparated (hasSeparator_iff.mpr member)

end Strings

/-! ## The way to a place -/

/-- A value on the way: its position, the property and the element. -/
structure Step where
  index : Nat
  token : XmlName
  child : Element

/-- A way down through embedded elements, of which each has `P`. -/
inductive Way (P : Element → Nat → XmlName → Element → Prop) :
    Element → List Step → Element → Prop where
  | here (e : Element) : Way P e [] e
  | down {e f : Element} {step : Step} {steps : List Step}
    (value : e.properties[step.index]? = some (step.token, .element step.child))
    (holds : P e step.index step.token step.child) (more : Way P step.child steps f) :
    Way P e (step :: steps) f

/-- The full name of an element below one that has this name. -/
def fullName (name : String) : List Step → String
  | [] => name
  | step :: steps =>
    name ++ EMBEDDED_SEPARATOR ++
      (step.token.text ++ EMBEDDED_SEPARATOR ++ fullName step.child.name steps)

section Ways

variable {P Q : Element → Nat → XmlName → Element → Prop} {e f g : Element}
  {steps steps' : List Step} {above : List (XmlName × Element)} {place : List Nat} {i : Nat}
  {x : Occurrence}

theorem Way.imp (same : ∀ e i token child, P e i token child → Q e i token child)
    (way : Way P e steps f) : Way Q e steps f := by
  induction way with
  | here e => exact .here e
  | down value holds _ ih => exact .down value (same _ _ _ _ holds) ih

/-- The positions tell the way. -/
theorem Way.unique (left : Way P e steps f) (right : Way Q e steps' g)
    (same : steps.map Step.index = steps'.map Step.index) : steps = steps' ∧ f = g := by
  induction left generalizing steps' with
  | here e =>
    cases right with
    | here => exact ⟨rfl, rfl⟩
    | down => cases same
  | @down e f step steps value _ _ ih =>
    cases right with
    | here => cases same
    | @down _ _ step' steps' value' _ more' =>
      rw [List.map_cons, List.map_cons] at same
      obtain ⟨index, rest⟩ := List.cons.inj same
      rw [index, value'] at value
      obtain ⟨token, content⟩ := Prod.mk.inj (Option.some.inj value)
      have child : step'.child = step.child := by injection content
      have first : step = step' := by
        cases step
        cases step'
        simp_all
      subst first
      obtain ⟨rfl, last⟩ := ih more' rest
      exact ⟨rfl, last⟩

theorem Way.forall {R : Step → Prop} (way : Way P e steps f)
    (each : ∀ parent step, P parent step.index step.token step.child → R step) :
    ∀ step ∈ steps, R step := by
  induction way with
  | here => simp
  | down _ holds _ ih => exact List.forall_mem_cons.mpr ⟨each _ _ holds, ih⟩

theorem Way.and {R : Step → Prop} (way : Way P e steps f) (all : ∀ step ∈ steps, R step) :
    Way (fun parent i token child => P parent i token child ∧ R ⟨i, token, child⟩) e steps f := by
  induction way with
  | here e => exact .here e
  | down value holds _ ih =>
    rw [List.forall_mem_cons] at all
    exact .down value ⟨holds, all.1⟩ (ih all.2)

/-- Every place has a way to it. -/
theorem way_of_occurrence (found : occurrence above e place = some x)
    (all : ∀ place i token parent above' child,
      occurrence above e (place ++ [i]) = some ⟨child, (token, parent) :: above'⟩ →
        P parent i token child) :
    ∃ steps, Way P e steps x.node ∧ steps.map Step.index = place := by
  induction place generalizing above e with
  | nil =>
    cases found
    exact ⟨[], .here e, rfl⟩
  | cons i place ih =>
    rw [occurrence] at found
    split at found
    next token child value =>
      have below : ∀ rest, occurrence above e (i :: rest) =
          occurrence ((token, e) :: above) child rest := by
        intro rest
        rw [occurrence, value]
      obtain ⟨steps, way, places⟩ := ih found fun place j token' parent above' child' here =>
        all (i :: place) j token' parent above' child' ((below (place ++ [j])).trans here)
      have holds : P e i token child := all [] i token e above child (below [])
      exact ⟨⟨i, token, child⟩ :: steps, .down value holds way, by simp [places]⟩
    next => cases found

/-- The last value on the way to a place. -/
theorem Way.last {token : XmlName} {parent child : Element} {above' : List (XmlName × Element)}
    (way : Way P e steps f) (places : steps.map Step.index = place ++ [i])
    (found : occurrence above e (place ++ [i]) = some ⟨child, (token, parent) :: above'⟩) :
    P parent i token child := by
  induction place generalizing above e steps with
  | nil =>
    cases way with
    | here => cases places
    | down value holds more =>
      rw [List.map_cons, List.nil_append] at places
      obtain ⟨rfl, -⟩ := List.cons.inj places
      rw [List.nil_append, occurrence, value] at found
      cases found
      exact holds
  | cons j place ih =>
    cases way with
    | here => cases places
    | down value _ more =>
      rw [List.map_cons, List.cons_append] at places
      obtain ⟨rfl, rest⟩ := List.cons.inj places
      rw [List.cons_append, occurrence, value] at found
      exact ih more rest found

/-- The climb comes to the top, or ends at a property on the way. -/
theorem getFullName_eq (found : occurrence above e place = some x)
    (way : Way P e steps x.node) (places : steps.map Step.index = place) :
    ((∀ step ∈ steps, Climbs step.token) ∧ x.getFullName = climb (fullName e.name steps) above) ∨
      ∃ before step after, steps = before ++ step :: after ∧ ¬ Climbs step.token ∧
        x.getFullName = fullName step.child.name after := by
  induction place generalizing above e steps with
  | nil =>
    cases found
    obtain rfl := List.map_eq_nil_iff.mp places
    exact .inl ⟨by simp, rfl⟩
  | cons i place ih =>
    cases way with
    | here => cases places
    | @down _ _ step steps value _ more =>
      rw [List.map_cons] at places
      obtain ⟨rfl, rest⟩ := List.cons.inj places
      rw [occurrence, value] at found
      rcases ih found more rest with ⟨climbs, full⟩ | ⟨before, last, after, rfl, ends, full⟩
      · rw [climb] at full
        split at full
        next stops =>
          have ends : ¬ Climbs step.token := fun climbs => stops.elim climbs.1 climbs.2
          exact .inr ⟨[], step, steps, rfl, ends, full⟩
        next goes =>
          rw [not_or] at goes
          exact .inl ⟨List.forall_mem_cons.mpr ⟨goes, climbs⟩, full⟩
      · exact .inr ⟨step :: before, last, after, rfl, ends, full⟩

theorem separators_fullName {name : String} (plain : '/' ∉ name.toList)
    (all : ∀ step ∈ steps, '/' ∉ step.child.name.toList) :
    separators (fullName name steps) = 2 * steps.length := by
  induction steps generalizing name with
  | nil => exact separators_of_plain plain
  | cons step steps ih =>
    rw [List.forall_mem_cons] at all
    rw [fullName, separators_separated, separators_separated, separators_of_plain plain,
      separators_of_plain step.token.plain, ih all.1 all.2, List.length_cons]
    omega

end Ways

/-! ## Look-ups with more stack -/

section Deeper

variable {repository : DefinitionRepository} {d : Definition} {token : String} {depth : Nat}

theorem firstFound_mono {call call' : Definition → Option (Option Child)} {es : List Definition}
    {found : Option Child} (more : ∀ e r, call e = some r → call' e = some r)
    (searched : firstFound call es = some found) : firstFound call' es = some found := by
  induction es with
  | nil => exact searched
  | cons e rest ih =>
    rw [firstFound] at searched ⊢
    obtain ⟨prop_def, here, later⟩ := Option.bind_eq_some_iff.mp searched
    rw [more e prop_def here, Option.bind_some]
    cases prop_def with
    | some p => exact later
    | none => exact ih later

theorem getPropertyDefinition_mono {found : Option Child}
    (searched : getPropertyDefinition repository depth d token = some found) :
    getPropertyDefinition repository (depth + 1) d token = some found := by
  induction depth generalizing d found with
  | zero => cases searched
  | succ depth ih =>
    rw [getPropertyDefinition_succ] at searched ⊢
    cases own : d.own token with
    | some p =>
      rw [own, Option.elim_some] at searched
      exact searched
    | none =>
      rw [own, Option.elim_none] at searched
      exact firstFound_mono (fun e r here => ih here) searched

theorem returns_of_getPropertyDefinition {found : Option Child}
    (searched : getPropertyDefinition repository depth d token = some found) :
    Returns (getPropertyDefinition repository · d token) found :=
  .of_mono (fun _ _ here => getPropertyDefinition_mono here) depth searched

end Deeper

/-! ## Following a path -/

section Following

variable {repository : DefinitionRepository} {d : Definition} {depth : Nat}
  {e child : Element} {token name : String} {i : Nat} {place : List Nat}

theorem find?_getChildren : (Node.getChildren token (.element place e)).find?
      (fun p => p.1.hasName name) =
    (e.properties.zipIdx.find? fun p => p.1.1.text = token && p.1.2.hasName name).map
      fun p => (p.1.2, p.2) := by
  simp only [Node.getChildren, List.find?_map, List.find?_filter, Function.comp_def,
    Bool.decide_and, Bool.decide_eq_true]

/-- The child that is found is the first of the property with the name. -/
theorem childNamed_eq_element {q : List Nat} {c : Element} :
    Node.childNamed name (.element place e) (Node.getChildren token (.element place e)) =
      some (.element q c) ↔
    ∃ i other, e.properties[i]? = some (other, .element c) ∧ other.text = token ∧ c.name = name ∧
      q = place ++ [i] ∧ ∀ j < i, ∀ another content, e.properties[j]? = some (another, content) →
        another.text = token → content.hasName name = false := by
  rw [Node.childNamed, find?_getChildren]
  constructor
  · intro found
    obtain ⟨⟨content, i⟩, here, last⟩ := Option.bind_eq_some_iff.mp found
    obtain ⟨⟨⟨other, content'⟩, i'⟩, first, same⟩ := Option.map_eq_some_iff.mp here
    obtain ⟨rfl, rfl⟩ := Prod.mk.inj same
    obtain ⟨value, holds, before⟩ := find?_zipIdx.mp first
    simp only [Bool.and_eq_true, decide_eq_true_eq] at holds
    cases content' with
    | empty => cases last
    | cdata text => cases last
    | element child =>
      cases last
      refine ⟨i', other, value, holds.1, of_decide_eq_true holds.2, rfl, ?_⟩
      intro j less another content there same
      simpa [same] using before j less (another, content) there
  · rintro ⟨i, other, value, same, named, rfl, before⟩
    have first : e.properties.zipIdx.find? (fun p => p.1.1.text = token && p.1.2.hasName name) =
        some ((other, .element c), i) := by
      refine find?_zipIdx.mpr ⟨value, by simp [same, Content.hasName, named], ?_⟩
      rintro j less ⟨another, content⟩ there
      by_cases token' : another.text = token
      · simp [before j less another content there token']
      · simp [token']
    rw [first]
    rfl

variable {lookup : String → Option (Option Child)} {root : Option Node} {path : String}

theorem descend_of_plain (unseparated : ¬ hasSeparator path = true) :
    descend lookup root path = some root := by
  rw [descend, dif_neg unseparated]

theorem descend_none (separated : hasSeparator path = true) : descend lookup none path = none := by
  rw [descend, dif_pos separated]
  cases known : lookup (getFirstNameComponent path) with
  | none => simp [known]
  | some found => cases found <;> simp [known]

/-- One round of the loop. -/
theorem descend_some {node : Node} (separated : hasSeparator path = true) :
    descend lookup (some node) path =
      ((lookup (getFirstNameComponent path)).bind id).bind fun prop_def =>
        if prop_def.getVarType = .T_CHILD_ELEMENT ∧
            node.getChildren (getFirstNameComponent path) ≠ [] then
          descend lookup (node.childNamed (getFirstNameComponent (getRemainder path))
            (node.getChildren (getFirstNameComponent path))) (getRemainder (getRemainder path))
        else descend lookup (some node) (getRemainder path) := by
  rw [descend, dif_pos separated]
  cases known : lookup (getFirstNameComponent path) with
  | none => simp [known]
  | some found =>
    cases found with
    | none => simp [known]
    | some prop_def => simp [known]

/-- There is no way out of a text. -/
theorem descend_cdata {node : Node}
    (followed : descend lookup (some .cdata) path = some (some node)) : node = .cdata := by
  induction size : path.toList.length using Nat.strongRecOn generalizing path with
  | _ n ih =>
    by_cases separated : hasSeparator path = true
    · rw [descend_some separated] at followed
      obtain ⟨prop_def, -, more⟩ := Option.bind_eq_some_iff.mp followed
      rw [if_neg (by simp [Node.getChildren])] at more
      have shorter := length_getRemainder separated
      exact ih _ (size ▸ shorter) more rfl
    · rw [descend_of_plain separated] at followed
      cases followed
      rfl

theorem of_descend_childNamed {q : List Nat} {c : Element} {child : Option Node}
    (followed : descend lookup child path = some (some (.element q c))) :
    ∃ place e, child = some (.element place e) := by
  cases child with
  | none =>
    by_cases separated : hasSeparator path = true
    · rw [descend_none separated] at followed
      cases followed
    · rw [descend_of_plain separated] at followed
      cases followed
  | some node =>
    cases node with
    | cdata => cases descend_cdata followed
    | element place e => exact ⟨place, e, rfl⟩

/-- What a path leads to is on a way of first children, for each of which it has two
components. -/
theorem way_of_descend {q : List Nat} {c : Element}
    (followed : descend (getPropertyDefinition repository depth d) (some (.element place e)) path =
      some (some (.element q c))) :
    ∃ steps, Way (Named repository d) e steps c ∧ q = place ++ steps.map Step.index ∧
      2 * steps.length ≤ separators path + 1 := by
  induction size : path.toList.length using Nat.strongRecOn generalizing path place e with
  | _ n ih =>
    by_cases separated : hasSeparator path = true
    · have shorter := length_getRemainder separated
      have fewer := separators_getRemainder separated
      rw [descend_some separated] at followed
      obtain ⟨prop_def, known, more⟩ := Option.bind_eq_some_iff.mp followed
      split at more
      next typed =>
        -- the child of the property is the next one on the way
        obtain ⟨place', child, found⟩ := of_descend_childNamed more
        rw [found] at more
        obtain ⟨i, token, value, same, named, rfl, first⟩ := childNamed_eq_element.mp found
        have shorter' := length_getRemainder_le (getRemainder path)
        have fewer' : separators (getRemainder (getRemainder path)) ≤ separators path - 2 := by
          by_cases more : hasSeparator (getRemainder path) = true
          · have := separators_getRemainder more
            omega
          · rw [getRemainder, if_neg more, separators_of_unseparated more]
            omega
        obtain ⟨steps, way, rfl, few⟩ := ih _ (by omega) more rfl
        have holds : Named repository d e i token child := by
          refine ⟨⟨prop_def, ?_, typed.1⟩, ?_, ?_⟩
          · rw [same]
            obtain ⟨found, here, rfl⟩ := Option.bind_eq_some_iff.mp known
            exact returns_of_getPropertyDefinition here
          · rw [named]
            exact plain_getFirstNameComponent
          · intro j less other content there again
            rw [named]
            exact first j less other content there (again.trans same)
        refine ⟨⟨i, token, child⟩ :: steps, .down value holds way, by simp, ?_⟩
        rw [List.length_cons]
        omega
      next =>
        obtain ⟨steps, way, places, few⟩ := ih _ (size ▸ shorter) more rfl
        exact ⟨steps, way, places, by omega⟩
    · rw [descend_of_plain separated] at followed
      cases followed
      exact ⟨[], .here _, by simp, by simp⟩

theorem descend_down {prop_def : Child} {token : XmlName} {w : String}
    (known : lookup token.text = some (some prop_def))
    (typed : prop_def.getVarType = .T_CHILD_ELEMENT)
    (value : e.properties[i]? = some (token, .element child))
    (first : ∀ j < i, ∀ other content, e.properties[j]? = some (other, content) →
      other.text = token.text → content.hasName child.name = false)
    (named : getFirstNameComponent w = child.name) :
    descend lookup (some (.element place e)) (token.text ++ EMBEDDED_SEPARATOR ++ w) =
      descend lookup (some (.element (place ++ [i]) child)) (getRemainder w) := by
  have found : Node.childNamed child.name (.element place e)
      (Node.getChildren token.text (.element place e)) = some (.element (place ++ [i]) child) :=
    childNamed_eq_element.mpr ⟨i, token, value, rfl, rfl, rfl, first⟩
  have some' : Node.getChildren token.text (.element place e) ≠ [] := by
    intro empty
    rw [empty] at found
    cases found
  rw [descend_some hasSeparator_separated, component_separated token.plain,
    remainder_separated token.plain, known, Option.bind_some, id, Option.bind_some,
    if_pos ⟨typed, some'⟩, named, found]

/-- The path that a way spells. -/
def spell : List Step → String
  | [] => ""
  | step :: steps => step.token.text ++ EMBEDDED_SEPARATOR ++ fullName step.child.name steps

variable (place) in
/-- The path that a way of first children spells leads to its end. -/
theorem returns_descend {steps : List Step} {f : Element}
    (way : Way (Named repository d) e steps f) :
    Returns (fun depth => descend (getPropertyDefinition repository depth d)
      (some (.element place e)) (spell steps))
      (some (.element (place ++ steps.map Step.index) f)) := by
  induction way generalizing place with
  | here e =>
    refine ⟨0, fun depth _ => ?_⟩
    rw [List.map_nil, List.append_nil]
    exact descend_of_plain (hasSeparator_of_plain (by simp [spell]))
  | @down e f step steps value holds more ih =>
    obtain ⟨⟨prop_def, ⟨m, known⟩, typed⟩, plain, first⟩ := holds
    obtain ⟨n, later⟩ := ih (place ++ [step.index])
    refine ⟨max m n, fun depth enough => ?_⟩
    have here := known depth (Nat.le_trans (Nat.le_max_left m n) enough)
    have below := later depth (Nat.le_trans (Nat.le_max_right m n) enough)
    simp only [List.append_assoc, List.singleton_append] at below
    simp only [spell, List.map_cons]
    cases steps with
    | nil =>
      cases more
      have last : getFirstNameComponent (fullName step.child.name []) = step.child.name :=
        if_neg (hasSeparator_of_plain plain)
      rw [descend_down here typed value first last, fullName, getRemainder,
        if_neg (hasSeparator_of_plain plain), descend_of_plain (hasSeparator_of_plain plain)]
      rfl
    | cons next steps =>
      have name : fullName step.child.name (next :: steps) =
          step.child.name ++ EMBEDDED_SEPARATOR ++ spell (next :: steps) := rfl
      have first' : getFirstNameComponent (fullName step.child.name (next :: steps)) =
          step.child.name := by
        rw [name]
        exact component_separated plain
      rw [descend_down here typed value first first', name, remainder_separated plain]
      exact below

end Following

/-! ## Every embedded element -/

section Every

variable {repository : DefinitionRepository} {d : Definition} {top e : Element}
  {place : List Nat} {i : Nat} {x : Occurrence} {path : String}

theorem leadsTo_of_way {steps : List Step} (way : Way (Named repository d) top steps e)
    (defined : (repository.get e.type).isSome) :
    LeadsTo repository d top (spell steps) (steps.map Step.index) := by
  obtain ⟨deep, followed⟩ := returns_descend [] way
  refine ⟨deep, fun depth enough => ?_⟩
  have here := followed depth enough
  simp only [List.nil_append] at here
  simp only [getChildElement, here, Option.map_some, defined, if_true]

theorem way_of_leadsTo (leads : LeadsTo repository d top path place) :
    ∃ steps e, Way (Named repository d) top steps e ∧ place = steps.map Step.index ∧
      2 * steps.length ≤ separators path + 1 ∧ (repository.get e.type).isSome := by
  obtain ⟨depth, found⟩ := leads.exists_some
  obtain ⟨root, followed, result⟩ := Option.map_eq_some_iff.mp found
  match root, result with
  | some (.element q e), result =>
    dsimp only at result
    split at result
    next defined =>
      cases result
      obtain ⟨steps, way, places, few⟩ := way_of_descend followed
      exact ⟨steps, e, way, places, few, defined⟩
    next => cases result

theorem exists_above {above : List (XmlName × Element)} (found :
    occurrence above e (place ++ [i]) = some x) :
    ∃ token parent above', x.above = (token, parent) :: above' := by
  induction place generalizing above e with
  | nil =>
    rw [List.nil_append, occurrence] at found
    split at found
    next =>
      cases found
      exact ⟨_, _, _, rfl⟩
    next => cases found
  | cons j place ih =>
    rw [List.cons_append, occurrence] at found
    split at found
    next => exact ih found
    next => cases found

variable (repository d) in
/-- All that is embedded can be found by its full name. -/
def AllAddressable (top : Element) : Prop :=
  ∀ place i token parent above child,
    occurrence [] top (place ++ [i]) = some ⟨child, (token, parent) :: above⟩ →
      Addressable repository d parent i token child

/-- The climb to a full name that leads to its element has not ended before the top. -/
theorem climbs_of_leadsTo {steps : List Step} (found : occurrence [] top place = some x)
    (full : x.getFullName = top.name ++ EMBEDDED_SEPARATOR ++ path)
    (way : Way (Named repository d) top steps x.node) (places : steps.map Step.index = place)
    (few : 2 * steps.length ≤ separators path + 1) : ∀ step ∈ steps, Climbs step.token := by
  have plain : ∀ step ∈ steps, '/' ∉ step.child.name.toList :=
    way.forall fun _ _ named => named.plain
  rcases getFullName_eq found way places with ⟨climbs, -⟩ | ⟨before, last, after, rfl, -, ended⟩
  · exact climbs
  · -- the name would have too few components
    have here := plain last (by simp)
    have rest : ∀ step ∈ after, '/' ∉ step.child.name.toList :=
      fun step member => plain step (by simp [member])
    have count := separators_fullName here rest
    rw [← ended, full, separators_separated] at count
    simp only [List.length_append, List.length_cons] at few
    omega

theorem addressable_of_names (names : NamesAddress repository d top) :
    AllAddressable repository d top := by
  intro place i token parent above child found
  obtain ⟨path, full, leads⟩ := names.addressed _ _ (by simp) found
  obtain ⟨steps, e, way, places, few, defined⟩ := way_of_leadsTo leads
  obtain ⟨steps', way', places'⟩ := way_of_occurrence (P := fun _ _ _ _ => True) found
    fun _ _ _ _ _ _ _ => trivial
  obtain ⟨rfl, rfl⟩ := way.unique way' (places.symm.trans places'.symm)
  have climbs := climbs_of_leadsTo found full way places.symm few
  obtain ⟨named, climbs⟩ := (way.and climbs).last places.symm found
  exact ⟨named, climbs, defined⟩

theorem names_of_addressable (all : AllAddressable repository d top) :
    NamesAddress repository d top := by
  have addressed : ∀ place x, place ≠ [] → occurrence [] top place = some x →
      ∃ path, x.getFullName = top.name ++ EMBEDDED_SEPARATOR ++ path ∧
        LeadsTo repository d top path place := by
    intro place x some' found
    obtain ⟨steps, way, places⟩ := way_of_occurrence found all
    have named := way.imp fun _ _ _ _ addressable => addressable.toNamed
    have climbs : ∀ step ∈ steps, Climbs step.token := way.forall fun _ _ here => here.climbs
    have defined : (repository.get x.node.type).isSome := by
      obtain ⟨before, i, rfl⟩ := (List.eq_nil_or_concat' place).resolve_left some'
      obtain ⟨token, parent, above, same⟩ := exists_above found
      obtain ⟨node, _⟩ := x
      subst same
      exact (all before i token parent above node found).defined
    have leads := leadsTo_of_way named defined
    rw [places] at leads
    refine ⟨spell steps, ?_, leads⟩
    rcases getFullName_eq found way places with ⟨-, full⟩ | ⟨before, last, after, rfl, ends, -⟩
    · cases steps with
      | nil => exact absurd places.symm some'
      | cons step steps => exact full
    · exact absurd (climbs last (by simp)) ends
  refine ⟨addressed, ?_⟩
  intro place place' x x' some' some'' found found' same
  obtain ⟨path, full, leads⟩ := addressed place x some' found
  obtain ⟨path', full', leads'⟩ := addressed place' x' some'' found'
  rw [full, full'] at same
  have paths : path = path' := by
    rw [← String.toList_inj, toList_separated, toList_separated] at same
    exact String.toList_inj.mp (by simpa using same)
  subst paths
  cases leads.unique leads'
  rfl

end Every

/-- The full names are paths exactly when all embedded elements, at every depth, can be found by
them. -/
theorem names_address_iff (top : Element) :
    NamesAddress repository d top ↔ AllAddressable repository d top :=
  ⟨addressable_of_names, names_of_addressable⟩

/-- A marker in a viewport in a window. -/
def windowWithMarker : Element where
  type := "display_window"
  name := "Window"
  properties :=
    [(⟨"viewports", by decide⟩, .element ⟨"viewport", "Left",
      [(⟨"marker", by decide⟩, .element ⟨"marker", "Origin", []⟩)]⟩)]

/-- Each definition has one property. -/
def windowDefinitions : DefinitionRepository :=
  .load [define "display_window" [] [("viewports", "configelement")],
    define "viewport" [] [("marker", "configelement")], define "marker" [] []]

/-- The property of the viewport is looked up in the definition of the window. -/
theorem marker_not_addressed : ¬ ∀ (repository : DefinitionRepository) (top : Element)
    (d : Definition), repository.get top.type = some d → NamesAddress repository d top := by
  intro all
  have names := all windowDefinitions windowWithMarker
    (define "display_window" [] [("viewports", "configelement")]) rfl
  have found := (rfl : occurrence [] windowWithMarker ([0] ++ [0]) = _)
  obtain ⟨path, -, leads⟩ := names.addressed ([0] ++ [0]) _ (by simp) found
  obtain ⟨steps, e, way, places, -⟩ := way_of_leadsTo leads
  obtain ⟨⟨prop_def, ⟨deep, known⟩, -⟩, -⟩ := way.last places.symm found
  have here := known (deep + 1) (Nat.le_succ deep)
  cases here

end VRJuggler.Jccl
