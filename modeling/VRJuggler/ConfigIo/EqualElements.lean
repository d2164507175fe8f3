import VRJuggler.Base.Tolerance
import VRJuggler.ConfigIo.Elements

/-!
# Equality of elements

`equals` is reflexive and symmetric. A pointer without target equals every pointer, and a value
definition without default every one with its label, so that it is transitive only through
elements that have neither; and an element with a pointer is taken for elements with other
values.
-/
namespace VRJuggler.ConfigIo

open Config

/-! ## What should hold -/

/-- Each token is there once, at every depth: the properties are a map. -/
inductive Keyed : ConfigElement → Prop where
  | mk {e : ConfigElement} (distinct : (e.mProps.map Prod.fst).Nodup)
    (embedded : ∀ p ∈ e.mProps, ∀ c : ConfigElement, .element c ∈ p.2 → Keyed c) : Keyed e

theorem Keyed.distinct {e : ConfigElement} (keyed : Keyed e) : (e.mProps.map Prod.fst).Nodup := by
  obtain ⟨distinct, -⟩ := keyed
  exact distinct

/-- Values are compared with values of their kind, elements with elements by `R`. -/
inductive ValueBy (O : SimpleValue → SimpleValue → Prop)
    (R : ConfigElement → ConfigElement → Prop) :
    Value ConfigElement → Value ConfigElement → Prop where
  | null : ValueBy O R .null .null
  | object {v w : ValueObject} (same : O v.value w.value) : ValueBy O R (.object v) (.object w)
  | element {e c : ConfigElement} (same : R e c) : ValueBy O R (.element e) (.element c)

/-- The same name and property values, up to this depth of embedded elements. -/
def ValuesTo : Nat → ConfigElement → ConfigElement → Prop
  | 0, _, _ => True
  | depth + 1, e, c =>
    e.mName = c.mName ∧ Related (List.Forall₂ (ValueBy Eq (ValuesTo depth))) e.mProps c.mProps

def SameValues (e c : ConfigElement) : Prop := ∀ depth, ValuesTo depth e c

/-- One element has gone, with the property values of `e`. -/
def Without (e : ConfigElement) (elements left : List ConfigElement) : Prop :=
  ∃ before c after, elements = before ++ c :: after ∧ left = before ++ after ∧ SameValues e c

namespace Configuration

variable (config : Configuration)

/-- `getElements().contains` -/
def contains (elt : ConfigElement) : Bool := config.mElements.any elt.equals

/-- The first element that equals the given one is removed. -/
def removeElement (elt : ConfigElement) : Except Thrown Configuration :=
  if config.contains elt then .ok { config with mElements := config.mElements.eraseP elt.equals }
  else .error (.illegalArgument ("Element '" ++ elt.mName ++ "' (type " ++ elt.mDefinition.mToken ++
    ") is not a part of this configuration."))

end Configuration

/-- An exception of a data source. -/
inductive SourceThrown where
  | unsupportedOperation (message : String)
  | configuration (thrown : Thrown)

/-- The calls are the same for a file and for a running application, which is never read only. -/
structure DataSource where
  mConfig : Configuration
  isReadOnly : Bool

namespace DataSource

variable (source : DataSource)

def contains (elt : ConfigElement) : Bool := source.mConfig.contains elt

def add (elt : ConfigElement) : Except SourceThrown DataSource :=
  if source.isReadOnly then .error (.unsupportedOperation "Data source is read only.")
  else match source.mConfig.addElement elt with
    | .ok mConfig => .ok { source with mConfig }
    | .error e => .error (.configuration e)

def remove (elt : ConfigElement) : Except SourceThrown DataSource :=
  if source.isReadOnly then .error (.unsupportedOperation "Data source is read only.")
  else match source.mConfig.removeElement elt with
    | .ok mConfig => .ok { source with mConfig }
    | .error e => .error (.configuration e)

end DataSource

/-- What should hold of `equals` for an element, and of the calls that look for it. -/
structure EqualsWell (e : ConfigElement) : Prop where
  refl : e.equals e = true
  symm : ∀ c, Keyed c → e.equals c = c.equals e
  trans : ∀ a c, Keyed a → Keyed c → a.equals e = true → e.equals c = true → a.equals c = true
  contains : ∀ config : Configuration, (∀ c ∈ config.mElements, Keyed c) →
    config.contains e = true → ∃ c ∈ config.mElements, SameValues e c
  removeElement : ∀ config left : Configuration, (∀ c ∈ config.mElements, Keyed c) →
    config.removeElement e = .ok left → Without e config.mElements left.mElements
  containsSource : ∀ source : DataSource, (∀ c ∈ source.mConfig.mElements, Keyed c) →
    source.contains e = true → ∃ c ∈ source.mConfig.mElements, SameValues e c
  removeSource : ∀ source left : DataSource, (∀ c ∈ source.mConfig.mElements, Keyed c) →
    source.remove e = .ok left → Without e source.mConfig.mElements left.mConfig.mElements

/-! ## When it holds -/

/-- All value definitions have defaults, and none is a pointer without target. -/
def DefaultsSet (d : ConfigDefinition) : Prop :=
  ∀ p ∈ d.mPropertyDefs, ∀ v ∈ p.mPropValueDefs, ∃ value,
    v.mDefaultValue = some value ∧ value ≠ .pointer none

/-- All pointers have targets, and the definitions have their defaults. -/
inductive Complete : ConfigElement → Prop where
  | mk {e : ConfigElement} (defaults : DefaultsSet e.mDefinition)
    (targets : ∀ p ∈ e.mProps, ∀ v : ValueObject, .object v ∈ p.2 → v.value ≠ .pointer none)
    (embedded : ∀ p ∈ e.mProps, ∀ c : ConfigElement, .element c ∈ p.2 → Complete c) : Complete e

/-- There is no pointer in the element. -/
inductive PointerFree : ConfigElement → Prop where
  | mk {e : ConfigElement}
    (values : ∀ p ∈ e.mProps, ∀ v : ValueObject, .object v ∈ p.2 →
      ∀ mTarget, v.value ≠ .pointer mTarget)
    (embedded : ∀ p ∈ e.mProps, ∀ c : ConfigElement, .element c ∈ p.2 → PointerFree c) :
    PointerFree e

/-! ## Values and definitions -/

theorem simple_equals_symm (v w : SimpleValue) : v.equals w = w.equals v := by
  cases v with
  | pointer mTarget =>
    cases w with
    | pointer other => cases mTarget <;> cases other <;> simp [SimpleValue.equals, eq_comm]
    | _ => simp [SimpleValue.equals]
  | _ => simp [SimpleValue.equals, eq_comm]

theorem eq_of_equals_pointer {v : SimpleValue} {target : String}
    (equal : v.equals (.pointer (some target)) = true) (complete : v ≠ .pointer none) :
    v = .pointer (some target) := by
  cases v with
  | pointer mTarget =>
    cases mTarget with
    | none => exact absurd rfl complete
    | some mTarget => simpa [SimpleValue.equals] using equal
  | _ => simp [SimpleValue.equals] at equal

/-- Only what has no target equals different values. -/
theorem through_simple {v : SimpleValue} :
    Through (Decides SimpleValue.equals) v ↔ v ≠ .pointer none := by
  constructor
  · rintro through rfl
    have equal := through (.pointer (some "a")) (.pointer (some "b")) rfl rfl
    simp [Decides, SimpleValue.equals] at equal
  · intro complete a c left right
    have right' : c.equals v = true := by rwa [simple_equals_symm]
    cases v with
    | pointer mTarget =>
      cases mTarget with
      | none => exact absurd rfl complete
      | some target =>
        by_cases first : a = .pointer none
        · -- `c` is some pointer, and `a` equals each
          subst first
          by_cases last : c = .pointer none
          · rw [last]
            rfl
          · rw [eq_of_equals_pointer right' last]
            rfl
        · rw [eq_of_equals_pointer left first]
          exact right
    | _ =>
      have first := (SimpleValue.equals_iff_eq (by simp)).mp left
      rw [first]
      exact right

/-- A value that is no pointer equals itself alone. -/
theorem tells_simple {v : SimpleValue} :
    Tells (Decides SimpleValue.equals) Eq v ↔ ∀ mTarget, v ≠ .pointer mTarget := by
  constructor
  · rintro tells mTarget rfl
    cases mTarget with
    | none => cases tells (.pointer (some "a")) rfl
    | some target => cases tells (.pointer none) rfl
  · intro value c equal
    rw [Decides, simple_equals_symm] at equal
    exact ((SimpleValue.equals_iff_eq value).mp equal).symm

section

variable {v w : PropertyValueDefinition}

theorem value_equals_iff : v.equals w = true ↔ v.mLabel = w.mLabel ∧
    ∀ x y, v.mDefaultValue = some x → w.mDefaultValue = some y → x.equals y = true := by
  obtain ⟨mLabel, mDefaultValue⟩ := v
  obtain ⟨label, value⟩ := w
  cases mDefaultValue <;> cases value <;> simp [PropertyValueDefinition.equals]

theorem value_equals_self : v.equals v = true := by
  refine value_equals_iff.mpr ⟨rfl, fun x y here there => ?_⟩
  cases here.symm.trans there
  exact x.equals_self

theorem value_equals_symm (equal : v.equals w = true) : w.equals v = true := by
  obtain ⟨label, values⟩ := value_equals_iff.mp equal
  refine value_equals_iff.mpr ⟨label.symm, fun x y here there => ?_⟩
  rw [simple_equals_symm]
  exact values y x there here

theorem through_value : Through (Decides PropertyValueDefinition.equals) v ↔
    ∃ value, v.mDefaultValue = some value ∧ value ≠ .pointer none := by
  constructor
  · intro through
    cases here : v.mDefaultValue with
    | none =>
      -- every default goes with none
      have left : Decides PropertyValueDefinition.equals ⟨v.mLabel, some (.boolean true)⟩ v :=
        value_equals_iff.mpr ⟨rfl, by simp [here]⟩
      have right : Decides PropertyValueDefinition.equals v ⟨v.mLabel, some (.boolean false)⟩ :=
        value_equals_iff.mpr ⟨rfl, by simp [here]⟩
      have equal := (value_equals_iff.mp (through _ _ left right)).2 _ _ rfl rfl
      simp [SimpleValue.equals] at equal
    | some value =>
      refine ⟨value, rfl, through_simple.mp fun a c left right => ?_⟩
      have before : Decides PropertyValueDefinition.equals ⟨v.mLabel, some a⟩ v :=
        value_equals_iff.mpr ⟨rfl, by simpa [here] using left⟩
      have after : Decides PropertyValueDefinition.equals v ⟨v.mLabel, some c⟩ :=
        value_equals_iff.mpr ⟨rfl, by simpa [here] using right⟩
      exact (value_equals_iff.mp (through _ _ before after)).2 _ _ rfl rfl
  · rintro ⟨value, here, complete⟩ a c left right
    obtain ⟨first, before⟩ := value_equals_iff.mp left
    obtain ⟨last, after⟩ := value_equals_iff.mp right
    refine value_equals_iff.mpr ⟨first.trans last, fun x y is_x is_y => ?_⟩
    exact through_simple.mpr complete x y (before x value is_x here) (after value y here is_y)

end

/-- What a property definition is compared by, its values apart. -/
def PropertyDefinition.compared (p : PropertyDefinition) : String × ValueType × String × Bool :=
  (p.mToken, p.mType, p.mHelp, p.mVariable)

theorem property_equals_iff {p q : PropertyDefinition} :
    p.equals q = true ↔ PropertyDefinition.compared p = PropertyDefinition.compared q ∧
      List.Forall₂ (Decides PropertyValueDefinition.equals) p.mPropValueDefs q.mPropValueDefs := by
  simp only [PropertyDefinition.equals, PropertyDefinition.compared, Bool.and_eq_true,
    decide_eq_true_eq, equalLists_iff, Prod.mk.injEq]
  tauto

theorem property_equals_symm {p q : PropertyDefinition} (equal : p.equals q = true) :
    q.equals p = true := by
  obtain ⟨same, values⟩ := property_equals_iff.mp equal
  exact property_equals_iff.mpr ⟨same.symm, values.flip.imp fun _ _ => value_equals_symm⟩

theorem through_property {p : PropertyDefinition} :
    Through (Decides PropertyDefinition.equals) p ↔
      ∀ v ∈ p.mPropValueDefs, ∃ value, v.mDefaultValue = some value ∧ value ≠ .pointer none := by
  rw [through_part PropertyDefinition.compared PropertyDefinition.mPropValueDefs
    (fun values => { p with mPropValueDefs := values }) (fun _ _ => property_equals_iff)
    (fun _ => rfl) (fun _ => rfl), through_forall₂ fun _ _ => value_equals_self]
  simp only [through_value]

/-- What a definition is compared by, its properties apart. -/
def ConfigDefinition.compared (d : ConfigDefinition) :
    String × String × String × Int × Bool × List String × String × List String :=
  (d.mName, d.mToken, d.mIconLocation, d.mVersion, d.mIsAbstract, d.mCategories, d.mHelp,
    d.mParents)

theorem definition_equals_iff {d f : ConfigDefinition} :
    d.equals f = true ↔ ConfigDefinition.compared d = ConfigDefinition.compared f ∧
      List.Forall₂ (Decides PropertyDefinition.equals) d.mPropertyDefs f.mPropertyDefs := by
  simp only [ConfigDefinition.equals, ConfigDefinition.compared, Bool.and_eq_true,
    decide_eq_true_eq, equalLists_iff, Prod.mk.injEq]
  tauto

theorem definition_equals_symm {d f : ConfigDefinition} (equal : d.equals f = true) :
    f.equals d = true := by
  obtain ⟨same, properties⟩ := definition_equals_iff.mp equal
  exact definition_equals_iff.mpr ⟨same.symm, properties.flip.imp fun _ _ => property_equals_symm⟩

theorem through_definition {d : ConfigDefinition} :
    Through (Decides ConfigDefinition.equals) d ↔ DefaultsSet d := by
  rw [through_part ConfigDefinition.compared ConfigDefinition.mPropertyDefs
    (fun properties => { d with mPropertyDefs := properties }) (fun _ _ => definition_equals_iff)
    (fun _ => rfl) (fun _ => rfl), through_forall₂ fun p _ => p.equals_self]
  simp only [through_property, DefaultsSet]

/-! ## Elements -/

/-- Elements whose properties are maps, and of which the one equals the other. -/
def Alike (e c : ConfigElement) : Prop := Keyed e ∧ Keyed c ∧ e.equals c = true

abbrev AlikeValue : Value ConfigElement → Value ConfigElement → Prop :=
  ValueBy (Decides SimpleValue.equals) Alike

theorem equalValue_iff_alike {v w : Value ConfigElement}
    (left : ∀ e, v = .element e → Keyed e) (right : ∀ c, w = .element c → Keyed c) :
    equalValue v w = true ↔ AlikeValue v w := by
  constructor
  · intro equal
    cases v with
    | null =>
      cases w with
      | null => exact .null
      | _ => simp [equalValue] at equal
    | object a =>
      cases w with
      | object b =>
        rw [equalValue] at equal
        exact .object equal
      | _ => simp [equalValue] at equal
    | element e =>
      cases w with
      | element c =>
        rw [equalValue] at equal
        exact .element ⟨left e rfl, right c rfl, equal⟩
      | _ => simp [equalValue] at equal
  · intro alike
    cases alike with
    | null => rw [equalValue]
    | object same =>
      rw [equalValue]
      exact same
    | element same =>
      rw [equalValue]
      exact same.2.2

theorem Keyed.equals_iff {e c : ConfigElement} (left : Keyed e) (right : Keyed c) :
    e.equals c = true ↔ e.mName = c.mName ∧ e.mDefinition.equals c.mDefinition = true ∧
      Related (List.Forall₂ AlikeValue) e.mProps c.mProps := by
  obtain ⟨distinct, embedded⟩ := left
  obtain ⟨distinct', embedded'⟩ := right
  have values (p : String × List (Value ConfigElement)) (here : p ∈ e.mProps)
      (ws : List (Value ConfigElement)) (there : c.mProps.lookup p.1 = some ws) :
      equalValues p.2 ws = true ↔ List.Forall₂ AlikeValue p.2 ws := by
    rw [equalValues_iff]
    apply forall₂_congr_mem
    intro v inLeft w inRight
    apply equalValue_iff_alike
    · rintro d rfl
      exact embedded p here d inLeft
    · rintro d rfl
      exact embedded' _ (mem_of_lookup there) d inRight
  rw [Related, ← rel_lookup_iff distinct distinct']
  cases e with
  | mk mName mDefinition mProps =>
    rw [ConfigElement.equals, Bool.and_eq_true, Bool.and_eq_true, Bool.and_eq_true,
      decide_eq_true_iff, decide_eq_true_iff, equalProps_iff, and_assoc]
    refine and_congr_right fun _ => and_congr_right fun _ => and_congr_right fun _ => ?_
    refine forall₂_congr fun p here => exists_congr fun ws => and_congr_right fun there => ?_
    exact values p here ws there

theorem keyed_of_related {R : Value ConfigElement → Value ConfigElement → Prop}
    {e : ConfigElement} {m : List (String × List (Value ConfigElement))}
    (distinct : (e.mProps.map Prod.fst).Nodup) (related : Related (List.Forall₂ R) e.mProps m)
    (keyed : ∀ c w, R (.element c) w → Keyed c) : Keyed e := by
  refine .mk distinct fun p here c inValues => ?_
  obtain ⟨ws, -, values⟩ := related.exists_of_mem distinct here
  obtain ⟨w, -, value⟩ := exists_right_of_forall₂ values inValues
  exact keyed c w value

theorem alike_iff {e c : ConfigElement} : Alike e c ↔ e.mName = c.mName ∧
    e.mDefinition.equals c.mDefinition = true ∧
      Matched (List.Forall₂ AlikeValue) e.mProps c.mProps := by
  constructor
  · rintro ⟨left, right, equal⟩
    obtain ⟨name, definitions, values⟩ := (left.equals_iff right).mp equal
    exact ⟨name, definitions, left.distinct, right.distinct, values⟩
  · rintro ⟨name, definitions, matched⟩
    have left : Keyed e := by
      apply keyed_of_related matched.left matched.related
      intro d w same
      cases same with
      | element same => exact same.1
    have right : Keyed c := by
      apply keyed_of_related matched.right (related_symm (fun _ _ => List.Forall₂.flip)
        matched.related)
      intro d w same
      cases same with
      | element same => exact same.2.1
    exact ⟨left, right, (left.equals_iff right).mpr ⟨name, definitions, matched.related⟩⟩

/-! ## Reflexivity and symmetry -/

theorem alikeValue_self {v : Value ConfigElement} (embedded : ∀ c, v = .element c → Alike c c) :
    AlikeValue v v := by
  cases v with
  | null => exact .null
  | object v => exact .object v.value.equals_self
  | element c => exact .element (embedded c rfl)

theorem Keyed.alike_self {e : ConfigElement} (keyed : Keyed e) : Alike e e := by
  induction keyed with
  | @mk e distinct embedded ih =>
    refine alike_iff.mpr ⟨rfl, e.mDefinition.equals_self, distinct, distinct, fun token => ?_⟩
    cases here : e.mProps.lookup token with
    | none => exact .none
    | some values =>
      refine .some (forall₂_refl fun v member => alikeValue_self ?_)
      rintro c rfl
      exact ih _ (mem_of_lookup here) c member

theorem Keyed.values_self {e : ConfigElement} (keyed : Keyed e)
    {p : String × List (Value ConfigElement)} (here : p ∈ e.mProps) :
    ∀ v ∈ p.2, AlikeValue v v := by
  obtain ⟨-, embedded⟩ := keyed
  intro v member
  apply alikeValue_self
  rintro c rfl
  exact (embedded p here c member).alike_self

/-- What an element is compared with, it is compared with value by value. -/
theorem Keyed.tells_props {e : ConfigElement} (keyed : Keyed e)
    {S : Value ConfigElement → Value ConfigElement → Prop} :
    Tells (Matched (List.Forall₂ AlikeValue)) (Related (List.Forall₂ S)) e.mProps ↔
      ∀ p ∈ e.mProps, ∀ v ∈ p.2, Tells AlikeValue S v := by
  rw [tells_matched keyed.distinct fun p here => forall₂_refl (keyed.values_self here)]
  exact forall₂_congr fun p here => tells_forall₂ (keyed.values_self here)

theorem Keyed.alike_symm {e : ConfigElement} (keyed : Keyed e) :
    Tells Alike (fun e c => Alike c e) e := by
  have whole := keyed
  induction keyed with
  | @mk e distinct embedded ih =>
    have values : ∀ p ∈ e.mProps, ∀ v ∈ p.2, Tells AlikeValue (fun v w => AlikeValue w v) v := by
      intro p here v member w alike
      cases alike with
      | null => exact .null
      | object same => exact .object (by rwa [Decides, simple_equals_symm])
      | element same => exact .element (ih p here _ member (embedded p here _ member) _ same)
    intro c alike
    obtain ⟨name, definitions, matched⟩ := alike_iff.mp alike
    have back := whole.tells_props.mpr values _ matched
    exact alike_iff.mpr ⟨name.symm, definition_equals_symm definitions, matched.right,
      matched.left, related_symm (fun _ _ => List.Forall₂.flip) back⟩

theorem Keyed.equals_symm {e c : ConfigElement} (left : Keyed e) (right : Keyed c) :
    e.equals c = c.equals e := by
  rw [Bool.eq_iff_iff]
  constructor
  · intro equal
    exact (left.alike_symm c ⟨left, right, equal⟩).2.2
  · intro equal
    exact (right.alike_symm e ⟨right, left, equal⟩).2.2

/-! ## Transitivity -/

section

variable {O : SimpleValue → SimpleValue → Prop} {R : ConfigElement → ConfigElement → Prop}

theorem through_null : Through (ValueBy O R) .null := by
  intro a c left right
  cases left
  cases right
  exact .null

theorem through_object {v : ValueObject} :
    Through (ValueBy O R) (.object v) ↔ Through O v.value := by
  constructor
  · intro through a c left right
    have both := through (.object ⟨0, a⟩) (.object ⟨0, c⟩) (.object left) (.object right)
    cases both with
    | object same => exact same
  · intro through a c left right
    cases left with
    | object left =>
      cases right with
      | object right => exact .object (through _ _ left right)

theorem through_element {e : ConfigElement} :
    Through (ValueBy O R) (.element e) ↔ Through R e := by
  constructor
  · intro through a c left right
    have both := through (.element a) (.element c) (.element left) (.element right)
    cases both with
    | element same => exact same
  · intro through a c left right
    cases left with
    | element left =>
      cases right with
      | element right => exact .element (through _ _ left right)

end

theorem Keyed.through_iff {e : ConfigElement} (keyed : Keyed e) : Through Alike e ↔
    DefaultsSet e.mDefinition ∧ ∀ p ∈ e.mProps, ∀ v ∈ p.2, Through AlikeValue v := by
  have parts : Through Alike e ↔ Through
      (fun p q : ConfigDefinition × List (String × List (Value ConfigElement)) =>
        Decides ConfigDefinition.equals p.1 q.1 ∧ Matched (List.Forall₂ AlikeValue) p.2 q.2)
      (e.mDefinition, e.mProps) :=
    through_part ConfigElement.mName (fun e => (e.mDefinition, e.mProps))
      (fun p => ⟨e.mName, p.1, p.2⟩) (fun _ _ => alike_iff) (fun _ => rfl) (fun _ => rfl)
  have values : ∀ p ∈ e.mProps, List.Forall₂ AlikeValue p.2 p.2 :=
    fun p here => forall₂_refl (keyed.values_self here)
  rw [parts, through_prod e.mDefinition.equals_self (alike_iff.mp keyed.alike_self).2.2,
    through_definition, through_matched keyed.distinct values]
  apply and_congr_right
  intro _
  exact forall₂_congr fun p here => through_forall₂ (keyed.values_self here)

theorem complete_iff {e : ConfigElement} : Complete e ↔ DefaultsSet e.mDefinition ∧
    (∀ p ∈ e.mProps, ∀ v : ValueObject, .object v ∈ p.2 → v.value ≠ .pointer none) ∧
      ∀ p ∈ e.mProps, ∀ c : ConfigElement, .element c ∈ p.2 → Complete c := by
  constructor
  · rintro ⟨defaults, targets, embedded⟩
    exact ⟨defaults, targets, embedded⟩
  · rintro ⟨defaults, targets, embedded⟩
    exact .mk defaults targets embedded

/-- Elements are compared through those that are complete, at every depth. -/
theorem Keyed.through_alike {e : ConfigElement} (keyed : Keyed e) :
    Through Alike e ↔ Complete e := by
  have whole := keyed
  induction keyed with
  | @mk e distinct embedded ih =>
    rw [whole.through_iff, complete_iff]
    apply and_congr_right
    intro _
    constructor
    · intro through
      constructor
      · intro p here v member
        exact through_simple.mp (through_object.mp (through p here _ member))
      · intro p here c member
        have here' := embedded p here c member
        exact (ih p here c member here').mp (through_element.mp (through p here _ member))
    · rintro ⟨targets, complete⟩ p here v member
      cases v with
      | null => exact through_null
      | object v => exact through_object.mpr (through_simple.mpr (targets p here v member))
      | element c =>
        have here' := embedded p here c member
        exact through_element.mpr ((ih p here c member here').mpr (complete p here c member))

/-! ## The element that is found -/

theorem pointerFree_iff {e : ConfigElement} : PointerFree e ↔
    (∀ p ∈ e.mProps, ∀ v : ValueObject, .object v ∈ p.2 → ∀ mTarget, v.value ≠ .pointer mTarget) ∧
      ∀ p ∈ e.mProps, ∀ c : ConfigElement, .element c ∈ p.2 → PointerFree c := by
  constructor
  · rintro ⟨values, embedded⟩
    exact ⟨values, embedded⟩
  · rintro ⟨values, embedded⟩
    exact .mk values embedded

theorem Keyed.tells_succ {e : ConfigElement} (keyed : Keyed e) {depth : Nat} :
    Tells Alike (ValuesTo (depth + 1)) e ↔
      ∀ p ∈ e.mProps, ∀ v ∈ p.2, Tells AlikeValue (ValueBy Eq (ValuesTo depth)) v := by
  rw [← keyed.tells_props]
  constructor
  · intro tells m matched
    have alike : Alike e { e with mProps := m } :=
      alike_iff.mpr ⟨rfl, e.mDefinition.equals_self, matched⟩
    exact (tells _ alike).2
  · intro tells c alike
    obtain ⟨name, -, matched⟩ := alike_iff.mp alike
    exact ⟨name, tells _ matched⟩

section

variable {O P : SimpleValue → SimpleValue → Prop} {R S : ConfigElement → ConfigElement → Prop}

theorem tells_null : Tells (ValueBy O R) (ValueBy P S) .null := by
  intro c right
  cases right
  exact .null

theorem tells_object {v : ValueObject} :
    Tells (ValueBy O R) (ValueBy P S) (.object v) ↔ Tells O P v.value := by
  constructor
  · intro tells c right
    have there := tells (.object ⟨0, c⟩) (.object right)
    cases there with
    | object same => exact same
  · intro tells c right
    cases right with
    | object right => exact .object (tells _ right)

theorem tells_element {e : ConfigElement} :
    Tells (ValueBy O R) (ValueBy P S) (.element e) ↔ Tells R S e := by
  constructor
  · intro tells c right
    have there := tells (.element c) (.element right)
    cases there with
    | element same => exact same
  · intro tells c right
    cases right with
    | element right => exact .element (tells _ right)

end

theorem Keyed.tells_values {e : ConfigElement} (keyed : Keyed e) :
    (∀ depth, Tells Alike (ValuesTo depth) e) ↔ PointerFree e := by
  have whole := keyed
  induction keyed with
  | @mk e distinct embedded ih =>
    rw [pointerFree_iff]
    constructor
    · intro tells
      constructor
      · intro p here v member
        have first := whole.tells_succ.mp (tells 1) p here _ member
        exact tells_simple.mp (tells_object.mp first)
      · intro p here c member
        apply (ih p here c member (embedded p here c member)).mp
        intro depth
        exact tells_element.mp (whole.tells_succ.mp (tells (depth + 1)) p here _ member)
    · rintro ⟨values, free⟩ depth
      cases depth with
      | zero => exact fun _ _ => trivial
      | succ depth =>
        rw [whole.tells_succ]
        intro p here v member
        cases v with
        | null => exact tells_null
        | object v => exact tells_object.mpr (tells_simple.mpr (values p here v member))
        | element c =>
          have all := (ih p here c member (embedded p here c member)).mpr (free p here c member)
          exact tells_element.mpr (all depth)

/-- What equals an element has its values where no value is a pointer. -/
theorem Keyed.tells_same {e : ConfigElement} (keyed : Keyed e) :
    Tells Alike SameValues e ↔ PointerFree e := by
  rw [← keyed.tells_values]
  constructor
  · intro tells depth c alike
    exact tells c alike depth
  · intro tells c alike depth
    exact tells depth c alike

section

variable {e : ConfigElement} {config left : Configuration} {source rest : DataSource}

theorem contains_iff : config.contains e = true ↔ ∃ c ∈ config.mElements, e.equals c = true :=
  List.any_eq_true

theorem removed_of_removeElement (removed : config.removeElement e = .ok left) :
    ∃ before c after, config.mElements = before ++ c :: after ∧
      left.mElements = before ++ after ∧ e.equals c = true := by
  rw [Configuration.removeElement] at removed
  split at removed
  next present =>
    obtain ⟨c, member, equal⟩ := contains_iff.mp present
    obtain ⟨c, before, after, -, equal, elements, erased⟩ := List.exists_of_eraseP member equal
    cases removed
    exact ⟨before, c, after, elements, erased, equal⟩
  next => cases removed

theorem removeElement_of_remove (removed : source.remove e = .ok rest) :
    source.mConfig.removeElement e = .ok rest.mConfig := by
  rw [DataSource.remove] at removed
  split at removed
  · cases removed
  · split at removed
    next mConfig given =>
      cases removed
      exact given
    next => cases removed

/-- The configuration of one element. -/
def Configuration.single (c : ConfigElement) : Configuration :=
  { Configuration.new "" with mElements := [c] }

end

/-- What is found is what the element equals. -/
theorem tells_of_contains {e : ConfigElement}
    (contains : ∀ config : Configuration, (∀ c ∈ config.mElements, Keyed c) →
      config.contains e = true → ∃ c ∈ config.mElements, SameValues e c) :
    Tells Alike SameValues e := by
  rintro c ⟨-, right, equal⟩
  have found := contains (Configuration.single c) (by simpa [Configuration.single] using right)
    (contains_iff.mpr ⟨c, by simp [Configuration.single], equal⟩)
  simpa [Configuration.single] using found

theorem Keyed.removeElement_of_tells {e : ConfigElement} (keyed : Keyed e)
    (tells : Tells Alike SameValues e) {config left : Configuration}
    (all : ∀ c ∈ config.mElements, Keyed c) (removed : config.removeElement e = .ok left) :
    Without e config.mElements left.mElements := by
  obtain ⟨before, c, after, elements, others, equal⟩ := removed_of_removeElement removed
  have right : Keyed c := all c (by simp [elements])
  exact ⟨before, c, after, elements, others, tells c ⟨keyed, right, equal⟩⟩

theorem Keyed.contains_of_tells {e : ConfigElement} (keyed : Keyed e)
    (tells : Tells Alike SameValues e) {config : Configuration}
    (all : ∀ c ∈ config.mElements, Keyed c) (found : config.contains e = true) :
    ∃ c ∈ config.mElements, SameValues e c := by
  obtain ⟨c, member, equal⟩ := contains_iff.mp found
  exact ⟨c, member, tells c ⟨keyed, all c member, equal⟩⟩

/-- All holds of an element exactly when its definitions have their defaults and none of its
values, at any depth, is a pointer. -/
theorem equalsWell_iff {e : ConfigElement} (keyed : Keyed e) :
    EqualsWell e ↔ Complete e ∧ PointerFree e := by
  rw [← keyed.through_alike, ← keyed.tells_same]
  constructor
  · intro well
    constructor
    · rintro a c ⟨left, -, before⟩ ⟨-, right, after⟩
      exact ⟨left, right, well.trans a c left right before after⟩
    · exact tells_of_contains well.contains
  · rintro ⟨through, tells⟩
    constructor
    case refl => exact keyed.alike_self.2.2
    case symm => exact fun c right => keyed.equals_symm right
    case trans =>
      intro a c left right before after
      exact (through a c ⟨left, keyed, before⟩ ⟨keyed, right, after⟩).2.2
    case contains => exact fun _ => keyed.contains_of_tells tells
    case removeElement => exact fun _ _ => keyed.removeElement_of_tells tells
    case containsSource => exact fun _ => keyed.contains_of_tells tells
    case removeSource =>
      intro source rest all removed
      exact keyed.removeElement_of_tells tells all (removeElement_of_remove removed)

/-- A view names a display. -/
def viewDefinition : ConfigDefinition where
  mName := "View"
  mToken := "view"
  mIconLocation := ""
  mVersion := 1
  mIsAbstract := false
  mParents := []
  mHelp := ""
  mCategories := []
  mPropertyDefs :=
    [{ mToken := "display"
       mType := .configElementPointer
       mHelp := ""
       mPropValueDefs := [⟨"Display", some (.pointer (some ""))⟩]
       mEditableEnum := false
       mEnums := .empty
       mAllowedTypes := ["display_window"]
       mVariable := false }]
  mXsltElement := none

def viewOf (mTarget : Option String) : ConfigElement :=
  ⟨"view", viewDefinition, [("display", [.object ⟨0, .pointer mTarget⟩])]⟩

theorem keyed_viewOf (mTarget : Option String) : Keyed (viewOf mTarget) := by
  constructor
  · simp [viewOf]
  · intro p here c member
    simp only [viewOf, List.mem_singleton] at here
    subst here
    simp at member

theorem viewOf_equals (mTarget target : Option String) :
    (viewOf mTarget).equals (viewOf target) =
      SimpleValue.equals (.pointer mTarget) (.pointer target) := by
  simp [viewOf, ConfigElement.equals, equalProps, equalProp, equalValues, equalValue,
    ConfigDefinition.equals_self]

theorem equalsWell_view :
    EqualsWell (viewOf (some "wall")) ↔
      Complete (viewOf (some "wall")) ∧ PointerFree (viewOf (some "wall")) :=
  equalsWell_iff (keyed_viewOf (some "wall"))

/-- Views of different displays both equal the view of none. -/
theorem equals_not_transitive : ¬ ∀ e, Keyed e → EqualsWell e := by
  intro all
  have well := all (viewOf none) (keyed_viewOf none)
  have equal := well.trans (viewOf (some "wall")) (viewOf (some "floor"))
    (keyed_viewOf (some "wall")) (keyed_viewOf (some "floor"))
  simp [viewOf_equals, SimpleValue.equals] at equal

end VRJuggler.ConfigIo
