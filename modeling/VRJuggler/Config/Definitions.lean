import Mathlib.Data.String.Basic
import VRJuggler.Base.Hierarchy
import VRJuggler.Base.Lists
import VRJuggler.Base.SortedMap

/-!
# Definitions of configuration elements

A definition names its parents, which are looked up in the repository: the newest version of
the name is meant. A name need not be in the repository.
-/
namespace VRJuggler.Config

/-! ## Values -/

/-- The class of the values of a property. -/
inductive ValueType where
  | boolean
  | integer
  | float
  | string
  | configElement
  | configElementPointer
  deriving DecidableEq

inductive SimpleValue where
  | boolean (value : Bool)
  | integer (value : Int)
  | float (bits : Nat)
  | string (value : String)
  /-- A `ConfigElementPointer`. Its target may be `null`. -/
  | pointer (mTarget : Option String)
  deriving DecidableEq

namespace SimpleValue

/-- A pointer without target equals every pointer. -/
def equals : SimpleValue → SimpleValue → Bool
  | .pointer (some mTarget), .pointer (some other) => mTarget = other
  | .pointer _, .pointer _ => true
  | value, other => value = other

theorem equals_self (value : SimpleValue) : value.equals value = true := by
  cases value with
  | pointer mTarget =>
    cases mTarget with
    | none => rfl
    | some mTarget => exact decide_eq_true rfl
  | _ => exact decide_eq_true rfl

/-- A value that is no pointer equals itself alone. -/
theorem equals_iff_eq {v w : SimpleValue} (value : ∀ mTarget, w ≠ .pointer mTarget) :
    v.equals w = true ↔ v = w := by
  cases w with
  | pointer mTarget => exact absurd rfl (value mTarget)
  | boolean b => cases v <;> simp [equals]
  | integer n => cases v <;> simp [equals]
  | float bits => cases v <;> simp [equals]
  | string text => cases v <;> simp [equals]

end SimpleValue

/-- The operator `==` tells two objects apart, even if one `equals` the other. -/
structure ValueObject where
  identity : Nat
  value : SimpleValue
  deriving DecidableEq

/-! ## Properties -/

structure PropertyValueDefinition where
  mLabel : String
  mDefaultValue : Option SimpleValue
  deriving DecidableEq

/-- A default value that is missing equals every other. -/
def PropertyValueDefinition.equals (value other : PropertyValueDefinition) : Bool :=
  value.mLabel = other.mLabel &&
    match value.mDefaultValue, other.mDefaultValue with
    | some mDefaultValue, some other => mDefaultValue.equals other
    | _, _ => true

/-- The values of an enumeration are under their labels. One of an embedded element is `null`. -/
structure PropertyDefinition where
  mToken : String
  mType : ValueType
  mHelp : String
  mPropValueDefs : List PropertyValueDefinition
  mEditableEnum : Bool
  mEnums : SortedMap String (Option ValueObject)
  mAllowedTypes : List String
  mVariable : Bool

namespace PropertyDefinition

/-- The enumeration, the allowed types and whether the enumeration can be edited are not
compared. -/
def equals (definition d : PropertyDefinition) : Bool :=
  definition.mToken = d.mToken && definition.mType = d.mType && definition.mHelp = d.mHelp &&
    equalLists PropertyValueDefinition.equals definition.mPropValueDefs d.mPropValueDefs &&
    definition.mVariable = d.mVariable

theorem equals_self (definition : PropertyDefinition) : definition.equals definition = true := by
  have values : equalLists PropertyValueDefinition.equals definition.mPropValueDefs
      definition.mPropValueDefs = true := by
    apply equalLists_self
    intro value
    rw [PropertyValueDefinition.equals, decide_eq_true rfl, Bool.true_and]
    cases value.mDefaultValue with
    | none => rfl
    | some mDefaultValue => exact mDefaultValue.equals_self
  simp only [equals, values, decide_true, Bool.and_self]

theorem token_of_equals {definition d : PropertyDefinition} (equal : definition.equals d = true) :
    definition.mToken = d.mToken := by
  simp only [equals, Bool.and_eq_true, decide_eq_true_eq] at equal
  exact equal.1.1.1.1

end PropertyDefinition

/-! ## Definitions -/

/-- A reference stands for the XML element of the transform. -/
structure ConfigDefinition where
  mName : String
  mToken : String
  mIconLocation : String
  mVersion : Int
  mIsAbstract : Bool
  mParents : List String
  mHelp : String
  mCategories : List String
  mPropertyDefs : List PropertyDefinition
  mXsltElement : Option Nat

/-- The transform is not compared. -/
def ConfigDefinition.equals (definition d : ConfigDefinition) : Bool :=
  definition.mName = d.mName && definition.mToken = d.mToken &&
    definition.mIconLocation = d.mIconLocation && definition.mVersion = d.mVersion &&
    definition.mIsAbstract = d.mIsAbstract && definition.mCategories = d.mCategories &&
    definition.mHelp = d.mHelp && definition.mParents = d.mParents &&
    equalLists PropertyDefinition.equals definition.mPropertyDefs d.mPropertyDefs

theorem ConfigDefinition.equals_self (definition : ConfigDefinition) :
    definition.equals definition = true := by
  simp only [equals, equalLists_self PropertyDefinition.equals_self, decide_true, Bool.and_self]

theorem ConfigDefinition.token_of_equals {definition d : ConfigDefinition}
    (equal : definition.equals d = true) : definition.mToken = d.mToken := by
  simp only [equals, Bool.and_eq_true, decide_eq_true_eq] at equal
  exact equal.1.1.1.1.1.1.1.2

/-! ## The repository -/

/-- Each definition is under its token and its version, and each token has a version. -/
structure ConfigDefinitionRepository where
  mDefs : SortedMap String (SortedMap Int ConfigDefinition)
  present : ∀ token version_map, mDefs.find token = some version_map → version_map.keys ≠ []
  filed : ∀ token version_map version def_, mDefs.find token = some version_map →
    version_map.find version = some def_ → def_.mToken = token ∧ def_.mVersion = version

namespace ConfigDefinitionRepository

def empty : ConfigDefinitionRepository where
  mDefs := SortedMap.empty
  present _ _ found := by cases found
  filed _ _ _ _ found := by cases found

variable (repos : ConfigDefinitionRepository)

def versions (token : String) : SortedMap Int ConfigDefinition :=
  (repos.mDefs.find token).getD SortedMap.empty

theorem filed_versions {token : String} {version : Int} {d : ConfigDefinition}
    (found : (repos.versions token).find version = some d) :
    d.mToken = token ∧ d.mVersion = version := by
  rw [versions] at found
  cases here : repos.mDefs.find token with
  | none =>
    rw [here] at found
    cases found
  | some version_map =>
    rw [here] at found
    exact repos.filed token version_map version d here found

/-- A definition replaces one of the same token and version. -/
def add (d : ConfigDefinition) : ConfigDefinitionRepository where
  mDefs := repos.mDefs.insert d.mToken ((repos.versions d.mToken).insert d.mVersion d)
  present token version_map found := by
    by_cases same : token = d.mToken
    · rw [same, SortedMap.find_insert_self] at found
      obtain rfl := Option.some.inj found
      intro none
      have member : d.mVersion ∈ ((repos.versions d.mToken).insert d.mVersion d).keys := by
        rw [SortedMap.mem_keys_iff, SortedMap.find_insert_self]
        rfl
      rw [none] at member
      cases member
    · rw [SortedMap.find_insert_of_ne _ _ same] at found
      exact repos.present token version_map found
  filed token version_map version e found here := by
    by_cases same : token = d.mToken
    · rw [same, SortedMap.find_insert_self] at found
      obtain rfl := Option.some.inj found
      by_cases this : version = d.mVersion
      · rw [this, SortedMap.find_insert_self] at here
        obtain rfl := Option.some.inj here
        exact ⟨same.symm, this.symm⟩
      · rw [SortedMap.find_insert_of_ne _ _ this] at here
        rw [same]
        exact repos.filed_versions here
    · rw [SortedMap.find_insert_of_ne _ _ same] at found
      exact repos.filed token version_map version e found here

/-- A repository with these definitions. -/
def load (defs : List ConfigDefinition) : ConfigDefinitionRepository :=
  defs.foldl add empty

/-- `none`: a `DefinitionLookupException`. -/
def getNewestVersionNumber (token : String) : Option Int :=
  (repos.mDefs.find token).bind fun version_map => version_map.keys.max?

/-- The newest version. -/
def get (token : String) : Option ConfigDefinition :=
  (repos.getNewestVersionNumber token).bind fun latest_version =>
    (repos.versions token).find latest_version

def getVersion (token : String) (version : Int) : Option ConfigDefinition :=
  (repos.versions token).find version

def getAllLatest : List ConfigDefinition := repos.mDefs.keys.filterMap repos.get

/-- The parents of definitions, and what their names stand for. -/
def hierarchy : Hierarchy String ConfigDefinition where
  parents d := d.mParents
  get := repos.get

variable {repos}

theorem token_of_get {token : String} {d : ConfigDefinition} (found : repos.get token = some d) :
    d.mToken = token := by
  obtain ⟨latest_version, -, here⟩ := Option.bind_eq_some_iff.mp found
  exact (repos.filed_versions here).1

/-- The newest version is under its number. -/
theorem newest_of_get {token : String} {d : ConfigDefinition} (found : repos.get token = some d) :
    repos.getNewestVersionNumber token = some d.mVersion ∧
      repos.getVersion token d.mVersion = some d := by
  obtain ⟨latest_version, newest, here⟩ := Option.bind_eq_some_iff.mp found
  obtain rfl := (repos.filed_versions here).2
  exact ⟨newest, here⟩

/-- What is in the repository has a newest version. -/
theorem mem_keys_of_get {token : String} {d : ConfigDefinition} (found : repos.get token = some d) :
    token ∈ repos.mDefs.keys := by
  obtain ⟨latest_version, newest, -⟩ := Option.bind_eq_some_iff.mp found
  obtain ⟨version_map, here, -⟩ := Option.bind_eq_some_iff.mp newest
  rw [SortedMap.mem_keys_iff, here]
  rfl

theorem mem_getAllLatest {d : ConfigDefinition} :
    d ∈ repos.getAllLatest ↔ repos.get d.mToken = some d := by
  rw [getAllLatest, List.mem_filterMap]
  constructor
  · rintro ⟨token, -, found⟩
    rw [token_of_get found, found]
  · intro found
    exact ⟨d.mToken, mem_keys_of_get found, found⟩

/-- No token is listed twice. -/
theorem nodup_getAllLatest : (repos.getAllLatest.map (·.mToken)).Nodup := by
  have sub : (repos.getAllLatest.map (·.mToken)).Sublist repos.mDefs.keys := by
    rw [getAllLatest]
    generalize repos.mDefs.keys = keys
    induction keys with
    | nil => exact List.Sublist.slnil
    | cons token rest ih =>
      cases found : repos.get token with
      | none =>
        rw [List.filterMap_cons_none found]
        exact ih.cons token
      | some d =>
        rw [List.filterMap_cons_some found, List.map_cons, token_of_get found]
        exact ih.cons_cons token
  exact repos.mDefs.nodup_keys.sublist sub

theorem wellFounded_parent (acyclic : repos.hierarchy.Acyclic) :
    WellFounded repos.hierarchy.Parent := by
  refine Hierarchy.wellFounded_parent acyclic fun token known => (?_ : token ∈ repos.mDefs.keys)
  obtain ⟨d, found⟩ := Option.isSome_iff_exists.mp known
  exact mem_keys_of_get found

/-- A repository where each definition has a higher rank than its parents. -/
theorem acyclic_of_latest (rank : String → Nat)
    (lower : ∀ d ∈ repos.getAllLatest, ∀ q ∈ d.mParents, rank q < rank d.mToken) :
    repos.hierarchy.Acyclic := by
  apply Hierarchy.acyclic_of_rank rank
  intro p d found q member _
  have token := token_of_get found
  rw [← token]
  refine lower d (mem_getAllLatest.mpr ?_) q member
  rw [token]
  exact found

end ConfigDefinitionRepository

/-- A property with one value. -/
def textProperty (token help : String) : PropertyDefinition where
  mToken := token
  mType := .string
  mHelp := help
  mPropValueDefs := [{ mLabel := "Value", mDefaultValue := some (.string "") }]
  mEditableEnum := false
  mEnums := SortedMap.empty
  mAllowedTypes := []
  mVariable := false

/-- The first version of a definition. -/
def deviceDefinition (token : String) (parents : List String)
    (properties : List PropertyDefinition) : ConfigDefinition where
  mName := token
  mToken := token
  mIconLocation := ""
  mVersion := 1
  mIsAbstract := false
  mParents := parents
  mHelp := ""
  mCategories := ["/Devices"]
  mPropertyDefs := properties
  mXsltElement := none

end VRJuggler.Config
