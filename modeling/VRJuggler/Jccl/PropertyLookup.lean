import Mathlib.Data.List.Basic
import VRJuggler.Jccl.ParentSearch

/-!
# The properties of element definitions

`jccl::ConfigDefinition` looks for one property by its token, in its own node before those of
its parents, and lists all properties, those of its parents first. The two are compared on
repositories without cycles.
-/
namespace VRJuggler.Jccl

/-! ## Definitions with their properties -/

/-- An element inside the node of a definition, other than `parent`. -/
structure Child where
  name : String
  attributes : List (String × String)
  deriving DecidableEq

namespace Child

/-- `cppdom::HasAttributeValuePredicate` for the attribute of a property's token. -/
def hasToken (child : Child) (token : String) : Bool :=
  child.attributes.lookup "name" == some token

def getToken (child : Child) : String := (child.attributes.lookup "name").getD ""

def isProperty (child : Child) : Bool := child.name == "property"

end Child

/-- By the schema of definition files exactly the properties have a `name`. -/
structure Definition extends ConfigDefinition where
  children : List Child
  named : ∀ child ∈ children, child.isProperty ↔ (child.attributes.lookup "name").isSome
  deriving DecidableEq

namespace Definition

/-- The child that a definition has under the token itself. -/
def own (d : Definition) (token : String) : Option Child :=
  d.children.find? (·.hasToken token)

def properties (d : Definition) : List Child := d.children.filter Child.isProperty

end Definition

structure DefinitionRepository where
  mDefs : SortedMap String Definition

namespace DefinitionRepository

variable (repository : DefinitionRepository)

def get (token : String) : Option Definition := repository.mDefs.find token

def add (newDef : Definition) : DefinitionRepository :=
  match repository.get newDef.mToken with
  | some old_def =>
    if old_def.version < newDef.version then ⟨repository.mDefs.insert newDef.mToken newDef⟩
    else repository
  | none => ⟨repository.mDefs.insert newDef.mToken newDef⟩

def load (defs : List Definition) : DefinitionRepository := defs.foldl add ⟨SortedMap.empty⟩

/-- The repository as `isParent` sees it. -/
def forget : ConfigDefinitionRepository := ⟨repository.mDefs.map Definition.toConfigDefinition⟩

def hierarchy : Hierarchy String Definition where
  parents d := d.parents.filter (· ≠ "")
  get := repository.get

/-- The definitions that the parents stand for, in order. -/
def resolved (d : Definition) : List Definition :=
  (d.parents.filter (· ≠ "")).filterMap repository.get

end DefinitionRepository

/-! ## The look-ups -/

section Lookups

variable (repository : DefinitionRepository)

/-- The loop of `getPropertyDefinition` over the parents. -/
def searchParents (call : Definition → Option (Option Child)) :
    List String → Option (Option Child)
  | [] => some none
  | p_name :: rest =>
    if p_name = "" then searchParents call rest
    else
      match repository.get p_name with
      | some parent_def => (call parent_def).bind fun prop_def =>
          prop_def.elim (searchParents call rest) fun found => some (some found)
      | none => searchParents call rest

/-- `depth` calls fit on the stack. The assertion that no two properties have the same token is
left out. -/
def getPropertyDefinition : Nat → Definition → String → Option (Option Child)
  | 0, _, _ => none
  | depth + 1, d, token =>
    match d.own token with
    | some prop_def => some (some prop_def)
    | none => searchParents repository (getPropertyDefinition depth · token) d.parents

/-- The loop of `getAllPropertyDefinitions` over the parents. -/
def collectParents (call : Definition → Option (List Child)) : List String → Option (List Child)
  | [] => some []
  | p_name :: rest =>
    if p_name = "" then collectParents call rest
    else
      match repository.get p_name with
      | some parent_def => (call parent_def).bind fun parent_props =>
          (collectParents call rest).map fun others => parent_props ++ others
      | none => collectParents call rest

def getAllPropertyDefinitions : Nat → Definition → Option (List Child)
  | 0, _ => none
  | depth + 1, d =>
    (collectParents repository (getAllPropertyDefinitions depth) d.parents).map fun inherited =>
      inherited ++ d.properties

end Lookups

/-! ## The look-ups on the definitions that the parents stand for -/

/-- The first property that a call finds. -/
def firstFound (call : Definition → Option (Option Child)) :
    List Definition → Option (Option Child)
  | [] => some none
  | e :: rest => (call e).bind fun prop_def =>
      prop_def.elim (firstFound call rest) fun found => some (some found)

section

variable {repository : DefinitionRepository}

theorem searchParents_eq (call : Definition → Option (Option Child)) (names : List String) :
    searchParents repository call names =
      firstFound call ((names.filter (· ≠ "")).filterMap repository.get) := by
  induction names with
  | nil => rfl
  | cons p_name rest ih =>
    rw [searchParents]
    by_cases empty : p_name = ""
    · rw [if_pos empty, ih, List.filter_cons_of_neg (by simpa using empty)]
    · rw [if_neg empty, List.filter_cons_of_pos (by simpa using empty)]
      cases found : repository.get p_name with
      | none => rw [List.filterMap_cons_none found, ih]
      | some parent_def => rw [List.filterMap_cons_some found, firstFound, ih]

theorem collectParents_eq (call : Definition → Option (List Child)) (names : List String) :
    collectParents repository call names =
      (((names.filter (· ≠ "")).filterMap repository.get).mapM call).map List.flatten := by
  induction names with
  | nil => rfl
  | cons p_name rest ih =>
    rw [collectParents]
    by_cases empty : p_name = ""
    · rw [if_pos empty, ih, List.filter_cons_of_neg (by simpa using empty)]
    · rw [if_neg empty, List.filter_cons_of_pos (by simpa using empty)]
      cases found : repository.get p_name with
      | none => rw [List.filterMap_cons_none found, ih]
      | some parent_def =>
        rw [List.filterMap_cons_some found, ih, List.mapM_cons]
        dsimp only
        cases call parent_def with
        | none => simp
        | some props =>
          cases ((rest.filter (· ≠ "")).filterMap repository.get).mapM call <;> simp

theorem mem_resolved {d e : Definition} :
    e ∈ repository.resolved d ↔ repository.hierarchy.Parent e d := by
  simp [DefinitionRepository.resolved, Hierarchy.Parent, DefinitionRepository.hierarchy]

theorem wellFounded_parent (acyclic : repository.hierarchy.Acyclic) :
    WellFounded repository.hierarchy.Parent :=
  Hierarchy.wellFounded_parent acyclic fun p => (SortedMap.mem_keys_iff _ p).mpr

theorem getPropertyDefinition_succ (depth : Nat) (d : Definition) (token : String) :
    getPropertyDefinition repository (depth + 1) d token =
      (d.own token).elim
        (firstFound (getPropertyDefinition repository depth · token) (repository.resolved d))
        fun prop_def => some (some prop_def) := by
  rw [getPropertyDefinition, searchParents_eq]
  cases d.own token <;> rfl

theorem getAllPropertyDefinitions_succ (depth : Nat) (d : Definition) :
    getAllPropertyDefinitions repository (depth + 1) d =
      ((repository.resolved d).mapM (getAllPropertyDefinitions repository depth)).map
        fun inherited => inherited.flatten ++ d.properties := by
  rw [getAllPropertyDefinitions, collectParents_eq, Option.map_map]
  rfl

/-! ## The values of the look-ups -/

theorem returns_firstFound_cons {call : Nat → Definition → Option (Option Child)}
    {e : Definition} {rest : List Definition} {first found : Option Child}
    (here : Returns (call · e) first)
    (later : Returns (fun depth =>
      first.elim (firstFound (call depth) rest) fun found => some (some found)) found) :
    Returns (fun depth => firstFound (call depth) (e :: rest)) found := here.bind later

theorem returns_firstFound {call : Nat → Definition → Option (Option Child)}
    {values : Definition → Option Child} {es : List Definition}
    (each : ∀ e ∈ es, Returns (call · e) (values e)) :
    Returns (fun depth => firstFound (call depth) es) (es.findSome? values) := by
  induction es with
  | nil => exact Returns.of_some none
  | cons e rest ih =>
    have later := ih fun f member => each f (List.mem_cons_of_mem e member)
    rw [List.findSome?_cons]
    apply returns_firstFound_cons (each e (List.mem_cons_self ..))
    cases values e with
    | none => exact later
    | some found => exact Returns.of_some (some found)

/-- The own property, or the first that is found for a parent. -/
theorem returns_getPropertyDefinition {token : String} {found : Definition → Option Child}
    (d : Definition) (parents : ∀ e ∈ repository.resolved d,
      Returns (getPropertyDefinition repository · e token) (found e)) :
    Returns (getPropertyDefinition repository · d token)
      ((d.own token).or ((repository.resolved d).findSome? found)) := by
  cases own : d.own token with
  | some prop_def =>
    refine (Returns.of_some (some prop_def)).congr fun depth => ?_
    rw [getPropertyDefinition_succ, own, Option.elim_some]
  | none =>
    refine (returns_firstFound parents).congr fun depth => ?_
    rw [getPropertyDefinition_succ, own, Option.elim_none]

theorem returns_getAllPropertyDefinitions {all : Definition → List Child} (d : Definition)
    (parents : ∀ e ∈ repository.resolved d,
      Returns (getAllPropertyDefinitions repository · e) (all e)) :
    Returns (getAllPropertyDefinitions repository · d)
      ((repository.resolved d).flatMap all ++ d.properties) := by
  have combined := (Returns.mapM parents).map fun lists => lists.flatten ++ d.properties
  exact combined.congr fun depth => getAllPropertyDefinitions_succ depth d

/-- With a stack that is deep enough, the look-ups have values for all definitions. -/
theorem exists_found (acyclic : repository.hierarchy.Acyclic) (token : String) :
    ∃ found : Definition → Option Child,
      (∀ d, Returns (getPropertyDefinition repository · d token) (found d)) ∧
      ∀ d, found d = (d.own token).or ((repository.resolved d).findSome? found) := by
  apply Returns.exists_of_wellFounded (wellFounded_parent acyclic)
  intro found d parents
  exact returns_getPropertyDefinition d fun e member => parents e (mem_resolved.mp member)

theorem exists_all (acyclic : repository.hierarchy.Acyclic) :
    ∃ all : Definition → List Child,
      (∀ d, Returns (getAllPropertyDefinitions repository · d) (all d)) ∧
      ∀ d, all d = (repository.resolved d).flatMap all ++ d.properties := by
  apply Returns.exists_of_wellFounded (wellFounded_parent acyclic)
  intro all d parents
  exact returns_getAllPropertyDefinitions d fun e member => parents e (mem_resolved.mp member)

/-! ## What is found -/

/-- A chain of parents, of which only the last may have the token itself. -/
inductive Reaches (repository : DefinitionRepository) (token : String) :
    Definition → Definition → Prop where
  | here (d : Definition) : Reaches repository token d d
  | parent {d e f : Definition} (none' : d.own token = none) (up : e ∈ repository.resolved d)
      (more : Reaches repository token e f) : Reaches repository token d f

/-- Nearer definitions come before those that they inherit from. -/
def NearerFirst (repository : DefinitionRepository) (d : Definition) (token : String)
    (found : Child) : Prop :=
  ∀ near far prop_def, Relation.ReflTransGen repository.hierarchy.Parent near d →
    Relation.TransGen repository.hierarchy.Parent far near → near.own token = some prop_def →
      far.own token = some found → prop_def = found

theorem own_eq_some {d : Definition} {token : String} {p : Child} (own : d.own token = some p) :
    p ∈ d.properties ∧ p.getToken = token := by
  have member : p ∈ d.children := List.mem_of_find?_eq_some own
  have value : p.attributes.lookup "name" = some token := by
    simpa [Child.hasToken] using List.find?_some own
  constructor
  · rw [Definition.properties, List.mem_filter]
    exact ⟨member, (d.named p member).mpr (by rw [value]; rfl)⟩
  · rw [Child.getToken, value, Option.getD_some]

theorem isSome_own {d : Definition} {token : String} {p : Child} (member : p ∈ d.properties)
    (same : p.getToken = token) : (d.own token).isSome := by
  obtain ⟨listed, isProperty⟩ := List.mem_filter.mp member
  obtain ⟨value, has⟩ := Option.isSome_iff_exists.mp ((d.named p listed).mp isProperty)
  rw [Child.getToken, has, Option.getD_some] at same
  rw [Definition.own, List.find?_isSome]
  exact ⟨p, listed, by simp [Child.hasToken, has, same]⟩

section Values

variable {token : String} {found : Definition → Option Child} {all : Definition → List Child}
  (wellFounded : WellFounded repository.hierarchy.Parent)
  (foundEq : ∀ d, found d = (d.own token).or ((repository.resolved d).findSome? found))
  (allEq : ∀ d, all d = (repository.resolved d).flatMap all ++ d.properties)

include wellFounded foundEq in
theorem reaches_of_found (d : Definition) {p : Child} (here : found d = some p) :
    ∃ e, Reaches repository token d e ∧ e.own token = some p := by
  induction d using wellFounded.induction with
  | _ d ih =>
    rw [foundEq] at here
    cases own : d.own token with
    | some q =>
      rw [own, Option.some_or] at here
      exact ⟨d, .here d, own.trans here⟩
    | none =>
      rw [own, Option.none_or] at here
      obtain ⟨e, up, there⟩ := List.exists_of_findSome?_eq_some here
      obtain ⟨f, more, last⟩ := ih e (mem_resolved.mp up) there
      exact ⟨f, .parent own up more, last⟩

include wellFounded foundEq allEq in
theorem isSome_found (d : Definition) {p : Child} (member : p ∈ all d)
    (same : p.getToken = token) : (found d).isSome := by
  induction d using wellFounded.induction with
  | _ d ih =>
    rw [allEq, List.mem_append, List.mem_flatMap] at member
    rw [foundEq, Option.isSome_or, Bool.or_eq_true]
    rcases member with ⟨e, up, above⟩ | own
    · right
      rw [List.isSome_findSome?]
      exact List.any_eq_true.mpr ⟨e, up, ih e (mem_resolved.mp up) above⟩
    · exact Or.inl (isSome_own own same)

include allEq in
theorem mem_all_of_reaches {d e : Definition} {p : Child} (chain : Reaches repository token d e)
    (member : p ∈ e.properties) : p ∈ all d := by
  induction chain with
  | here d =>
    rw [allEq, List.mem_append]
    exact Or.inr member
  | parent _ up _ ih =>
    rw [allEq, List.mem_append, List.mem_flatMap]
    exact Or.inl ⟨_, up, ih member⟩

end Values

/-- One property is found by its token just when some listed property has it. The one found is
listed, and none is nearer on the chain of parents that leads to it. -/
theorem property_lookup (acyclic : repository.hierarchy.Acyclic) (d : Definition)
    (token : String) :
    ∃ found all, Returns (getPropertyDefinition repository · d token) found ∧
      Returns (getAllPropertyDefinitions repository · d) all ∧
      (found.isSome ↔ ∃ p ∈ all, p.getToken = token) ∧
      (∀ p, d.own token = some p → found = some p) ∧
      ∀ p, found = some p → p ∈ all ∧
        ∃ e, Reaches repository token d e ∧ e.own token = some p := by
  obtain ⟨found, foundReturns, foundEq⟩ := exists_found acyclic token
  obtain ⟨all, allReturns, allEq⟩ := exists_all acyclic
  have wellFounded := wellFounded_parent acyclic
  have chain (p : Child) (here : found d = some p) := reaches_of_found wellFounded foundEq d here
  refine ⟨found d, all d, foundReturns d, allReturns d, ?_, ?_, ?_⟩
  · constructor
    · intro some'
      obtain ⟨p, here⟩ := Option.isSome_iff_exists.mp some'
      obtain ⟨e, reaches, own⟩ := chain p here
      obtain ⟨member, same⟩ := own_eq_some own
      exact ⟨p, mem_all_of_reaches allEq reaches member, same⟩
    · rintro ⟨p, member, same⟩
      exact isSome_found wellFounded foundEq allEq d member same
  · intro p own
    rw [foundEq, own, Option.some_or]
  · intro p here
    obtain ⟨e, reaches, own⟩ := chain p here
    exact ⟨mem_all_of_reaches allEq reaches (own_eq_some own).1, e, reaches, own⟩

/-- A repository where the names have these ranks. -/
theorem acyclic_of_ranks (rank : String → Nat)
    (lower : ∀ entry ∈ repository.mDefs.entries, ∀ q ∈ entry.2.parents, rank q < rank entry.1) :
    repository.hierarchy.Acyclic := by
  apply Hierarchy.acyclic_of_rank rank
  intro p e found q member _
  exact lower (p, e) (SortedMap.mem_entries_of_find found) q (List.mem_filter.mp member).1

end

/-- A property of a definition, given by its token and its type. -/
def property (p : String × String) : Child :=
  ⟨"property", [("name", p.1), ("valuetype", p.2)]⟩

/-- A first version, with a help text. -/
def define (mToken : String) (parents : List String) (properties : List (String × String)) :
    Definition where
  mToken := mToken
  version := 1
  parents := parents
  children := ⟨"help", []⟩ :: properties.map property
  named := by
    intro child member
    rcases List.mem_cons.mp member with rfl | member
    · decide
    · obtain ⟨p, -, rfl⟩ := List.mem_map.mp member
      simp [property, Child.isProperty]

/-- A glove that derives from `device` twice, once through a definition with a `rate` of its
own. -/
def twoChains : DefinitionRepository :=
  .load [define "device" [] [("rate", "integer")], define "digital" ["device"] [],
    define "timed" ["device"] [("rate", "float")], define "glove" ["digital", "timed"] []]

theorem acyclic_twoChains : twoChains.hierarchy.Acyclic :=
  acyclic_of_ranks (rankOf ["device", "digital", "timed", "glove"]) (by decide)

theorem property_lookup_twoChains :
    ∃ found all,
      Returns (getPropertyDefinition twoChains · (define "glove" ["digital", "timed"] []) "rate")
        found ∧
      Returns (getAllPropertyDefinitions twoChains · (define "glove" ["digital", "timed"] []))
        all ∧
      (found.isSome ↔ ∃ p ∈ all, p.getToken = "rate") := by
  obtain ⟨found, all, foundReturns, allReturns, same, -⟩ :=
    property_lookup acyclic_twoChains (define "glove" ["digital", "timed"] []) "rate"
  exact ⟨found, all, foundReturns, allReturns, same⟩

/-- The `rate` that is found is the farther one. -/
theorem property_lookup_farther : twoChains.hierarchy.Acyclic ∧
    Returns (getPropertyDefinition twoChains · (define "glove" ["digital", "timed"] []) "rate")
      (some (property ("rate", "integer"))) ∧
    ¬ NearerFirst twoChains (define "glove" ["digital", "timed"] []) "rate"
      (property ("rate", "integer")) := by
  refine ⟨acyclic_twoChains, ⟨3, fun depth enough => ?_⟩, fun nearer => ?_⟩
  · obtain ⟨depth, rfl⟩ := Nat.exists_eq_add_of_le' enough
    rfl
  · have near : twoChains.hierarchy.Parent (define "timed" ["device"] [("rate", "float")])
        (define "glove" ["digital", "timed"] []) := ⟨"timed", by decide, by decide⟩
    have far : twoChains.hierarchy.Parent (define "device" [] [("rate", "integer")])
        (define "timed" ["device"] [("rate", "float")]) := ⟨"device", by decide, by decide⟩
    have same := nearer _ _ _ (.single near) (.single far) rfl rfl
    exact absurd same (by decide)

end VRJuggler.Jccl
