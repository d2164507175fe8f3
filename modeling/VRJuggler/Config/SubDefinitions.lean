import VRJuggler.Config.InheritedProperties
import Mathlib.Data.List.Pairwise

/-!
# Subtypes of definitions

`isOfType` goes up from a definition to a token, and `getSubDefinitions` lists the definitions
that name a token among their parents. The one fails where a parent is not in the repository,
and the other does not go on to the children of children.
-/
namespace VRJuggler.Config

open ConfigDefinitionRepository

variable (repos : ConfigDefinitionRepository)

/-! ## The code -/

/-- What `isOfType` answers, or its exception. -/
inductive TypeTest where
  | answer (isOfType : Bool)
  | nullPointer
  deriving DecidableEq

/-- The loop over the parents. `isOfType` is the call for another definition. -/
def anyOfType (isOfType : ConfigDefinition → Option TypeTest) : List String → Option TypeTest
  | [] => some (.answer false)
  | p :: rest =>
    match repos.get p with
    | none => some .nullPointer
    | some parent_def =>
      (isOfType parent_def).bind fun tested =>
        if tested = .answer false then anyOfType isOfType rest else some tested

/-- `depth` calls fit on the stack. -/
def isOfType : Nat → ConfigDefinition → String → Option TypeTest
  | 0, _, _ => none
  | depth + 1, d, token =>
    if d.mToken = token then some (.answer true)
    else anyOfType repos (isOfType depth · token) d.mParents

/-- `ConfigDefinition.getSubDefinitions` -/
def getSubDefinitions (d : ConfigDefinition) : List ConfigDefinition :=
  repos.getAllLatest.foldl (fun result e =>
    if e.mParents.contains d.mToken then addNew ConfigDefinition.equals result e else result) []

/-- `ConfigDefinitionRepository.getSubDefinitions` for one token. -/
def getSubDefinitionTokens (token : String) : List String :=
  match repos.get token with
  | none => []
  | some d =>
    ((getSubDefinitions repos d).map (·.mToken)).foldl (addNew fun s t => s = t) []

/-- `ConfigDefinitionRepository.getSubDefinitions` for a list of tokens. -/
def getAllSubDefinitionTokens (tokens : List String) : List String :=
  tokens.foldl (fun result token => result ++ getSubDefinitionTokens repos token) tokens

def getAllowedAndDerivedTypes (p : PropertyDefinition) : List String :=
  p.mAllowedTypes.foldl (addNew fun s t => s = t)
    (getAllSubDefinitionTokens repos p.mAllowedTypes)

/-! ## What the search looks up -/

/-- The names above a definition, in the order of the search. The names above one of the parents
come right after it. -/
def namesFrom (namesAbove : ConfigDefinition → Option (List String)) :
    List String → Option (List String)
  | [] => some []
  | p :: rest =>
    ((repos.get p).elim (some []) namesAbove).bind fun above =>
      (namesFrom namesAbove rest).map fun others => p :: (above ++ others)

def namesAbove : Nat → ConfigDefinition → Option (List String)
  | 0, _ => none
  | depth + 1, d => namesFrom repos (namesAbove depth) d.mParents

/-! ## What is claimed of them -/

/-- The search does not fail, and tells whether the definition is a sub-definition. -/
def Agrees (d e : ConfigDefinition) : Prop :=
  ∃ b, Returns (isOfType repos · e d.mToken) (.answer b) ∧
    (e ∈ getSubDefinitions repos d ↔ e ≠ d ∧ b = true)

/-- The names that the search comes to before the token are in the repository, and if it comes
to the token, this is a parent. -/
def Direct (d e : ConfigDefinition) : Prop :=
  e = d ∨ ∃ names, Returns (namesAbove repos · e) names ∧
    (∀ n ∈ names.takeWhile (· ≠ d.mToken), (repos.get n).isSome) ∧
    (d.mToken ∈ names → d.mToken ∈ e.mParents)

/-- The allowed types that are in the repository. -/
def allowedTypes (p : PropertyDefinition) : List String :=
  p.mAllowedTypes.filter fun a => (repos.get a).isSome

/-- Each allowed type and each type derived from one is listed once. -/
structure ListsOnce (p : PropertyDefinition) : Prop where
  once : (getAllowedAndDerivedTypes repos p).Nodup
  complete : ∀ t, t ∈ getAllowedAndDerivedTypes repos p ↔ t ∈ p.mAllowedTypes ∨
    ∃ e, repos.get t = some e ∧ ∃ a ∈ allowedTypes repos p, repos.hierarchy.Derives e a

/-- Allowed types are distinct, none of them is a parent of another, no definition has two of
them as parents, and what derives from one of them is allowed or has one as parent. -/
structure Separate (p : PropertyDefinition) : Prop where
  distinct : p.mAllowedTypes.Nodup
  apart : ∀ e ∈ repos.getAllLatest, ∀ a ∈ allowedTypes repos p, a ∈ e.mParents →
    e.mToken ∉ p.mAllowedTypes
  single : ∀ e ∈ repos.getAllLatest, ∀ a ∈ allowedTypes repos p, ∀ b ∈ allowedTypes repos p,
    a ∈ e.mParents → b ∈ e.mParents → a = b
  near : ∀ e ∈ repos.getAllLatest, ∀ a ∈ allowedTypes repos p, repos.hierarchy.Derives e a →
    e.mToken ∈ p.mAllowedTypes ∨ ∃ b ∈ allowedTypes repos p, b ∈ e.mParents

variable {repos}

/-! ## The search -/

/-- What the search finds when it looks up these names. -/
def outcome (repos : ConfigDefinitionRepository) (token : String) : List String → TypeTest
  | [] => .answer false
  | n :: rest =>
    if (repos.get n).isNone then .nullPointer
    else if n = token then .answer true
    else outcome repos token rest

theorem outcome_append (token : String) (names others : List String) :
    outcome repos token (names ++ others) =
      if outcome repos token names = .answer false then outcome repos token others
      else outcome repos token names := by
  induction names with
  | nil => rfl
  | cons n rest ih =>
    rw [List.cons_append, outcome, outcome]
    split
    · rfl
    · split
      · rfl
      · exact ih

/-- The search answers when no name before the token is missing. -/
theorem outcome_eq {token : String} (known : (repos.get token).isSome) (names : List String) :
    outcome repos token names =
      if ∀ n ∈ names.takeWhile (· ≠ token), (repos.get n).isSome
      then .answer (decide (token ∈ names)) else .nullPointer := by
  induction names with
  | nil => rfl
  | cons n rest ih =>
    rw [outcome]
    by_cases same : n = token
    · subst same
      simp [Option.isSome_iff_ne_none.mp known]
    · have differ : token ≠ n := fun equal => same equal.symm
      cases found : repos.get n with
      | none => simp [same, found]
      | some parent => simp [same, differ, found, ih]

section Search

variable {names : ConfigDefinition → List String}

/-- The names from a list of parents on. -/
def through (repos : ConfigDefinitionRepository) (names : ConfigDefinition → List String)
    (parents : List String) : List String :=
  parents.flatMap fun p => p :: (repos.get p).elim [] names

theorem returns_namesFrom {parents : List String}
    (above : ∀ p ∈ parents, ∀ e, repos.get p = some e →
      Returns (namesAbove repos · e) (names e)) :
    Returns (fun depth => namesFrom repos (namesAbove repos depth) parents)
      (through repos names parents) := by
  induction parents with
  | nil => exact .of_some []
  | cons p rest ih =>
    have later := ih fun q member => above q (List.mem_cons_of_mem _ member)
    have here : Returns (fun depth => (repos.get p).elim (some []) (namesAbove repos depth))
        ((repos.get p).elim [] names) := by
      cases found : repos.get p with
      | none => exact .of_some []
      | some e => exact above p (List.mem_cons_self ..) e found
    exact here.bind (later.map fun others => p :: ((repos.get p).elim [] names ++ others))

theorem exists_names (acyclic : repos.hierarchy.Acyclic) :
    ∃ names : ConfigDefinition → List String,
      (∀ d, Returns (namesAbove repos · d) (names d)) ∧
      ∀ d, names d = through repos names d.mParents := by
  apply Returns.exists_of_wellFounded (wellFounded_parent acyclic)
  intro names d parents
  exact (returns_namesFrom fun p member e found => parents e ⟨p, member, found⟩).congr fun _ => rfl

/-- The answer of `isOfType` when it goes on to the parents. -/
theorem returns_anyOfType {token : String} {parents : List String}
    (above : ∀ p ∈ parents, ∀ e, repos.get p = some e → Returns (isOfType repos · e token)
      (if e.mToken = token then .answer true else outcome repos token (names e))) :
    Returns (fun depth => anyOfType repos (isOfType repos depth · token) parents)
      (outcome repos token (through repos names parents)) := by
  induction parents with
  | nil => exact .of_some _
  | cons p rest ih =>
    have later := ih fun q member => above q (List.mem_cons_of_mem _ member)
    simp only [anyOfType, through, List.flatMap_cons]
    cases found : repos.get p with
    | none =>
      have missing : outcome repos token ([p] ++ through repos names rest) = .nullPointer := by
        rw [List.singleton_append, outcome, found]
        rfl
      rw [Option.elim_none, ← through, missing]
      exact .of_some _
    | some parent =>
      have here := above p (List.mem_cons_self ..) parent found
      rw [token_of_get found] at here
      rw [Option.elim_some, ← through, List.cons_append, outcome, found]
      simp only [Option.isNone_some, Bool.false_eq_true, if_false]
      by_cases same : p = token
      · rw [if_pos same] at here ⊢
        exact here.bind (.of_some _)
      · rw [if_neg same] at here ⊢
        rw [outcome_append]
        -- the search goes on behind a parent that is not of the type
        apply here.bind
        split
        · exact later
        · exact .of_some _

/-- The answer of `isOfType`, by the names above the definition. -/
theorem returns_isOfType (acyclic : repos.hierarchy.Acyclic)
    (eq : ∀ d, names d = through repos names d.mParents) (d : ConfigDefinition) (token : String) :
    Returns (isOfType repos · d token)
      (if d.mToken = token then .answer true else outcome repos token (names d)) := by
  induction d using (wellFounded_parent acyclic).induction with
  | _ d ih =>
    by_cases same : d.mToken = token
    · rw [if_pos same]
      refine (Returns.of_some _).congr fun depth => ?_
      rw [isOfType, if_pos same]
    · rw [if_neg same, eq d]
      refine (returns_anyOfType fun p member e found => ih e ⟨p, member, found⟩).congr
        fun depth => ?_
      rw [isOfType, if_neg same]
      rfl

end Search

/-! ## Sub-definitions -/

/-- The definitions that name this one as a parent. -/
def children (repos : ConfigDefinitionRepository) (token : String) : List ConfigDefinition :=
  repos.getAllLatest.filter (·.mParents.contains token)

theorem nodup_children (token : String) : ((children repos token).map (·.mToken)).Nodup :=
  nodup_getAllLatest.sublist (List.filter_sublist.map _)

theorem getSubDefinitions_eq (d : ConfigDefinition) :
    getSubDefinitions repos d = children repos d.mToken := by
  rw [getSubDefinitions, ← List.foldl_filter]
  exact foldl_addNew_of_nodup (fun _ _ => ConfigDefinition.token_of_equals)
    (nodup_children d.mToken)

theorem mem_getSubDefinitions {d e : ConfigDefinition} (latest : e ∈ repos.getAllLatest) :
    e ∈ getSubDefinitions repos d ↔ d.mToken ∈ e.mParents := by
  rw [getSubDefinitions_eq, children, List.mem_filter]
  simp [latest]

/-- Both enumerations agree just when the search needs to look at the parents only. -/
theorem agrees_iff (acyclic : repos.hierarchy.Acyclic) {d e : ConfigDefinition}
    (here : d ∈ repos.getAllLatest) (there : e ∈ repos.getAllLatest) :
    Agrees repos d e ↔ Direct repos d e := by
  obtain ⟨names, returns, eq⟩ := exists_names acyclic
  have answer := returns_isOfType acyclic eq e d.mToken
  have known : (repos.get d.mToken).isSome := by rw [mem_getAllLatest.mp here]; rfl
  have direct : Direct repos d e ↔ e = d ∨
      (∀ n ∈ (names e).takeWhile (· ≠ d.mToken), (repos.get n).isSome) ∧
        (d.mToken ∈ names e → d.mToken ∈ e.mParents) := by
    constructor
    · rintro (same | ⟨above, found, direct⟩)
      · exact .inl same
      · exact .inr ((returns e).unique found ▸ direct)
    · rintro (same | direct)
      · exact .inl same
      · exact .inr ⟨names e, returns e, direct⟩
  rw [direct]
  by_cases same : e = d
  · -- No definition names itself as a parent.
    subst same
    rw [if_pos rfl] at answer
    refine ⟨fun _ => .inl rfl, fun _ => ⟨true, answer, ?_⟩⟩
    rw [mem_getSubDefinitions there]
    constructor
    · intro member
      exact absurd (.named member) (acyclic e.mToken e (mem_getAllLatest.mp here))
    · rintro ⟨differ, -⟩
      exact absurd rfl differ
  · have tokens : e.mToken ≠ d.mToken := by
      intro equal
      apply same
      have latest := mem_getAllLatest.mp there
      rw [equal, mem_getAllLatest.mp here] at latest
      exact (Option.some.inj latest).symm
    rw [if_neg tokens, outcome_eq known] at answer
    simp only [same, false_or]
    have parent : d.mToken ∈ e.mParents → d.mToken ∈ names e := by
      intro member
      rw [eq e]
      exact List.mem_flatMap.mpr ⟨d.mToken, member, List.mem_cons_self ..⟩
    by_cases resolved : ∀ n ∈ (names e).takeWhile (· ≠ d.mToken), (repos.get n).isSome
    · rw [if_pos resolved] at answer
      constructor
      · rintro ⟨b, found, listed⟩
        have value : b = decide (d.mToken ∈ names e) :=
          (TypeTest.answer.inj (answer.unique found)).symm
        refine ⟨resolved, fun member => ?_⟩
        rw [← mem_getSubDefinitions there]
        exact listed.mpr ⟨same, by rw [value, decide_eq_true member]⟩
      · rintro ⟨-, direct⟩
        refine ⟨_, answer, ?_⟩
        rw [mem_getSubDefinitions there, decide_eq_true_eq]
        exact ⟨fun member => ⟨same, parent member⟩, fun both => direct both.2⟩
    · -- The search fails at a name that is not in the repository.
      rw [if_neg resolved] at answer
      constructor
      · rintro ⟨b, found, -⟩
        cases answer.unique found
      · rintro ⟨all, -⟩
        exact absurd all resolved

/-! ## Allowed and derived types -/

theorem getSubDefinitionTokens_eq (token : String) :
    getSubDefinitionTokens repos token =
      if (repos.get token).isSome then (children repos token).map (·.mToken) else [] := by
  rw [getSubDefinitionTokens]
  cases found : repos.get token with
  | none => rfl
  | some d =>
    have distinct : ((children repos token).map (·.mToken)).Nodup := nodup_children token
    simp only [getSubDefinitions_eq, token_of_get found, Option.isSome_some, if_true]
    have keys : (([] ++ (children repos token).map ConfigDefinition.mToken).map id).Nodup := by
      rw [List.nil_append, List.map_id]
      exact distinct
    exact foldl_addNew_of_nodup (fun s t same => of_decide_eq_true same) keys

theorem getAllowedAndDerivedTypes_eq (p : PropertyDefinition) :
    getAllowedAndDerivedTypes repos p =
      p.mAllowedTypes ++ p.mAllowedTypes.flatMap (getSubDefinitionTokens repos) := by
  have all : getAllSubDefinitionTokens repos p.mAllowedTypes =
      p.mAllowedTypes ++ p.mAllowedTypes.flatMap (getSubDefinitionTokens repos) := by
    rw [getAllSubDefinitionTokens, List.foldl_append_eq_append, List.flatMap_def]
  rw [getAllowedAndDerivedTypes, all]
  apply foldl_addNew_of_mem
  · exact fun t => decide_eq_true rfl
  · exact fun t member => List.mem_append_left _ member

/-- A token is listed for an allowed type when its definition names it as a parent. -/
theorem mem_getSubDefinitionTokens {a t : String} :
    t ∈ getSubDefinitionTokens repos a ↔
      (repos.get a).isSome ∧ ∃ e ∈ repos.getAllLatest, a ∈ e.mParents ∧ e.mToken = t := by
  rw [getSubDefinitionTokens_eq]
  split
  · next known => simp [known, children, and_assoc]
  · next missing => simp [missing]

theorem mem_flatMap_tokens {p : PropertyDefinition} {t : String} :
    t ∈ p.mAllowedTypes.flatMap (getSubDefinitionTokens repos) ↔
      ∃ a ∈ allowedTypes repos p, ∃ e ∈ repos.getAllLatest, a ∈ e.mParents ∧ e.mToken = t := by
  rw [List.mem_flatMap]
  constructor
  · rintro ⟨a, member, listed⟩
    obtain ⟨known, child⟩ := mem_getSubDefinitionTokens.mp listed
    exact ⟨a, List.mem_filter.mpr ⟨member, known⟩, child⟩
  · rintro ⟨a, member, child⟩
    obtain ⟨member, known⟩ := List.mem_filter.mp member
    exact ⟨a, member, mem_getSubDefinitionTokens.mpr ⟨known, child⟩⟩

theorem nodup_getSubDefinitionTokens (a : String) : (getSubDefinitionTokens repos a).Nodup := by
  rw [getSubDefinitionTokens_eq]
  split
  · exact nodup_children a
  · exact List.nodup_nil

/-- The list names each type once just when the allowed types are separate. -/
theorem listsOnce_iff (p : PropertyDefinition) : ListsOnce repos p ↔ Separate repos p := by
  constructor
  · rintro ⟨once, complete⟩
    rw [getAllowedAndDerivedTypes_eq] at once complete
    obtain ⟨distinct, derived, disjoint⟩ := List.nodup_append'.mp once
    obtain ⟨-, pairs⟩ := List.nodup_flatMap.mp derived
    refine ⟨distinct, ?_, ?_, ?_⟩
    · intro e latest a member child allowed
      exact disjoint allowed (mem_flatMap_tokens.mpr ⟨a, member, e, latest, child, rfl⟩)
    · intro e latest a first b second childA childB
      by_contra differ
      obtain ⟨first, knownA⟩ := List.mem_filter.mp first
      obtain ⟨second, knownB⟩ := List.mem_filter.mp second
      have : Std.Symm (Function.onFun List.Disjoint (getSubDefinitionTokens repos)) :=
        ⟨fun _ _ apart => apart.symm⟩
      have apart := pairs.forall first second differ
      exact apart (mem_getSubDefinitionTokens.mpr ⟨knownA, e, latest, childA, rfl⟩)
        (mem_getSubDefinitionTokens.mpr ⟨knownB, e, latest, childB, rfl⟩)
    · intro e latest a member derives
      have listed := (complete e.mToken).mpr
        (.inr ⟨e, mem_getAllLatest.mp latest, a, member, derives⟩)
      rcases List.mem_append.mp listed with allowed | derived
      · exact .inl allowed
      · obtain ⟨b, member, f, same, child, token⟩ := mem_flatMap_tokens.mp derived
        have equal : f = e := by
          have here := mem_getAllLatest.mp same
          rw [token, mem_getAllLatest.mp latest] at here
          exact (Option.some.inj here).symm
        exact .inr ⟨b, member, equal ▸ child⟩
  · rintro ⟨distinct, apart, single, near⟩
    constructor
    · rw [getAllowedAndDerivedTypes_eq, List.nodup_append', List.nodup_flatMap]
      refine ⟨distinct, ⟨fun a _ => nodup_getSubDefinitionTokens a, ?_⟩, ?_⟩
      · refine distinct.pairwise_of_forall_ne fun a first b second differ => ?_
        intro t left right
        obtain ⟨knownA, e, latestE, childA, rfl⟩ := mem_getSubDefinitionTokens.mp left
        obtain ⟨knownB, f, latestF, childB, token⟩ := mem_getSubDefinitionTokens.mp right
        have equal : f = e := by
          have here := mem_getAllLatest.mp latestF
          rw [token, mem_getAllLatest.mp latestE] at here
          exact (Option.some.inj here).symm
        exact differ (single e latestE a (List.mem_filter.mpr ⟨first, knownA⟩) b
          (List.mem_filter.mpr ⟨second, knownB⟩) childA (equal ▸ childB))
      · intro t allowed derived
        obtain ⟨a, member, e, latest, child, rfl⟩ := mem_flatMap_tokens.mp derived
        exact apart e latest a member child allowed
    · intro t
      rw [getAllowedAndDerivedTypes_eq, List.mem_append, mem_flatMap_tokens]
      constructor
      · rintro (allowed | ⟨a, member, e, latest, child, rfl⟩)
        · exact .inl allowed
        · exact .inr ⟨e, mem_getAllLatest.mp latest, a, member, .named child⟩
      · rintro (allowed | ⟨e, found, a, member, derives⟩)
        · exact .inl allowed
        · have token := token_of_get found
          have latest : e ∈ repos.getAllLatest := mem_getAllLatest.mpr (token ▸ found)
          rcases near e latest a member derives with allowed | ⟨b, member, child⟩
          · exact .inl (token ▸ allowed)
          · exact .inr ⟨b, member, e, latest, child, token⟩

/-! ## Both queries -/

/-- `getSubDefinitions` agrees with `isOfType` just when the search upwards ends at a parent,
and before a name that is not in the repository. Allowed and derived types are listed once just
when the allowed types are separate. -/
theorem subDefinitions_iff (repos : ConfigDefinitionRepository)
    (acyclic : repos.hierarchy.Acyclic) :
    (∀ d ∈ repos.getAllLatest, ∀ e ∈ repos.getAllLatest, Agrees repos d e ↔ Direct repos d e) ∧
      ∀ p : PropertyDefinition, ListsOnce repos p ↔ Separate repos p :=
  ⟨fun _ here _ there => agrees_iff acyclic here there, listsOnce_iff⟩

/-- A device that may be of any of these types. -/
def deviceProperty (allowedTypes : List String) : PropertyDefinition :=
  { textProperty "device" "" with mType := .configElement, mAllowedTypes := allowedTypes }

theorem subDefinitions_devices :
    Agrees devices inputDevice positionDevice ∧
      ListsOnce devices (deviceProperty ["input_device"]) := by
  obtain ⟨agrees, listed⟩ := subDefinitions_iff devices acyclic_devices
  constructor
  · apply (agrees inputDevice (mem_getAllLatest.mpr rfl) positionDevice
      (mem_getAllLatest.mpr rfl)).mpr
    refine .inr ⟨["input_device", "filtered"], ⟨2, fun depth enough => ?_⟩, by decide, by decide⟩
    obtain ⟨depth, rfl⟩ := Nat.exists_eq_add_of_le' enough
    rfl
  · apply (listed (deviceProperty ["input_device"])).mpr
    refine ⟨by decide, by decide, by decide, ?_⟩
    have near : ∀ e ∈ devices.getAllLatest, e.mToken ∈ ["input_device"] ∨
        ∃ b ∈ allowedTypes devices (deviceProperty ["input_device"]), b ∈ e.mParents := by decide
    exact fun e latest _ _ _ => near e latest

/-- The glove is derived from the input device through both its parents. -/
def gloves : ConfigDefinitionRepository := devices.add glove

/-- The glove is an input device, but no sub-definition of it. Whether a position device is a
glove cannot be asked, since one of its parents is not in the repository. The glove is listed
for each of its parents. -/
theorem subDefinitions_fails :
    gloves.hierarchy.Acyclic ∧ inputDevice ∈ gloves.getAllLatest ∧ glove ∈ gloves.getAllLatest ∧
      ¬ Agrees gloves inputDevice glove ∧
      Returns (isOfType gloves · positionDevice "glove") .nullPointer ∧
      getAllowedAndDerivedTypes gloves (deviceProperty ["digital_device", "position_device"]) =
        ["digital_device", "position_device", "glove", "glove"] := by
  have latest : glove ∈ gloves.getAllLatest := mem_getAllLatest.mpr rfl
  have isInput : Returns (isOfType gloves · glove "input_device") (.answer true) := by
    refine ⟨3, fun depth enough => ?_⟩
    obtain ⟨depth, rfl⟩ := Nat.exists_eq_add_of_le' enough
    rfl
  have fails : Returns (isOfType gloves · positionDevice "glove") .nullPointer := by
    refine ⟨2, fun depth enough => ?_⟩
    obtain ⟨depth, rfl⟩ := Nat.exists_eq_add_of_le' enough
    rfl
  refine ⟨acyclic_of_latest
    (["input_device", "filtered", "digital_device", "position_device", "glove"].idxOf ·)
    (by decide), mem_getAllLatest.mpr rfl, latest, ?_, fails, rfl⟩
  rintro ⟨b, answer, listed⟩
  obtain rfl : b = true := TypeTest.answer.inj (answer.unique isInput)
  have differ : glove ≠ inputDevice := by
    intro same
    exact absurd (congrArg ConfigDefinition.mToken same) (by decide)
  have member := (mem_getSubDefinitions latest).mp (listed.mpr ⟨differ, rfl⟩)
  revert member
  decide

end VRJuggler.Config
