import VRJuggler.Base.Merge
import VRJuggler.Config.Definitions

/-!
# Inherited properties

`getPropertyDefinitions` adds to the properties of a definition those of its parents. Whether
one is there already is decided by `PropertyDefinition.equals`, which compares more than the
token.
-/
namespace VRJuggler.Config

variable (repos : ConfigDefinitionRepository)

/-! ## The code -/

/-- The loop over the parents. `getPropertyDefinitions` is the call for another definition. -/
def inheritFrom (getPropertyDefinitions : ConfigDefinition → Option (List PropertyDefinition)) :
    List String → List PropertyDefinition → Option (List PropertyDefinition)
  | [], temp_list => some temp_list
  | p :: rest, temp_list =>
    match repos.get p with
    | none => inheritFrom getPropertyDefinitions rest temp_list
    | some parent =>
      (getPropertyDefinitions parent).bind fun parent_defs =>
        inheritFrom getPropertyDefinitions rest
          (parent_defs.foldl (addNew PropertyDefinition.equals) temp_list)

/-- `depth` calls fit on the stack. -/
def getPropertyDefinitions : Nat → ConfigDefinition → Option (List PropertyDefinition)
  | 0, _ => none
  | depth + 1, d =>
    inheritFrom repos (getPropertyDefinitions depth) d.mParents d.mPropertyDefs

/-! ## What is inherited -/

/-- A definition, its parents in the repository, and so on. -/
def Inherits : ConfigDefinition → ConfigDefinition → Prop :=
  Relation.ReflTransGen fun d parent => repos.hierarchy.Parent parent d

/-- The definition or an ancestor in the repository declares the token. -/
def Declares (d : ConfigDefinition) (token : String) : Prop :=
  ∃ e, Inherits repos d e ∧ token ∈ e.mPropertyDefs.map (·.mToken)

/-- The property that hides the others of the token: the definition's own, or that of the first
parent that declares the token. -/
inductive Nearest : ConfigDefinition → String → PropertyDefinition → Prop where
  | own {d : ConfigDefinition} {token : String} {x : PropertyDefinition}
    (here : firstOf (·.mToken) d.mPropertyDefs token = some x) : Nearest d token x
  | inherited {d parent : ConfigDefinition} {token p : String} {x : PropertyDefinition}
    {before after : List String} (none : token ∉ d.mPropertyDefs.map (·.mToken))
    (parts : d.mParents = before ++ p :: after)
    (earlier : ∀ q ∈ before, ∀ e, repos.get q = some e → ¬ Declares repos e token)
    (found : repos.get p = some parent) (nearest : Nearest parent token x) : Nearest d token x

/-- The list names each token of the definition and its ancestors once, and the definition's
own property for its tokens. -/
structure WellFormed (d : ConfigDefinition) (defs : List PropertyDefinition) : Prop where
  distinct : (defs.map (·.mToken)).Nodup
  complete : ∀ token, token ∈ defs.map (·.mToken) ↔ Declares repos d token
  hides : ∀ own ∈ d.mPropertyDefs, ∀ x ∈ defs, x.mToken = own.mToken → x = own

/-- No definition declares a token twice, and the property that a parent has for a token equals
the one that hides it. -/
def Consistent (d : ConfigDefinition) : Prop :=
  ∀ e, Inherits repos d e → (e.mPropertyDefs.map (·.mToken)).Nodup ∧
    ∀ parent, repos.hierarchy.Parent parent e → ∀ token x y, Nearest repos parent token x →
      Nearest repos e token y → x.equals y = true

/-! ## The call returns -/

variable {repos}

/-- The parents that are in the repository. -/
def resolved (repos : ConfigDefinitionRepository) (d : ConfigDefinition) : List ConfigDefinition :=
  d.mParents.filterMap repos.get

theorem mem_resolved {d parent : ConfigDefinition} :
    parent ∈ resolved repos d ↔ repos.hierarchy.Parent parent d :=
  List.mem_filterMap

theorem returns_inheritFrom {lists : ConfigDefinition → List PropertyDefinition}
    {names : List String} (temp_list : List PropertyDefinition)
    (parents : ∀ parent ∈ names.filterMap repos.get,
      Returns (getPropertyDefinitions repos · parent) (lists parent)) :
    Returns (fun depth => inheritFrom repos (getPropertyDefinitions repos depth) names temp_list)
      (((names.filterMap repos.get).flatMap lists).foldl (addNew PropertyDefinition.equals)
        temp_list) := by
  induction names generalizing temp_list with
  | nil => exact .of_some temp_list
  | cons p rest ih =>
    simp only [inheritFrom]
    cases found : repos.get p with
    | none =>
      rw [List.filterMap_cons_none found] at parents ⊢
      exact ih temp_list parents
    | some parent =>
      rw [List.filterMap_cons_some found] at parents ⊢
      rw [List.flatMap_cons, List.foldl_append]
      apply Returns.bind (parents parent (List.mem_cons_self ..))
      exact ih _ fun e member => parents e (List.mem_cons_of_mem _ member)

theorem returns_getPropertyDefinitions {lists : ConfigDefinition → List PropertyDefinition}
    {d : ConfigDefinition} (parents : ∀ parent ∈ resolved repos d,
      Returns (getPropertyDefinitions repos · parent) (lists parent)) :
    Returns (getPropertyDefinitions repos · d)
      (((resolved repos d).flatMap lists).foldl (addNew PropertyDefinition.equals)
        d.mPropertyDefs) :=
  (returns_inheritFrom d.mPropertyDefs parents).congr fun _ => rfl

/-- What a definition has in front. -/
theorem isPrefix_inheritFrom {call : ConfigDefinition → Option (List PropertyDefinition)}
    {names : List String} {temp_list defs : List PropertyDefinition}
    (found : inheritFrom repos call names temp_list = some defs) : temp_list <+: defs := by
  induction names generalizing temp_list with
  | nil =>
    cases found
    exact List.prefix_rfl
  | cons p rest ih =>
    rw [inheritFrom] at found
    cases here : repos.get p with
    | none =>
      rw [here] at found
      exact ih found
    | some parent =>
      rw [here] at found
      obtain ⟨parent_defs, -, found⟩ := Option.bind_eq_some_iff.mp found
      exact isPrefix_foldl_addNew.trans (ih found)

theorem isPrefix_getPropertyDefinitions {depth : Nat} {d : ConfigDefinition}
    {defs : List PropertyDefinition} (found : getPropertyDefinitions repos depth d = some defs) :
    d.mPropertyDefs <+: defs := by
  cases depth with
  | zero => cases found
  | succ depth => exact isPrefix_inheritFrom found

theorem inheritFrom_mono {call call' : ConfigDefinition → Option (List PropertyDefinition)}
    (more : ∀ d defs, call d = some defs → call' d = some defs) {names : List String}
    {temp_list defs : List PropertyDefinition}
    (found : inheritFrom repos call names temp_list = some defs) :
    inheritFrom repos call' names temp_list = some defs := by
  induction names generalizing temp_list with
  | nil => exact found
  | cons p rest ih =>
    rw [inheritFrom] at found ⊢
    cases here : repos.get p with
    | none =>
      rw [here] at found
      exact ih found
    | some parent =>
      rw [here] at found
      obtain ⟨parent_defs, above, found⟩ := Option.bind_eq_some_iff.mp found
      exact Option.bind_eq_some_iff.mpr ⟨parent_defs, more parent parent_defs above, ih found⟩

/-- A deeper stack does not change the list. -/
theorem getPropertyDefinitions_mono {depth : Nat} {d : ConfigDefinition}
    {defs : List PropertyDefinition} (found : getPropertyDefinitions repos depth d = some defs) :
    getPropertyDefinitions repos (depth + 1) d = some defs := by
  induction depth generalizing d defs with
  | zero => cases found
  | succ depth ih => exact inheritFrom_mono (fun _ _ => ih) found

/-- Nothing is inherited just when each property of each parent equals an own one. -/
theorem inheritFrom_eq_own_iff {call : ConfigDefinition → Option (List PropertyDefinition)}
    {names : List String} {own : List PropertyDefinition} :
    inheritFrom repos call names own = some own ↔
      ∀ parent ∈ names.filterMap repos.get, ∃ defs, call parent = some defs ∧
        ∀ x ∈ defs, own.any x.equals = true := by
  induction names with
  | nil => simp [inheritFrom]
  | cons p rest ih =>
    rw [inheritFrom]
    cases here : repos.get p with
    | none =>
      rw [List.filterMap_cons_none here]
      exact ih
    | some parent =>
      rw [List.filterMap_cons_some here, List.forall_mem_cons, ← ih]
      constructor
      · intro found
        obtain ⟨defs, above, found⟩ := Option.bind_eq_some_iff.mp found
        have longer : own <+: defs.foldl (addNew PropertyDefinition.equals) own :=
          isPrefix_foldl_addNew
        -- what the first parent adds would stay
        have same : defs.foldl (addNew PropertyDefinition.equals) own = own :=
          (isPrefix_inheritFrom found).eq_of_length_le longer.length_le
        rw [same] at found
        exact ⟨⟨defs, above, foldl_addNew_eq_self_iff.mp same⟩, found⟩
      · rintro ⟨⟨defs, above, present⟩, found⟩
        apply Option.bind_eq_some_iff.mpr ⟨defs, above, _⟩
        rw [foldl_addNew_eq_self_iff.mpr present]
        exact found

/-- With a stack that is deep enough, each definition has its list. -/
theorem exists_lists (acyclic : repos.hierarchy.Acyclic) :
    ∃ lists : ConfigDefinition → List PropertyDefinition,
      (∀ d, Returns (getPropertyDefinitions repos · d) (lists d)) ∧
      ∀ d, lists d = ((resolved repos d).flatMap lists).foldl (addNew PropertyDefinition.equals)
        d.mPropertyDefs := by
  apply Returns.exists_of_wellFounded (ConfigDefinitionRepository.wellFounded_parent acyclic)
  intro lists d parents
  exact returns_getPropertyDefinitions fun parent member => parents parent (mem_resolved.mp member)

/-! ## What the lists hold -/

theorem token_respected (x y : PropertyDefinition) (equal : x.equals y = true) :
    x.mToken = y.mToken :=
  PropertyDefinition.token_of_equals equal

section Lists

variable {lists : ConfigDefinition → List PropertyDefinition}
  (wellFounded : WellFounded repos.hierarchy.Parent)
  (eq : ∀ d, lists d = ((resolved repos d).flatMap lists).foldl
    (addNew PropertyDefinition.equals) d.mPropertyDefs)
include eq

theorem own_in_front (d : ConfigDefinition) : d.mPropertyDefs <+: lists d := by
  rw [eq]
  exact isPrefix_foldl_addNew

theorem firstOf_lists (d : ConfigDefinition) (token : String) :
    firstOf (·.mToken) (lists d) token =
      firstOf (·.mToken) (d.mPropertyDefs ++ (resolved repos d).flatMap lists) token := by
  rw [eq]
  exact firstOf_foldl_addNew token_respected token

include wellFounded

/-- The list has the tokens of the definition and its ancestors. -/
theorem mem_tokens_iff (d : ConfigDefinition) (token : String) :
    token ∈ (lists d).map (·.mToken) ↔ Declares repos d token := by
  induction d using wellFounded.induction with
  | _ d ih =>
    rw [eq, mem_keys_foldl_addNew token_respected]
    constructor
    · rintro (own | inherited)
      · exact ⟨d, .refl, own⟩
      · obtain ⟨x, member, rfl⟩ := List.mem_map.mp inherited
        obtain ⟨parent, here, there⟩ := List.mem_flatMap.mp member
        have isParent := mem_resolved.mp here
        obtain ⟨e, inherits, declared⟩ := (ih parent isParent).mp (List.mem_map_of_mem there)
        exact ⟨e, .head isParent inherits, declared⟩
    · rintro ⟨e, inherits, declared⟩
      rcases Relation.ReflTransGen.cases_head inherits with rfl | ⟨parent, isParent, above⟩
      · exact .inl declared
      · right
        have known := (ih parent isParent).mpr ⟨e, above, declared⟩
        obtain ⟨x, member, same⟩ := List.mem_map.mp known
        apply List.mem_map.mpr ⟨x, _, same⟩
        exact List.mem_flatMap.mpr ⟨parent, mem_resolved.mpr isParent, member⟩

/-- The first property of a token is the one that hides the others. -/
theorem firstOf_iff_nearest (d : ConfigDefinition) (token : String) (x : PropertyDefinition) :
    firstOf (·.mToken) (lists d) token = some x ↔ Nearest repos d token x := by
  induction d using wellFounded.induction generalizing x with
  | _ d ih =>
    rw [firstOf_lists eq, firstOf_append]
    cases own : firstOf (·.mToken) d.mPropertyDefs token with
    | some y =>
      rw [Option.some_or]
      constructor
      · intro here
        exact .own (own.trans here)
      · intro nearest
        cases nearest with
        | own here => exact own.symm.trans here
        | inherited none =>
          -- an own property hides what is inherited
          exact absurd (own ▸ rfl) fun known => none (isSome_firstOf.mp known)
    | none =>
      have absent : token ∉ d.mPropertyDefs.map (·.mToken) := by
        rw [← isSome_firstOf, own]
        exact Bool.false_ne_true
      rw [Option.none_or, firstOf, List.find?_flatMap, resolved, ← List.head?_filterMap,
        List.filterMap_filterMap, List.head?_filterMap, List.findSome?_eq_some_iff]
      -- a parent has no property for the token just when it does not declare it
      have without (e : ConfigDefinition) :
          (lists e).find? (fun x => x.mToken = token) = none ↔ ¬ Declares repos e token := by
        rw [← mem_tokens_iff wellFounded eq, ← isSome_firstOf, firstOf]
        simp
      constructor
      · rintro ⟨before, p, after, parts, found, earlier⟩
        obtain ⟨parent, here, first⟩ := Option.bind_eq_some_iff.mp found
        have member : p ∈ d.mParents := parts ▸ List.mem_append_right _ (List.mem_cons_self ..)
        refine .inherited absent parts ?_ here ((ih parent ⟨p, member, here⟩ x).mp first)
        intro q front e there
        have none := earlier q front
        rw [there, Option.bind_some] at none
        exact (without e).mp none
      · intro nearest
        cases nearest with
        | own here =>
          rw [own] at here
          cases here
        | @inherited _ parent _ p _ before after _ parts earlier found nearest =>
          have member : p ∈ d.mParents := parts ▸ List.mem_append_right _ (List.mem_cons_self ..)
          refine ⟨before, p, after, parts, ?_, ?_⟩
          · rw [found, Option.bind_some]
            exact (ih parent ⟨p, member, found⟩ x).mpr nearest
          · intro q front
            cases there : repos.get q with
            | none => rfl
            | some e => exact (without e).mpr (earlier q front e there)

/-- The tokens of the list are distinct just when the definition's own are, and each inherited
property equals the one that hides it. -/
theorem distinct_lists_iff (d : ConfigDefinition) :
    ((lists d).map (·.mToken)).Nodup ↔ (d.mPropertyDefs.map (·.mToken)).Nodup ∧
      ∀ parent, repos.hierarchy.Parent parent d → ∀ x ∈ lists parent, ∀ y,
        Nearest repos d x.mToken y → x.equals y = true := by
  have hidden (token : String) (y : PropertyDefinition) :
      firstOf (·.mToken) (d.mPropertyDefs ++ (resolved repos d).flatMap lists) token = some y ↔
        Nearest repos d token y := by
    rw [← firstOf_lists eq]
    exact firstOf_iff_nearest wellFounded eq d token y
  rw [eq, nodup_foldl_addNew token_respected PropertyDefinition.equals_self]
  simp only [hidden]
  constructor
  · rintro ⟨own, inherited⟩
    refine ⟨own, fun parent isParent x member y nearest => inherited x ?_ y nearest⟩
    exact List.mem_flatMap.mpr ⟨parent, mem_resolved.mpr isParent, member⟩
  · rintro ⟨own, inherited⟩
    refine ⟨own, fun x member y nearest => ?_⟩
    obtain ⟨parent, here, there⟩ := List.mem_flatMap.mp member
    exact inherited parent (mem_resolved.mp here) x there y nearest

/-- A list with distinct tokens is as it should be. -/
theorem wellFormed_of_distinct {d : ConfigDefinition}
    (distinct : ((lists d).map (·.mToken)).Nodup) : WellFormed repos d (lists d) := by
  refine ⟨distinct, mem_tokens_iff wellFounded eq d, fun own member x here same => ?_⟩
  have there : own ∈ lists d := (own_in_front eq d).subset member
  exact List.inj_on_of_nodup_map distinct here there same

end Lists

theorem Consistent.parent {d parent : ConfigDefinition} (consistent : Consistent repos d)
    (isParent : repos.hierarchy.Parent parent d) : Consistent repos parent :=
  fun e inherits => consistent e (.head isParent inherits)

/-! ## Definitions with what they inherit from -/

/-- The lists of a definition and of all that it inherits from are well formed just when the
property that a parent has for a token always equals the one that hides it. -/
theorem wellFormed_iff (repos : ConfigDefinitionRepository) (acyclic : repos.hierarchy.Acyclic)
    (d : ConfigDefinition) :
    (∀ e, Inherits repos d e →
      ∃ defs, Returns (getPropertyDefinitions repos · e) defs ∧ WellFormed repos e defs) ↔
    Consistent repos d := by
  obtain ⟨lists, returns, eq⟩ := exists_lists acyclic
  have wellFounded := ConfigDefinitionRepository.wellFounded_parent acyclic
  constructor
  · intro all e inherits
    have distinct (f : ConfigDefinition) (inherits : Inherits repos d f) :
        ((lists f).map (·.mToken)).Nodup := by
      obtain ⟨defs, here, wellFormed⟩ := all f inherits
      rw [(returns f).unique here]
      exact wellFormed.distinct
    obtain ⟨own, inherited⟩ := (distinct_lists_iff wellFounded eq e).mp (distinct e inherits)
    refine ⟨own, fun parent isParent token x y first nearest => ?_⟩
    have found := (firstOf_iff_nearest wellFounded eq parent token x).mpr first
    apply inherited parent isParent x (mem_of_firstOf found)
    rwa [key_of_firstOf found]
  · intro consistent e inherits
    refine ⟨lists e, returns e, wellFormed_of_distinct wellFounded eq ?_⟩
    have distinct (f : ConfigDefinition) (consistent : Consistent repos f) :
        ((lists f).map (·.mToken)).Nodup := by
      induction f using wellFounded.induction with
      | _ f ih =>
        rw [distinct_lists_iff wellFounded eq]
        obtain ⟨own, inherited⟩ := consistent f .refl
        refine ⟨own, fun parent isParent x member y nearest => ?_⟩
        -- with distinct tokens, each property of the parent is its first one
        have first := firstOf_of_mem (ih parent isParent (consistent.parent isParent)) member
        exact inherited parent isParent x.mToken x y
          ((firstOf_iff_nearest wellFounded eq parent x.mToken x).mp first) nearest
    exact distinct e fun f above => consistent f (inherits.trans above)

/-- Properties of one token that are all equal hide each other. -/
theorem consistent_of_equal {d : ConfigDefinition}
    (own : ∀ e, Inherits repos d e → (e.mPropertyDefs.map (·.mToken)).Nodup)
    (equal : ∀ e f, Inherits repos d e → Inherits repos d f → ∀ x ∈ e.mPropertyDefs,
      ∀ y ∈ f.mPropertyDefs, x.mToken = y.mToken → x.equals y = true) :
    Consistent repos d := by
  have source {e : ConfigDefinition} {token : String} {x : PropertyDefinition}
      (nearest : Nearest repos e token x) :
      x.mToken = token ∧ ∃ f, Inherits repos e f ∧ x ∈ f.mPropertyDefs := by
    induction nearest with
    | own here => exact ⟨key_of_firstOf here, _, .refl, mem_of_firstOf here⟩
    | inherited _ parts _ found _ ih =>
      obtain ⟨token, f, above, member⟩ := ih
      refine ⟨token, f, .head ⟨_, ?_, found⟩ above, member⟩
      show _ ∈ ConfigDefinition.mParents _
      rw [parts]
      exact List.mem_append_right _ (List.mem_cons_self ..)
  intro e inherits
  refine ⟨own e inherits, fun parent isParent token x y first nearest => ?_⟩
  obtain ⟨tokenX, f, aboveX, memberX⟩ := source first
  obtain ⟨tokenY, g, aboveY, memberY⟩ := source nearest
  exact equal f g (inherits.trans (.head isParent aboveX)) (inherits.trans aboveY) x memberX y
    memberY (tokenX.trans tokenY.symm)

theorem mem_of_inherits {d e : ConfigDefinition} (inherits : Inherits repos d e) :
    e ∈ d :: repos.getAllLatest := by
  rcases Relation.ReflTransGen.cases_tail inherits with rfl | ⟨f, -, p, -, found⟩
  · exact List.mem_cons_self ..
  · apply List.mem_cons_of_mem
    rw [ConfigDefinitionRepository.mem_getAllLatest,
      ConfigDefinitionRepository.token_of_get found]
    exact found

def inputDevice : ConfigDefinition :=
  deviceDefinition "input_device" [] [textProperty "device_host" "The node of the device."]

def digitalDevice : ConfigDefinition := deviceDefinition "digital_device" ["input_device"] []

def positionDevice : ConfigDefinition :=
  deviceDefinition "position_device" ["input_device", "filtered"]
    [textProperty "position_filters" "The filters for positions."]

/-- Two devices with a common parent, and a parent that is not in the repository. -/
def devices : ConfigDefinitionRepository := .load [inputDevice, digitalDevice, positionDevice]

def glove : ConfigDefinition :=
  deviceDefinition "glove" ["digital_device", "position_device"]
    [textProperty "port" "The serial port."]

theorem acyclic_devices : devices.hierarchy.Acyclic :=
  ConfigDefinitionRepository.acyclic_of_latest
    (["input_device", "filtered", "digital_device", "position_device"].idxOf ·) (by decide)

theorem wellFormed_glove :
    ∃ defs, Returns (getPropertyDefinitions devices · glove) defs ∧
      WellFormed devices glove defs := by
  refine (wellFormed_iff devices acyclic_devices glove).mpr (consistent_of_equal ?_ ?_) glove .refl
  · intro e inherits
    have own : ∀ e ∈ glove :: devices.getAllLatest, (e.mPropertyDefs.map (·.mToken)).Nodup := by
      decide
    exact own e (mem_of_inherits inherits)
  · intro e f above there
    have equal : ∀ e ∈ glove :: devices.getAllLatest, ∀ f ∈ glove :: devices.getAllLatest,
        ∀ x ∈ e.mPropertyDefs, ∀ y ∈ f.mPropertyDefs, x.mToken = y.mToken → x.equals y = true := by
      decide
    exact equal e (mem_of_inherits above) f (mem_of_inherits there)

/-- The definition declares a property of its parent with another help text. -/
def localGlove : ConfigDefinition :=
  deviceDefinition "local_glove" ["input_device"]
    [textProperty "device_host" "The node where the glove is."]

/-- Both properties are listed. -/
theorem wellFormed_fails :
    devices.hierarchy.Acyclic ∧
      ∃ defs, Returns (getPropertyDefinitions devices · localGlove) defs ∧
        defs.map (·.mToken) = ["device_host", "device_host"] ∧
        ¬ WellFormed devices localGlove defs := by
  refine ⟨acyclic_devices, [textProperty "device_host" "The node where the glove is.",
    textProperty "device_host" "The node of the device."], ⟨2, fun depth enough => ?_⟩, rfl,
    fun wellFormed => ?_⟩
  · obtain ⟨depth, rfl⟩ := Nat.exists_eq_add_of_le' enough
    rfl
  · have distinct := wellFormed.distinct
    revert distinct
    decide

end VRJuggler.Config
