import VRJuggler.Config.InheritedProperties
import VRJuggler.ConfigIo.Documents

/-!
# Configuration elements

An element has a list of values for each property of its definition, and a value can be an
element itself. `equals` compares whole trees of elements, and takes two pointers for equal when
one of them has no target. Here elements are the same when a missing target is taken for an
empty one.
-/
namespace VRJuggler.ConfigIo

open Config

/-! ## Elements -/

inductive Value (ε : Type) where
  | null
  | object (object : ValueObject)
  | element (element : ε)

/-- `mProps`: the entries of the map from tokens to values. -/
structure ConfigElement where
  mName : String
  mDefinition : ConfigDefinition
  mProps : List (String × List (Value ConfigElement))

mutual

def ConfigElement.equals : ConfigElement → ConfigElement → Bool
  | ⟨mName, mDefinition, mProps⟩, c =>
    mName = c.mName && mDefinition.equals c.mDefinition &&
      (mProps.length = c.mProps.length && equalProps mProps c.mProps)

def equalProps : List (String × List (Value ConfigElement)) →
    List (String × List (Value ConfigElement)) → Bool
  | [], _ => true
  | p :: rest, mProps => equalProp p mProps && equalProps rest mProps

def equalProp : String × List (Value ConfigElement) →
    List (String × List (Value ConfigElement)) → Bool
  | (token, values), mProps =>
    match mProps.lookup token with
    | none => false
    | some others => equalValues values others

def equalValues : List (Value ConfigElement) → List (Value ConfigElement) → Bool
  | [], [] => true
  | value :: values, other :: others => equalValue value other && equalValues values others
  | _, _ => false

def equalValue : Value ConfigElement → Value ConfigElement → Bool
  | .null, .null => true
  | .object v, .object w => v.value.equals w.value
  | .element e, .element c => e.equals c
  | _, _ => false

end

theorem equalProps_iff {mProps others : List (String × List (Value ConfigElement))} :
    equalProps mProps others = true ↔
      ∀ p ∈ mProps, ∃ ws, others.lookup p.1 = some ws ∧ equalValues p.2 ws = true := by
  induction mProps with
  | nil => simp [equalProps]
  | cons p rest ih =>
    have first : equalProp p others = true ↔
        ∃ ws, others.lookup p.1 = some ws ∧ equalValues p.2 ws = true := by
      obtain ⟨token, values⟩ := p
      rw [equalProp]
      cases others.lookup token with
      | none => simp
      | some ws => simp
    rw [equalProps, Bool.and_eq_true, first, ih, List.forall_mem_cons]

theorem equalValues_iff {values others : List (Value ConfigElement)} :
    equalValues values others = true ↔
      List.Forall₂ (fun v w => equalValue v w = true) values others := by
  induction values generalizing others with
  | nil =>
    cases others with
    | nil => simp [equalValues]
    | cons w ws => simp [equalValues]
  | cons v vs ih =>
    cases others with
    | nil => simp [equalValues]
    | cons w ws => rw [equalValues, Bool.and_eq_true, ih, List.forall₂_cons]

/-! ## The same elements -/

/-- The value with an empty target for a missing one. -/
def filled : SimpleValue → SimpleValue
  | .pointer none => .pointer (some "")
  | value => value

/-- The same values, where `R` tells which elements are the same. -/
inductive SameValue (R : ConfigElement → ConfigElement → Prop) :
    Value ConfigElement → Value ConfigElement → Prop where
  | null : SameValue R .null .null
  | object {v w : ValueObject} (same : filled v.value = filled w.value) :
    SameValue R (.object v) (.object w)
  | element {e c : ConfigElement} (same : R e c) : SameValue R (.element e) (.element c)

/-- The elements agree up to this depth of embedded elements. -/
def SameTo : Nat → ConfigElement → ConfigElement → Prop
  | 0, _, _ => True
  | depth + 1, e, c =>
    e.mName = c.mName ∧ e.mDefinition = c.mDefinition ∧
      ∀ token, Option.Rel (List.Forall₂ (SameValue (SameTo depth)))
        (e.mProps.lookup token) (c.mProps.lookup token)

/-- The same name, definition and values at every depth. -/
def Same (e c : ConfigElement) : Prop := ∀ depth, SameTo depth e c

theorem sameValue_forall {ι : Type} [Nonempty ι] {R : ι → ConfigElement → ConfigElement → Prop}
    {v w : Value ConfigElement} :
    (∀ i, SameValue (R i) v w) ↔ SameValue (fun e c => ∀ i, R i e c) v w := by
  constructor
  · intro all
    cases all (Classical.arbitrary ι) with
    | null => exact .null
    | object same => exact .object same
    | element =>
      apply SameValue.element
      intro i
      cases all i with
      | element same => exact same
  · intro same i
    cases same with
    | null => exact .null
    | object same => exact .object same
    | element same => exact .element (same i)

/-- Elements are the same when their values are. -/
theorem same_iff {e c : ConfigElement} :
    Same e c ↔ e.mName = c.mName ∧ e.mDefinition = c.mDefinition ∧
      ∀ token, Option.Rel (List.Forall₂ (SameValue Same))
        (e.mProps.lookup token) (c.mProps.lookup token) := by
  have deeper : Same e c ↔ ∀ depth, SameTo (depth + 1) e c := by
    constructor
    · exact fun same depth => same (depth + 1)
    · intro same depth
      cases depth with
      | zero => trivial
      | succ depth => exact same depth
  have values : SameValue Same = fun v w => ∀ depth, SameValue (SameTo depth) v w := by
    funext v w
    exact propext sameValue_forall.symm
  rw [deeper]
  simp only [SameTo, forall_and, forall_const, values]
  rw [forall_comm]
  simp only [rel_forall, forall₂_forall]

theorem SameValue.symm {R S : ConfigElement → ConfigElement → Prop} {v w : Value ConfigElement}
    (flip : ∀ e c, R e c → S c e) (same : SameValue R v w) : SameValue S w v := by
  cases same with
  | null => exact .null
  | object same => exact .object same.symm
  | element same => exact .element (flip _ _ same)

theorem SameValue.trans {R : ConfigElement → ConfigElement → Prop} {v w x : Value ConfigElement}
    (chain : ∀ e c d, R e c → R c d → R e d) (left : SameValue R v w)
    (right : SameValue R w x) : SameValue R v x := by
  cases left with
  | null => exact right
  | object left =>
    cases right with
    | object right => exact .object (left.trans right)
  | element left =>
    cases right with
    | element right => exact .element (chain _ _ _ left right)

theorem Same.symm {e c : ConfigElement} (same : Same e c) : Same c e := by
  have flip (depth : Nat) : ∀ e c, SameTo depth e c → SameTo depth c e := by
    induction depth with
    | zero => exact fun _ _ _ => trivial
    | succ depth ih =>
      intro e c agree
      obtain ⟨name, definition, values⟩ := agree
      refine ⟨name.symm, definition.symm, fun token => ?_⟩
      have here := values token
      generalize e.mProps.lookup token = vs, c.mProps.lookup token = ws at here
      cases here with
      | none => exact .none
      | some here => exact .some (here.flip.imp fun _ _ same => same.symm ih)
  exact fun depth => flip depth e c (same depth)

theorem Same.trans {e c d : ConfigElement} (left : Same e c) (right : Same c d) : Same e d := by
  have chain (depth : Nat) :
      ∀ e c d, SameTo depth e c → SameTo depth c d → SameTo depth e d := by
    induction depth with
    | zero => exact fun _ _ _ _ _ => trivial
    | succ depth ih =>
      intro e c d left right
      obtain ⟨name, definition, values⟩ := left
      obtain ⟨name', definition', values'⟩ := right
      refine ⟨name.trans name', definition.trans definition', fun token => ?_⟩
      have here := values token
      have there := values' token
      generalize e.mProps.lookup token = us, c.mProps.lookup token = vs,
        d.mProps.lookup token = ws at here there
      cases here with
      | none => exact there
      | some here =>
        cases there with
        | some there =>
          exact .some (forall₂_trans (fun _ _ _ left right => left.trans ih right) here there)
  exact fun depth => chain depth e c d (left depth) (right depth)

/-! ## Equal elements -/

/-- All pointers have targets, and all definitions are the newest of the repository. -/
inductive Settled (repos : ConfigDefinitionRepository) : ConfigElement → Prop where
  | mk {e : ConfigElement} (newest : repos.get e.mDefinition.mToken = some e.mDefinition)
    (distinct : (e.mProps.map Prod.fst).Nodup)
    (targets : ∀ p ∈ e.mProps, ∀ v : ValueObject, .object v ∈ p.2 → v.value ≠ .pointer none)
    (embedded : ∀ p ∈ e.mProps, ∀ c : ConfigElement, .element c ∈ p.2 → Settled repos c) :
    Settled repos e

theorem equals_iff_filled {v w : SimpleValue} (left : v ≠ .pointer none)
    (right : w ≠ .pointer none) : v.equals w = true ↔ filled v = filled w := by
  have keeps {x : SimpleValue} (target : x ≠ .pointer none) : filled x = x := by
    match x, target with
    | .pointer none, target => exact absurd rfl target
    | .pointer (some _), _ => rfl
    | .boolean _, _ => rfl
    | .integer _, _ => rfl
    | .float _, _ => rfl
    | .string _, _ => rfl
  rw [keeps left, keeps right]
  match v, w, left, right with
  | .pointer none, _, left, _ => exact absurd rfl left
  | .pointer (some _), .pointer none, _, right => exact absurd rfl right
  | .pointer (some _), .pointer (some _), _, _ => simp [SimpleValue.equals]
  | .boolean _, _, _, _ => simp [SimpleValue.equals]
  | .integer _, _, _, _ => simp [SimpleValue.equals]
  | .float _, _, _, _ => simp [SimpleValue.equals]
  | .string _, _, _, _ => simp [SimpleValue.equals]
  | .pointer (some _), .boolean _, _, _ => simp [SimpleValue.equals]
  | .pointer (some _), .integer _, _, _ => simp [SimpleValue.equals]
  | .pointer (some _), .float _, _, _ => simp [SimpleValue.equals]
  | .pointer (some _), .string _, _, _ => simp [SimpleValue.equals]

theorem equalValue_iff {R : ConfigElement → ConfigElement → Prop} {v w : Value ConfigElement}
    (objects : ∀ a b, v = .object a → w = .object b →
      (a.value.equals b.value = true ↔ filled a.value = filled b.value))
    (elements : ∀ e c, v = .element e → w = .element c → (e.equals c = true ↔ R e c)) :
    equalValue v w = true ↔ SameValue R v w := by
  constructor
  · intro equal
    cases v with
    | null =>
      cases w with
      | null => exact .null
      | _ => simp [equalValue] at equal
    | object a =>
      cases w with
      | object b =>
        rw [equalValue] at equal
        exact .object ((objects a b rfl rfl).mp equal)
      | _ => simp [equalValue] at equal
    | element e =>
      cases w with
      | element c =>
        rw [equalValue] at equal
        exact .element ((elements e c rfl rfl).mp equal)
      | _ => simp [equalValue] at equal
  · intro same
    cases same with
    | null => rw [equalValue]
    | object same =>
      rw [equalValue]
      exact (objects _ _ rfl rfl).mpr same
    | element same =>
      rw [equalValue]
      exact (elements _ _ rfl rfl).mpr same

variable {repos : ConfigDefinitionRepository}

/-- Where the pointers have targets, `equals` tells which elements are the same. -/
theorem Settled.equals_iff {e c : ConfigElement} (left : Settled repos e)
    (right : Settled repos c) : e.equals c = true ↔ Same e c := by
  induction left generalizing c with
  | @mk e newest distinct targets embedded ih =>
    cases right with
    | mk newest' distinct' targets' embedded' =>
      have definitions : e.mDefinition.equals c.mDefinition = true ↔
          e.mDefinition = c.mDefinition := by
        constructor
        · intro equal
          have token := ConfigDefinition.token_of_equals equal
          rw [token, newest'] at newest
          exact (Option.some.inj newest).symm
        · intro same
          rw [same]
          exact ConfigDefinition.equals_self _
      have values (p : String × List (Value ConfigElement)) (here : p ∈ e.mProps)
          (ws : List (Value ConfigElement)) (there : c.mProps.lookup p.1 = some ws) :
          equalValues p.2 ws = true ↔ List.Forall₂ (SameValue Same) p.2 ws := by
        rw [equalValues_iff]
        apply forall₂_congr_mem
        intro v inLeft w inRight
        apply equalValue_iff
        · rintro v w rfl rfl
          exact equals_iff_filled (targets p here v inLeft)
            (targets' _ (mem_of_lookup there) w inRight)
        · rintro d d' rfl rfl
          exact ih p here d inLeft (embedded' _ (mem_of_lookup there) d' inRight)
      rw [same_iff, ← rel_lookup_iff distinct distinct']
      cases e with
      | mk mName mDefinition mProps =>
        rw [ConfigElement.equals, Bool.and_eq_true, Bool.and_eq_true, Bool.and_eq_true,
          decide_eq_true_iff, decide_eq_true_iff, equalProps_iff, definitions, and_assoc]
        refine and_congr_right fun _ => and_congr_right fun _ => and_congr_right fun _ => ?_
        refine forall₂_congr fun p here => exists_congr fun ws => and_congr_right fun there => ?_
        exact values p here ws there

/-! ## Configurations -/

/-- No file is included twice, and no directory is in the path twice. -/
structure Configuration where
  mName : String
  mIncludes : List String
  mDefinitionPath : List String
  mElements : List ConfigElement
  includes_nodup : mIncludes.Nodup
  path_nodup : mDefinitionPath.Nodup

namespace Configuration

def new (name : String) : Configuration := ⟨name, [], [], [], .nil, .nil⟩

variable (config : Configuration)

def addInclude (filename : String) : Except Thrown Configuration :=
  if new : filename ∈ config.mIncludes then
    .error (.illegalArgument ("Configuration is already included: " ++ filename))
  else
    .ok { config with
      mIncludes := config.mIncludes ++ [filename]
      includes_nodup := by
        rw [List.nodup_append_comm]
        exact List.nodup_cons.mpr ⟨new, config.includes_nodup⟩ }

def addDefinitionPath (dir : String) : Except Thrown Configuration :=
  if new : dir ∈ config.mDefinitionPath then
    .error (.illegalArgument "Directory is already in the path.")
  else
    .ok { config with
      mDefinitionPath := config.mDefinitionPath ++ [dir]
      path_nodup := by
        rw [List.nodup_append_comm]
        exact List.nodup_cons.mpr ⟨new, config.path_nodup⟩ }

/-- An element that equals one of the configuration is not added. -/
def addElement (elt : ConfigElement) : Except Thrown Configuration :=
  if config.mElements.any elt.equals then
    .error (.illegalArgument ("Element '" ++ elt.mName ++ "' (type " ++ elt.mDefinition.mToken ++
      ") is already a part of this configuration."))
  else .ok { config with mElements := config.mElements ++ [elt] }

variable {config}

/-- Files that are not included yet can all be included. -/
theorem foldlM_addInclude {files : List String} (new : (config.mIncludes ++ files).Nodup) :
    ∃ loaded : Configuration, files.foldlM addInclude config = .ok loaded ∧
      loaded.mName = config.mName ∧ loaded.mIncludes = config.mIncludes ++ files ∧
      loaded.mDefinitionPath = config.mDefinitionPath ∧
      loaded.mElements = config.mElements := by
  induction files generalizing config with
  | nil => exact ⟨config, rfl, rfl, (List.append_nil _).symm, rfl, rfl⟩
  | cons file rest ih =>
    have first : file ∉ config.mIncludes := fun member =>
      (List.nodup_append.mp new).2.2 file member file (List.mem_cons_self ..) rfl
    obtain ⟨next, added, same, including, keeping, holding⟩ : ∃ next : Configuration,
        config.addInclude file = .ok next ∧ next.mName = config.mName ∧
        next.mIncludes = config.mIncludes ++ [file] ∧
        next.mDefinitionPath = config.mDefinitionPath ∧ next.mElements = config.mElements :=
      ⟨_, dif_neg first, rfl, rfl, rfl, rfl⟩
    have later : (next.mIncludes ++ rest).Nodup := by
      rw [including, List.append_assoc]
      exact new
    obtain ⟨loaded, ok, name, includes, path, elements⟩ := ih later
    refine ⟨loaded, ?_, name.trans same, ?_, path.trans keeping, elements.trans holding⟩
    · rw [List.foldlM_cons, added]
      exact ok
    · rw [includes, including, List.append_assoc]
      rfl

/-- All elements are added when none equals an element before it. -/
theorem foldlM_addElement_eq_ok {elts : List ConfigElement} {loaded : Configuration} :
    elts.foldlM addElement config = .ok loaded ↔
      loaded = { config with mElements := config.mElements ++ elts } ∧
      (∀ elt ∈ elts, config.mElements.any elt.equals = false) ∧
      elts.Pairwise fun x elt => elt.equals x = false := by
  induction elts generalizing config with
  | nil =>
    rw [List.foldlM_nil, List.append_nil]
    constructor
    · intro ok
      cases ok
      exact ⟨rfl, fun _ member => absurd member List.not_mem_nil, .nil⟩
    · rintro ⟨rfl, -, -⟩
      rfl
  | cons elt rest ih =>
    rw [List.foldlM_cons]
    by_cases equal : config.mElements.any elt.equals = true
    · have refused : config.addElement elt = .error _ := if_pos equal
      rw [refused]
      constructor
      · intro ok
        cases ok
      · rintro ⟨-, none, -⟩
        rw [none elt (List.mem_cons_self ..)] at equal
        cases equal
    · have added : config.addElement elt = .ok _ := if_neg equal
      rw [added]
      show rest.foldlM addElement _ = _ ↔ _
      rw [ih, List.append_assoc, List.singleton_append, List.pairwise_cons, List.forall_mem_cons]
      simp only [List.any_append, List.any_cons, List.any_nil, Bool.or_false, Bool.or_eq_false_iff,
        Bool.not_eq_true] at equal ⊢
      simp only [equal, true_and, forall_and]
      tauto

end Configuration

end VRJuggler.ConfigIo
