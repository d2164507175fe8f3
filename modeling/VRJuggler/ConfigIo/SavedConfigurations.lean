import VRJuggler.ConfigIo.SavedElements

/-!
# Configurations that are saved and loaded

The definition path of a configuration is not written, and elements that are equal cannot be
loaded into one configuration. All else is kept just when the values of the elements are.
-/
namespace VRJuggler.ConfigIo

open Config Throwing

section Configurations

variable (floats : FloatText) (transform : Nat → Element → Option (Element × List Element))
  (definitionsIn : String → List ConfigDefinition) (repos : ConfigDefinitionRepository)

/-- The configuration is written, and what is written is read as the same configuration. -/
def Lossless (config : Configuration) : Prop :=
  ∃ document loaded, Ends (writeConfiguration floats repos · config) (.ok document) ∧
    Ends (parseConfiguration floats transform repos definitionsIn · document) (.ok loaded) ∧
    loaded.mName = config.mName ∧ loaded.mIncludes = config.mIncludes ∧
    loaded.mDefinitionPath = config.mDefinitionPath ∧
    List.Forall₂ Same config.mElements loaded.mElements

variable {floats transform definitionsIn repos}

/-- Where nothing is created by upgrades, one round is enough. -/
theorem parseElementLists_ends {nodes : List Element} {elts : List ConfigElement}
    (read : List.Forall₂ (fun node c =>
      Ends (parse floats transform repos · node) (.ok (c, []))) nodes elts) :
    Ends (fun depth => parseElementLists floats transform repos depth depth nodes) (.ok elts) := by
  have results : List.Forall₂ (fun node r => Ends (parse floats transform repos · node) (.ok r))
      nodes (elts.map fun c => (c, [])) := by
    rw [List.forall₂_map_right_iff]
    exact read
  obtain ⟨deep, ends⟩ := Ends.mapM results
  refine ⟨deep + 2, fun depth enough => ?_⟩
  obtain ⟨k, rfl⟩ := Nat.exists_eq_add_of_le' enough
  cases nodes with
  | nil =>
    cases read
    rfl
  | cons node rest =>
    have round := ends (k + (deep + 2)) (by omega)
    have more : (elts.map fun c => (c, ([] : List Element))).flatMap (·.2) = [] := by simp
    have all : (elts.map fun c => (c, ([] : List Element))).map (·.1) = elts := by
      rw [List.map_map]
      exact List.map_id _
    have rounds : k + (deep + 2) = k + deep + 1 + 1 := by omega
    show parseElementLists floats transform repos (k + (deep + 2)) (k + (deep + 2)) _ = _
    rw [rounds] at round ⊢
    rw [parseElementLists, List.isEmpty_cons, if_neg Bool.false_ne_true]
    refine bind_eq_ok.mpr ⟨_, round, bind_eq_ok.mpr ⟨[], ?_, ?_⟩⟩
    · rw [more]
      rfl
    · rw [all, List.append_nil]
      rfl

/-- What is written for the elements and what is read for it. -/
theorem exists_nodes (floats : FloatText)
    (transform : Nat → Element → Option (Element × List Element)) {elts : List ConfigElement}
    (fits : ∀ e ∈ elts, Fits repos e) (once : ∀ e ∈ elts, WrittenOnce repos e) :
    ∃ nodes loaded, List.Forall₂ (fun e node => Ends (addElement floats repos · e) (.ok node))
        elts nodes ∧
      List.Forall₂ (fun node c => Ends (parse floats transform repos · node) (.ok (c, [])))
        nodes loaded ∧
      List.Forall₂ (fun e c => (Same e c ↔ Storable floats repos e) ∧
        (Storable floats repos e → Settled repos c)) elts loaded := by
  induction elts with
  | nil => exact ⟨[], [], .nil, .nil, .nil⟩
  | cons e rest ih =>
    obtain ⟨nodes, loaded, written, read, same⟩ :=
      ih (fun e member => fits e (List.mem_cons_of_mem _ member))
        fun e member => once e (List.mem_cons_of_mem _ member)
    have first : Passes floats transform repos e :=
      (fits e (List.mem_cons_self ..)).passes (once e (List.mem_cons_self ..))
    obtain ⟨node, c, here, there, equal, settled⟩ := first
    exact ⟨node :: nodes, c :: loaded, .cons here written, .cons there read,
      .cons ⟨equal, settled⟩ same⟩

theorem filter_include (files : List String) (nodes : List Element) :
    (files.map (cfgElement "include" · []) ++ [cfgElement "elements" "" nodes]).filter
      (Element.isNamed cfgNs "include") = files.map (cfgElement "include" · []) := by
  have other : (cfgElement "elements" "" nodes).isNamed cfgNs "include" = false :=
    isNamed_of_ne (by decide) _ (isNamed_cfgElement ..)
  rw [List.filter_append, List.filter_cons_of_neg (by rw [other]; exact Bool.false_ne_true),
    List.filter_nil, List.append_nil, List.filter_eq_self]
  intro node member
  obtain ⟨file, -, rfl⟩ := List.mem_map.mp member
  exact isNamed_cfgElement ..

/-- Of the children only the last has another name. -/
theorem find?_append_elements (name : String) (ne : name ≠ "include") (files : List String)
    (nodes : List Element) :
    (files.map (cfgElement "include" · []) ++ [cfgElement "elements" "" nodes]).find?
      (Element.isNamed cfgNs name) =
      if name = "elements" then some (cfgElement "elements" "" nodes) else none := by
  have none : (files.map (cfgElement "include" · [])).find? (Element.isNamed cfgNs name) =
      none := by
    rw [List.find?_eq_none]
    intro node member
    obtain ⟨file, -, rfl⟩ := List.mem_map.mp member
    rw [isNamed_of_ne (Ne.symm ne) _ (isNamed_cfgElement ..)]
    exact Bool.false_ne_true
  rw [List.find?_append, none, Option.none_or]
  split
  next same =>
    rw [same, List.find?_cons_of_pos (isNamed_cfgElement ..)]
  next other =>
    have absent : (cfgElement "elements" "" nodes).isNamed cfgNs name = false :=
      isNamed_of_ne (Ne.symm other) _ (isNamed_cfgElement ..)
    rw [List.find?_cons_of_neg (by rw [absent]; exact Bool.false_ne_true), List.find?_nil]

/-- The document that is written, and what becomes of it: the elements are added to a
configuration without definition path. -/
theorem exists_document (definitionsIn : String → List ConfigDefinition) {config : Configuration}
    (includes : ∀ file ∈ config.mIncludes, Tidy file) {nodes : List Element}
    {elts : List ConfigElement}
    (written : List.Forall₂ (fun e node => Ends (addElement floats repos · e) (.ok node))
      config.mElements nodes)
    (read : List.Forall₂ (fun node c => Ends (parse floats transform repos · node) (.ok (c, [])))
      nodes elts) :
    ∃ document base, Ends (writeConfiguration floats repos · config) (.ok document) ∧
      Ends (parseConfiguration floats transform repos definitionsIn · document)
        (elts.foldlM Configuration.addElement base) ∧
      base.mName = config.mName ∧ base.mIncludes = config.mIncludes ∧ base.mDefinitionPath = [] ∧
      base.mElements = [] := by
  obtain ⟨base, added, name, including, path, elements⟩ :=
    @Configuration.foldlM_addInclude (.new config.mName) config.mIncludes config.includes_nodup
  have texts : (config.mIncludes.map (cfgElement "include" · [])).map (·.text) =
      config.mIncludes := by
    rw [List.map_map]
    have same : config.mIncludes.map (fun file => (cfgElement "include" file []).text) =
        config.mIncludes.map id :=
      List.map_congr_left fun file member => (includes file member).1
    exact same.trans (List.map_id _)
  refine ⟨_, base, (Ends.mapM written).map _, ?_, name, including, path, elements⟩
  generalize here : ({ cfgElement "configuration" "" (config.mIncludes.map
      (cfgElement "include" · []) ++ [cfgElement "elements" "" nodes]) with
    attributes := [("name", config.mName),
      ("xsi:schemaLocation", cfgNs ++ " " ++ cfgNs ++ ".xsd")] } : Element) = document
  have root : document.name = "configuration" := by rw [← here]; rfl
  have named : document.getAttributeValue "name" = some config.mName := by rw [← here]; rfl
  have files : document.getChildren "include" cfgNs =
      config.mIncludes.map (cfgElement "include" · []) := by
    rw [← here]
    exact filter_include _ _
  have noPath : document.getChild "definition_path" cfgNs = none := by
    rw [← here]
    exact find?_append_elements "definition_path" (by decide) _ _
  have list : document.getChild "elements" cfgNs = some (cfgElement "elements" "" nodes) := by
    rw [← here]
    exact find?_append_elements "elements" (by decide) _ _
  have eq (depth : Nat) : parseConfiguration floats transform repos definitionsIn depth document =
      (do
        let config_elts ← parseElementLists floats transform repos depth depth nodes
        ExceptT.mk (some (config_elts.foldlM Configuration.addElement base))) := by
    simp only [parseConfiguration, root, named, files, texts, noPath, list, orThrow_some,
      pure_bind, added, parseElements]
    rfl
  simp only [eq]
  exact (parseElementLists_ends read).ok_bind (.of_except _)

section Loading

variable {config : Configuration} (includes : ∀ file ∈ config.mIncludes, Tidy file)
  (fits : ∀ e ∈ config.mElements, Fits repos e)
  (once : ∀ e ∈ config.mElements, WrittenOnce repos e)

omit includes fits once in
/-- Of elements that are the same as others, `equals` tells whether those are the same. -/
theorem pairwise_same_iff {xs ys : List ConfigElement}
    (related : List.Forall₂ (fun e c => Same e c ∧ Settled repos c) xs ys) :
    (xs.Pairwise fun e c => ¬ Same e c) ↔ ys.Pairwise fun x elt => elt.equals x = false := by
  apply pairwise_iff_of_forall₂ related
  rintro a b x y ⟨left, settledX⟩ ⟨right, settledY⟩
  rw [← Bool.not_eq_true, settledY.equals_iff settledX, not_iff_not]
  constructor
  · intro same
    exact right.symm.trans (same.symm.trans left)
  · intro same
    exact left.trans (same.symm.trans right.symm)

include includes fits once

/-- The definition path is lost, and so are values that are taken for others and equal
elements. -/
theorem Lossless.kept (lossless : Lossless floats transform definitionsIn repos config) :
    config.mDefinitionPath = [] ∧ (∀ e ∈ config.mElements, Storable floats repos e) ∧
      config.mElements.Pairwise fun e c => ¬ Same e c := by
  obtain ⟨nodes, elts, written, read, passes⟩ := exists_nodes floats transform fits once
  obtain ⟨document, base, saved, loaded, -, -, noPath, none⟩ :=
    exists_document definitionsIn includes written read
  obtain ⟨document', config', saved', loaded', -, -, path, same⟩ := lossless
  obtain rfl := Except.ok.inj (saved.unique saved')
  have added := loaded.unique loaded'
  rw [Configuration.foldlM_addElement_eq_ok] at added
  obtain ⟨rfl, -, distinct⟩ := added
  rw [none, List.nil_append] at same
  have each := forall₂_and same passes
  have related : List.Forall₂ (fun e c => Same e c ∧ Settled repos c) config.mElements elts := by
    refine each.imp ?_
    rintro e c ⟨equal, both, settled⟩
    exact ⟨equal, settled (both.mp equal)⟩
  refine ⟨path.symm.trans noPath, fun e member => ?_, (pairwise_same_iff related).mpr distinct⟩
  obtain ⟨c, -, equal, both, -⟩ := exists_right_of_forall₂ each member
  exact both.mp equal

/-- A configuration without definition path is saved and loaded when the values of its elements
are kept and no two elements are the same. Nothing else is. -/
theorem lossless_iff : Lossless floats transform definitionsIn repos config ↔
    config.mDefinitionPath = [] ∧ (∀ e ∈ config.mElements, Storable floats repos e) ∧
      config.mElements.Pairwise fun e c => ¬ Same e c := by
  constructor
  · exact Lossless.kept includes fits once
  · rintro ⟨noPath, storable, distinct⟩
    obtain ⟨nodes, elts, written, read, passes⟩ := exists_nodes floats transform fits once
    obtain ⟨document, base, saved, loaded, name, including, path, none⟩ :=
      exists_document definitionsIn includes written read
    have each : List.Forall₂ (fun e c => Same e c ∧ Settled repos c) config.mElements elts := by
      refine ((List.forall₂_and_left _ _).mpr ⟨storable, passes⟩).imp ?_
      rintro e c ⟨kept, both, settled⟩
      exact ⟨both.mpr kept, settled kept⟩
    have added : elts.foldlM Configuration.addElement base =
        .ok { base with mElements := base.mElements ++ elts } := by
      rw [Configuration.foldlM_addElement_eq_ok]
      refine ⟨rfl, fun elt _ => ?_, (pairwise_same_iff each).mp distinct⟩
      rw [none, List.any_nil]
    rw [added] at loaded
    refine ⟨document, _, saved, loaded, name, including, path.trans noPath.symm, ?_⟩
    rw [none]
    exact each.imp fun _ _ here => here.1

end Loading

end Configurations

/-! ## Rooms with lights -/

/-- Floats as the decimal numbers of their bits. -/
def bitTexts : FloatText where
  toText := Nat.repr
  parse text := parseDigits text.toList
  parse_toText bits := by rw [Nat.toList_repr, parseDigits_toDigits]
  tidy bits := tidy_repr bits

def sizeProperty (label : String) (value : Int) : PropertyDefinition :=
  { textProperty "size" "The sizes of the bulbs." with
    mType := .integer
    mEnums := SortedMap.empty.insert label (some ⟨1, .integer value⟩)
    mVariable := true }

def light (label : String) (value : Int) : ConfigDefinition :=
  deviceDefinition "light" [] [sizeProperty label value]

def lampProperty : PropertyDefinition :=
  { textProperty "lamp" "The light." with
    mType := .configElement
    mPropValueDefs := [{ mLabel := "Lamp", mDefaultValue := none }]
    mAllowedTypes := ["light"] }

def room : ConfigDefinition := deviceDefinition "room" [] [lampProperty]

def rooms (label : String) (value : Int) : ConfigDefinitionRepository :=
  .load [light label value, room]

/-- One bulb has the size of the label, and another one the size 1. -/
def bulbs (label : String) (value : Int) : ConfigElement :=
  ⟨"bulbs", light label value, [("size", [.object ⟨1, .integer value⟩, .object ⟨0, .integer 1⟩])]⟩

def kitchen (label : String) (value : Int) : ConfigElement :=
  ⟨"kitchen", room, [("lamp", [.element (bulbs label value)])]⟩

def home (label : String) (value : Int) : Configuration :=
  { Configuration.new "home" with
    mIncludes := ["devices.jconf"]
    mElements := [kitchen label value]
    includes_nodup := by decide }

/-- A configuration that names a directory with definitions. -/
def searchedHome : Configuration :=
  { home "Small" 5 with
    mDefinitionPath := ["definitions"]
    path_nodup := by decide }

theorem returns_light (label : String) (value : Int) :
    Returns (getPropertyDefinitions (rooms label value) · (light label value))
      [sizeProperty label value] := by
  refine ⟨1, fun depth enough => ?_⟩
  obtain ⟨k, rfl⟩ := Nat.exists_eq_add_of_le' enough
  rfl

theorem returns_room (label : String) (value : Int) :
    Returns (getPropertyDefinitions (rooms label value) · room) [lampProperty] := by
  refine ⟨1, fun depth enough => ?_⟩
  obtain ⟨k, rfl⟩ := Nat.exists_eq_add_of_le' enough
  rfl

theorem find_sizeProperty {label text : String} {value : Int} {found : Option ValueObject}
    (here : (sizeProperty label value).mEnums.find text = some found) :
    text = label ∧ found = some ⟨1, .integer value⟩ := by
  have member := SortedMap.mem_entries_of_find here
  simpa [sizeProperty, SortedMap.insert, SortedMap.insertEntry, SortedMap.empty] using member

section Home

variable {label : String} {value : Int} (tidy : Tidy label) (fits : Int32 value)
  (newestLight : (rooms label value).get "light" = some (light label value))
  (newestRoom : (rooms label value).get "room" = some room)

include tidy fits newestLight in
theorem fits_bulbs : Fits (rooms label value) (bulbs label value) := by
  refine .mk newestLight ?_ (returns_light label value) ?_ ?_ ?_ ?_ ?_
  · show Int32 1
    decide
  · intro d member text found here
    rw [List.mem_singleton] at member
    subst member
    obtain ⟨rfl, rfl⟩ := find_sizeProperty here
    refine ⟨tidy, fun v same => ?_⟩
    obtain rfl := Option.some.inj same
    exact SimpleValue.noConfusion
  · exact List.nodup_singleton _
  · exact fun _ => Iff.rfl
  · intro d member vs found v inside
    rw [List.mem_singleton] at member
    subst member
    obtain rfl := Option.some.inj found
    simp only [List.mem_cons, List.not_mem_nil, or_false] at inside
    rcases inside with rfl | rfl
    · exact fits
    · show Int32 1
      decide
  · intro p member c inside
    simp [bulbs] at member
    simp [member] at inside

theorem once_bulbs : WrittenOnce (rooms label value) (bulbs label value) := by
  refine .mk (returns_light label value) (List.nodup_singleton _) ?_
  intro p member c inside
  simp [bulbs] at member
  simp [member] at inside

include tidy fits newestLight newestRoom in
theorem fits_kitchen : Fits (rooms label value) (kitchen label value) := by
  refine .mk newestRoom ?_ (returns_room label value) ?_ ?_ ?_ ?_ ?_
  · show Int32 1
    decide
  · intro d member text found here
    rw [List.mem_singleton] at member
    subst member
    cases here
  · exact List.nodup_singleton _
  · exact fun _ => Iff.rfl
  · intro d member vs found v inside
    rw [List.mem_singleton] at member
    subst member
    obtain rfl := Option.some.inj found
    obtain rfl := List.mem_singleton.mp inside
    rfl
  · intro p member c inside
    obtain rfl := List.mem_singleton.mp member
    obtain rfl := Value.element.inj (List.mem_singleton.mp inside)
    exact fits_bulbs tidy fits newestLight

theorem once_kitchen : WrittenOnce (rooms label value) (kitchen label value) := by
  refine .mk (returns_room label value) (List.nodup_singleton _) ?_
  intro p member c inside
  obtain rfl := List.mem_singleton.mp member
  obtain rfl := Value.element.inj (List.mem_singleton.mp inside)
  exact once_bulbs

/-- The size that is not the one of the enumeration is written as a number. -/
theorem getValueString_one :
    getValueString bitTexts (sizeProperty label value) ⟨0, .integer 1⟩ = some "1" := by
  have text : valueText bitTexts (.integer 1) = some "1" := by decide
  simp [getValueString, sizeProperty, isSameObject, SortedMap.insert, SortedMap.insertEntry,
    SortedMap.empty, text]

theorem storable_bulbs (other : label ≠ "1") :
    Storable bitTexts (rooms label value) (bulbs label value) := by
  refine .mk (returns_light label value) ?_ ?_
  · intro d member vs found
    obtain rfl := List.mem_singleton.mp member
    obtain rfl := Option.some.inj found
    refine ⟨fun fixed => Bool.noConfusion fixed, ?_⟩
    intro v inside
    simp only [List.mem_cons, List.not_mem_nil, or_false] at inside
    rcases inside with rfl | rfl
    · intro found here
      exact ⟨_, (find_sizeProperty here).2, rfl⟩
    · intro found here
      rw [getValueString_one, Option.getD_some] at here
      exact absurd (find_sizeProperty here).1.symm other
  · intro p member c inside
    simp [bulbs] at member
    simp [member] at inside

theorem storable_kitchen (other : label ≠ "1") :
    Storable bitTexts (rooms label value) (kitchen label value) := by
  refine .mk (returns_room label value) ?_ ?_
  · intro d member vs found
    obtain rfl := List.mem_singleton.mp member
    obtain rfl := Option.some.inj found
    refine ⟨fun _ => rfl, ?_⟩
    intro v inside
    obtain rfl := List.mem_singleton.mp inside
    rfl
  · intro p member c inside
    obtain rfl := List.mem_singleton.mp member
    obtain rfl := Value.element.inj (List.mem_singleton.mp inside)
    exact storable_bulbs other

include tidy fits newestLight newestRoom in
theorem fits_home : ∀ e ∈ (home label value).mElements, Fits (rooms label value) e := by
  intro e member
  obtain rfl := List.mem_singleton.mp member
  exact fits_kitchen tidy fits newestLight newestRoom

theorem once_home : ∀ e ∈ (home label value).mElements, WrittenOnce (rooms label value) e := by
  intro e member
  obtain rfl := List.mem_singleton.mp member
  exact once_kitchen

end Home

theorem tidy_includes : ∀ file ∈ ["devices.jconf"], Tidy file := by decide

/-- The label is not a number. -/
theorem lossless_home :
    Lossless bitTexts (fun _ _ => none) (fun _ => []) (rooms "Small" 5) (home "Small" 5) := by
  refine (lossless_iff tidy_includes (fits_home (by decide) (by decide) rfl rfl) once_home).mpr
    ⟨rfl, fun e member => ?_, List.pairwise_singleton _ _⟩
  obtain rfl := List.mem_singleton.mp member
  exact storable_kitchen (by decide)

/-- The directories with definitions are not saved, and with the label 1 for the size 2 the
size 1 is loaded as the size 2. -/
theorem lossless_fails :
    (∀ file ∈ (home "1" 2).mIncludes, Tidy file) ∧
      (∀ e ∈ (home "1" 2).mElements, Fits (rooms "1" 2) e) ∧
      ¬ Lossless bitTexts (fun _ _ => none) (fun _ => []) (rooms "1" 2) (home "1" 2) ∧
      ¬ Lossless bitTexts (fun _ _ => none) (fun _ => []) (rooms "Small" 5) searchedHome := by
  have fits := fits_home (by decide : Tidy "1") (by decide : Int32 2) rfl rfl
  refine ⟨tidy_includes, fits, fun lossless => ?_, fun lossless => ?_⟩
  · obtain ⟨-, storable, -⟩ := lossless.kept tidy_includes fits once_home
    have kitchen := storable _ (List.mem_singleton_self _)
    cases kitchen with
    | mk returns values embedded =>
      have bulbs := embedded _ (List.mem_singleton_self _) _ (List.mem_singleton_self _)
      cases bulbs with
      | mk returns values embedded =>
        obtain rfl := returns.unique (returns_light "1" 2)
        have kept := values _ (List.mem_singleton_self _) _ rfl
        have readable := kept.unmistakable _ (List.mem_cons_of_mem _ (List.mem_singleton_self _))
        obtain ⟨w, same, equal⟩ := readable (some ⟨1, .integer 2⟩) (by
          rw [getValueString_one]
          rfl)
        obtain rfl := Option.some.inj same
        revert equal
        decide
  · have small : ∀ e ∈ searchedHome.mElements, Fits (rooms "Small" 5) e :=
      fits_home (by decide) (by decide) rfl rfl
    obtain ⟨path, -, -⟩ := lossless.kept tidy_includes small once_home
    cases path

end VRJuggler.ConfigIo
