import VRJuggler.Jccl.ConfigurationFiles

/-!
# Precedence between a configuration file and the files it includes

What a file contributes is a sequence of elements, of which the last one of each name counts.
`load` puts the elements of the file itself behind those of its includes, `operator>>` before
them, and before its definition path has been searched.
-/
namespace VRJuggler.Jccl

variable {fs : FileSystem} {repository repository' : ConfigDefinitionRepository}
  {elements : List LoadedElement} {name : String} {s t : Loading}

/-! ## What files contribute -/

/-- The last element of the name. -/
def lastOf (elements : List LoadedElement) (name : String) : Option LoadedElement :=
  elements.reverse.find? fun e => name = e.mNode.name

/-- The elements whose definitions are in the repository. -/
def known (repository : ConfigDefinitionRepository) (nodes : List ElementNode) :
    List LoadedElement :=
  nodes.filterMap fun node => (repository.get node.type).map (LoadedElement.mk node)

/-- The repository when a definition path has been searched. -/
def searched (fs : FileSystem) (repository : ConfigDefinitionRepository)
    (defPathNode : Option (List String)) : ConfigDefinitionRepository :=
  (defPathNode.getD []).foldl (fun repository d =>
    (fs.definitions (fs.replaceEnvVars d)).foldl .add repository) repository

/-- What several files contribute one after the other. -/
def contributedBy
    (file : ConfigDefinitionRepository → String →
      Option (ConfigDefinitionRepository × List LoadedElement)) :
    ConfigDefinitionRepository → List String →
      Option (ConfigDefinitionRepository × List LoadedElement)
  | repository, [] => some (repository, [])
  | repository, filename :: rest =>
    (file repository filename).bind fun first =>
      (contributedBy file first.1 rest).map fun others => (others.1, first.2 ++ others.2)

/-- What a file contributes: the elements of its includes, then its own. -/
def contributed (fs : FileSystem) : Nat → ConfigDefinitionRepository → String →
    Option (ConfigDefinitionRepository × List LoadedElement)
  | 0, _, _ => none
  | depth + 1, repository, filename =>
    match fs.document filename with
    | none => some (repository, [])
    | some doc =>
      (contributedBy (contributed fs depth) (searched fs repository doc.definition_path)
        (doc.includes.map (fs.expandFileName · filename))).map fun included =>
          (included.1, included.2 ++ known included.1 doc.elements)

/-- What the includes of a document contribute when they are looked up from this file. -/
def included (fs : FileSystem) (repository : ConfigDefinitionRepository) (doc : Document)
    (parentfile : String) (depth : Nat) :
    Option (ConfigDefinitionRepository × List LoadedElement) :=
  contributedBy (contributed fs depth) (searched fs repository doc.definition_path)
    (doc.includes.map (fs.expandFileName · parentfile))

/-! ## Elements under their names -/

theorem lastOf_append (left right : List LoadedElement) :
    lastOf (left ++ right) name = (lastOf right name).or (lastOf left name) := by
  rw [lastOf, List.reverse_append, List.find?_append]
  rfl

namespace Loading

theorem find?_insert (newElement : LoadedElement) :
    (insert newElement elements).find? (fun e => name = e.mNode.name) =
      if name = newElement.mNode.name then some newElement
      else elements.find? fun e => name = e.mNode.name := by
  induction elements with
  | nil =>
    rw [insert, List.find?_cons]
    split
    · next same => rw [if_pos (of_decide_eq_true same)]
    · next other => rw [if_neg (of_decide_eq_false other)]
  | cons e rest ih =>
    rw [insert]
    by_cases here : e.mNode.name = newElement.mNode.name
    · rw [if_pos here]
      by_cases same : name = newElement.mNode.name
      · rw [if_pos same, List.find?_cons_of_pos (by simpa using same)]
      · have other : ¬ name = e.mNode.name := fun equal => same (equal.trans here)
        rw [if_neg same, List.find?_cons_of_neg (by simpa using same),
          List.find?_cons_of_neg (by simpa using other)]
    · rw [if_neg here]
      by_cases first : name = e.mNode.name
      · have other : ¬ name = newElement.mNode.name := fun equal => here (first.symm.trans equal)
        rw [if_neg other, List.find?_cons_of_pos (by simpa using first),
          List.find?_cons_of_pos (by simpa using first)]
      · rw [List.find?_cons_of_neg (by simpa using first), ih,
          List.find?_cons_of_neg (by simpa using first)]

/-- Of the elements that are added, the last one of each name counts. -/
theorem find?_foldl_insert (added : List LoadedElement) :
    (added.foldl (fun elements e => insert e elements) elements).find?
        (fun e => name = e.mNode.name) =
      (lastOf added name).or (elements.find? fun e => name = e.mNode.name) := by
  induction added generalizing elements with
  | nil => rfl
  | cons e rest ih =>
    rw [List.foldl_cons, ih, find?_insert, ← List.singleton_append, lastOf_append, Option.or_assoc]
    congr 1
    rw [lastOf, List.reverse_singleton, List.find?_singleton]
    by_cases same : name = e.mNode.name
    · simp only [same, decide_true, if_true, Option.some_or]
    · simp only [same, decide_false, Bool.false_eq_true, if_false, Option.none_or]

/-! ## The two ways of loading -/

theorem loadFromElementNode_eq (nodes : List ElementNode) :
    s.loadFromElementNode nodes = { s with
      mElements := (known s.mRepository nodes).foldl (fun elements e => insert e elements)
        s.mElements } := by
  induction nodes generalizing s with
  | nil => rfl
  | cons node rest ih =>
    rw [loadFromElementNode, List.foldl_cons, known, List.filterMap_cons]
    cases found : s.mRepository.get node.type with
    | none =>
      simp only [initFromNode, found, Option.map_none]
      exact ih
    | some d =>
      simp only [initFromNode, found, Option.map_some, List.foldl_cons]
      exact ih

variable (fs s) in
theorem setDefinitionPath_eq (defPathNode : Option (List String)) :
    (s.setDefinitionPath fs defPathNode).mElements = s.mElements ∧
      (s.setDefinitionPath fs defPathNode).mRepository =
        searched fs s.mRepository defPathNode := by
  cases defPathNode with
  | none => exact ⟨rfl, rfl⟩
  | some dirs =>
    have loop (t : Loading) : (t.extendDefinitionPath fs dirs).mElements = t.mElements ∧
        (t.extendDefinitionPath fs dirs).mRepository = searched fs t.mRepository (some dirs) := by
      induction dirs generalizing t with
      | nil => exact ⟨rfl, rfl⟩
      | cons d rest ih => exact ih _
    exact loop { s with mDefsPath := [] }

/-- What is loaded, as far as elements and definitions are concerned. -/
inductive Loaded (before : List LoadedElement) : Option Loading →
    Option (ConfigDefinitionRepository × List LoadedElement) → Prop where
  | overflow : Loaded before none none
  | returned {after : Loading} {found : ConfigDefinitionRepository × List LoadedElement}
    (mRepository : after.mRepository = found.1)
    (mElements : after.mElements = found.2.foldl (fun elements e => insert e elements) before) :
    Loaded before (some after) (some found)

/-- More is loaded after it. -/
theorem Loaded.bind {after : Option Loading}
    {found : Option (ConfigDefinitionRepository × List LoadedElement)}
    (first : Loaded elements after found) (next : Loading → Option Loading)
    (more : ConfigDefinitionRepository →
      Option (ConfigDefinitionRepository × List LoadedElement))
    (rest : ∀ t, Loaded t.mElements (next t) (more t.mRepository)) :
    Loaded elements (after.bind next) (found.bind fun first =>
      (more first.1).map fun others => (others.1, first.2 ++ others.2)) := by
  cases first with
  | overflow => exact .overflow
  | @returned t found mRepository mElements =>
    have others := rest t
    rw [mRepository] at others
    rw [Option.bind_some, Option.bind_some]
    generalize next t = after at others ⊢
    generalize more found.1 = found' at others ⊢
    cases others with
    | overflow => exact .overflow
    | returned mRepository' mElements' =>
      refine .returned mRepository' ?_
      rw [mElements', mElements, ← List.foldl_append]

/-- The definition path of a document is searched, and its includes are loaded. -/
theorem loaded_includes (depth : Nat) (s : Loading) (parentfile : String) (doc : Document)
    (each : ∀ s filename, Loaded s.mElements
      ((load fs depth s filename parentfile).map Prod.snd)
      (contributed fs depth s.mRepository (fs.expandFileName filename parentfile))) :
    Loaded s.mElements
      (doc.includes.foldlM (fun s filename => (load fs depth s filename parentfile).map Prod.snd)
        (s.setDefinitionPath fs doc.definition_path))
      (included fs s.mRepository doc parentfile depth) := by
  have loop (names : List String) (t : Loading) : Loaded t.mElements
      (names.foldlM (fun s filename => (load fs depth s filename parentfile).map Prod.snd) t)
      (contributedBy (contributed fs depth) t.mRepository
        (names.map (fs.expandFileName · parentfile))) := by
    induction names generalizing t with
    | nil => exact .returned rfl rfl
    | cons filename rest ih =>
      exact (each t filename).bind _ (fun repository =>
        contributedBy (contributed fs depth) repository
          (rest.map (fs.expandFileName · parentfile))) ih
  obtain ⟨elements, repository⟩ := setDefinitionPath_eq fs s doc.definition_path
  have includes := loop doc.includes (s.setDefinitionPath fs doc.definition_path)
  rwa [elements, repository] at includes

variable (fs) in
/-- `load` adds what the file contributes. -/
theorem loaded_load (depth : Nat) (s : Loading) (filename parentfile : String) :
    Loaded s.mElements ((load fs depth s filename parentfile).map Prod.snd)
      (contributed fs depth s.mRepository (fs.expandFileName filename parentfile)) := by
  induction depth generalizing s filename parentfile with
  | zero => exact .overflow
  | succ depth ih =>
    rw [load, contributed]
    cases fs.document (fs.expandFileName filename parentfile) with
    | none => exact .returned rfl rfl
    | some doc =>
      have includes := loaded_includes depth { s with mConfigurationNode := some doc }
        (fs.expandFileName filename parentfile) doc fun s filename' =>
          ih s filename' (fs.expandFileName filename parentfile)
      show Loaded s.mElements _ ((included fs s.mRepository doc _ depth).map _)
      simp only [loadFromElementNode_eq]
      generalize included fs _ doc _ depth = found at includes ⊢
      generalize (doc.includes.foldlM _ _ : Option Loading) = after at includes ⊢
      cases includes with
      | overflow => exact .overflow
      | @returned after found mRepository mElements =>
        -- the elements of the file come last
        refine .returned mRepository ?_
        rw [List.foldl_append, ← mElements, ← mRepository]

variable (fs) in
/-- `operator>>` adds the elements of the document, then what its includes contribute. -/
theorem loaded_read (depth : Nat) (s : Loading) (doc : Document) :
    Loaded ((known s.mRepository doc.elements).foldl (fun elements e => insert e elements)
        s.mElements) (read fs depth s doc)
      (included fs s.mRepository doc "" depth) := by
  rw [read]
  simp only [loadFromElementNode_eq]
  exact loaded_includes depth { s with
    mConfigurationNode := some doc
    mElements := (known s.mRepository doc.elements).foldl (fun elements e => insert e elements)
      s.mElements } "" doc fun s filename => loaded_load fs depth s filename ""

/-! ## Deeper stacks -/

theorem foldlM_mono {f g : Loading → String → Option Loading}
    (mono : ∀ s name t, f s name = some t → g s name = some t) {names : List String}
    (loads : names.foldlM f s = some t) : names.foldlM g s = some t := by
  induction names generalizing s with
  | nil => exact loads
  | cons name rest ih =>
    rw [List.foldlM_cons] at loads ⊢
    obtain ⟨u, here, later⟩ := Option.bind_eq_some_iff.mp loads
    exact Option.bind_eq_some_iff.mpr ⟨u, mono s name u here, ih later⟩

theorem load_mono {depth : Nat} {filename parentfile : String} {result : Bool × Loading}
    (loads : load fs depth s filename parentfile = some result) :
    load fs (depth + 1) s filename parentfile = some result := by
  induction depth generalizing s filename parentfile result with
  | zero => cases loads
  | succ depth ih =>
    rw [load] at loads ⊢
    cases found : fs.document (fs.expandFileName filename parentfile) with
    | none =>
      rw [found] at loads
      exact loads
    | some doc =>
      rw [found] at loads
      obtain ⟨t, includes, rfl⟩ := Option.map_eq_some_iff.mp loads
      refine Option.map_eq_some_iff.mpr ⟨t, foldlM_mono ?_ includes, rfl⟩
      intro s name t here
      obtain ⟨result, returned, rfl⟩ := Option.map_eq_some_iff.mp here
      exact Option.map_eq_some_iff.mpr ⟨result, ih returned, rfl⟩

theorem read_mono {depth : Nat} {doc : Document} (reads : read fs depth s doc = some t) :
    read fs (depth + 1) s doc = some t := by
  refine foldlM_mono ?_ reads
  intro s name t here
  obtain ⟨result, returned, rfl⟩ := Option.map_eq_some_iff.mp here
  exact Option.map_eq_some_iff.mpr ⟨result, load_mono returned, rfl⟩

end Loading

/-! ## Acyclic includes -/

/-- Only finitely many names can be opened. -/
theorem FileSystem.mem_files_of_get {filename : String}
    (present : (fs.hierarchy.get filename).isSome) : filename ∈ fs.files.map Prod.fst := by
  obtain ⟨file, found⟩ := Option.isSome_iff_exists.mp present
  obtain ⟨doc, there, -⟩ := Option.map_eq_some_iff.mp found
  obtain ⟨before, after, parts, -⟩ := List.lookup_eq_some_iff.mp there
  rw [parts]
  exact List.mem_map_of_mem (List.mem_append_right before (List.mem_cons_self ..))

theorem contributedBy_returns (names : List String)
    (each : ∀ name ∈ names, ∀ repository, ∃ result,
      Returns (fun depth => contributed fs depth repository name) result)
    (repository : ConfigDefinitionRepository) :
    ∃ result, Returns (fun depth => contributedBy (contributed fs depth) repository names)
      result := by
  induction names generalizing repository with
  | nil => exact ⟨_, Returns.of_some _⟩
  | cons name rest ih =>
    obtain ⟨first, here⟩ := each name (List.mem_cons_self ..) repository
    obtain ⟨others, later⟩ :=
      ih (fun name member => each name (List.mem_cons_of_mem _ member)) first.1
    exact ⟨_, here.bind (later.map fun others => (others.1, first.2 ++ others.2))⟩

/-- Where no file includes itself, a file is loaded with a stack that is deep enough. -/
theorem contributed_returns (acyclic : fs.hierarchy.Acyclic) (filename : String)
    (repository : ConfigDefinitionRepository) :
    ∃ result, Returns (fun depth => contributed fs depth repository filename) result := by
  have going_down : WellFounded fs.hierarchy.Parent :=
    Hierarchy.wellFounded_parent acyclic fun _ => FileSystem.mem_files_of_get
  have missing (filename : String) (none : fs.document filename = none)
      (repository : ConfigDefinitionRepository) :
      Returns (fun depth => contributed fs depth repository filename) (repository, []) := by
    refine (Returns.of_some _).congr fun depth => ?_
    rw [contributed, none]
  have each (file : String × Document) (found : fs.document file.1 = some file.2)
      (repository : ConfigDefinitionRepository) : ∃ result,
        Returns (fun depth => contributed fs depth repository file.1) result := by
    induction file using going_down.induction generalizing repository with
    | _ file ih =>
      have includes : ∀ name ∈ file.2.includes.map (fs.expandFileName · file.1),
          ∀ repository, ∃ result,
            Returns (fun depth => contributed fs depth repository name) result := by
        intro name member
        cases there : fs.document name with
        | none => exact fun repository => ⟨_, missing name there repository⟩
        | some doc =>
          have get : fs.hierarchy.get name = some (name, doc) :=
            Option.map_eq_some_iff.mpr ⟨doc, there, rfl⟩
          exact ih (name, doc) ⟨name, member, get⟩ there
      obtain ⟨included, returns⟩ :=
        contributedBy_returns _ includes (searched fs repository file.2.definition_path)
      refine ⟨_, (returns.map fun included => (included.1,
        included.2 ++ known included.1 file.2.elements)).congr fun depth => ?_⟩
      rw [contributed, found]
  cases found : fs.document filename with
  | none => exact ⟨_, missing filename found repository⟩
  | some doc => exact each (filename, doc) found repository

theorem included_returns (acyclic : fs.hierarchy.Acyclic)
    (repository : ConfigDefinitionRepository) (doc : Document) (parentfile : String) :
    ∃ result, Returns (included fs repository doc parentfile) result :=
  contributedBy_returns _ (fun name _ => contributed_returns acyclic name) _

/-! ## Definitions are not lost -/

/-- There is a definition for every type that there was one for before. -/
def Grows (before after : ConfigDefinitionRepository) : Prop :=
  ∀ type, (before.get type).isSome → (after.get type).isSome

theorem grows_add (newDef : ConfigDefinition) : Grows repository (repository.add newDef) := by
  have inserted : Grows repository ⟨repository.mDefs.insert newDef.mToken newDef⟩ := by
    intro type present
    show ((repository.mDefs.insert newDef.mToken newDef).find type).isSome
    by_cases same : type = newDef.mToken
    · rw [same, SortedMap.find_insert_self]
      rfl
    · rwa [SortedMap.find_insert_of_ne _ _ same]
  rw [ConfigDefinitionRepository.add]
  split
  · split
    · exact inserted
    · exact fun _ => id
  · exact inserted

theorem grows_searched (defPathNode : Option (List String)) :
    Grows repository (searched fs repository defPathNode) := by
  have defs (read : List ConfigDefinition) (r : ConfigDefinitionRepository) :
      Grows r (read.foldl .add r) := by
    induction read generalizing r with
    | nil => exact fun _ => id
    | cons d rest ih => exact fun type present => ih _ type (grows_add d type present)
  rw [searched]
  induction defPathNode.getD [] generalizing repository with
  | nil => exact fun _ => id
  | cons d rest ih => exact fun type present => ih type (defs _ _ type present)

theorem grows_contributedBy {depth : Nat} {names : List String}
    {result : ConfigDefinitionRepository × List LoadedElement}
    (each : ∀ repository name result, contributed fs depth repository name = some result →
      Grows repository result.1)
    (gives : contributedBy (contributed fs depth) repository names = some result) :
    Grows repository result.1 := by
  induction names generalizing repository result with
  | nil =>
    obtain rfl := Option.some.inj gives
    exact fun _ => id
  | cons name rest ih =>
    obtain ⟨first, here, gives⟩ := Option.bind_eq_some_iff.mp gives
    obtain ⟨others, later, rfl⟩ := Option.map_eq_some_iff.mp gives
    exact fun type present => ih later type (each _ _ _ here type present)

theorem grows_contributed {depth : Nat} {filename : String}
    {result : ConfigDefinitionRepository × List LoadedElement}
    (gives : contributed fs depth repository filename = some result) :
    Grows repository result.1 := by
  induction depth generalizing repository filename result with
  | zero => cases gives
  | succ depth ih =>
    rw [contributed] at gives
    cases found : fs.document filename with
    | none =>
      rw [found] at gives
      obtain rfl := Option.some.inj gives
      exact fun _ => id
    | some doc =>
      rw [found] at gives
      obtain ⟨included, here, rfl⟩ := Option.map_eq_some_iff.mp gives
      have later := grows_contributedBy (fun _ _ _ => ih) here
      exact fun type present => later type (grows_searched doc.definition_path type present)

theorem grows_included {doc : Document} {parentfile : String}
    {result : ConfigDefinitionRepository × List LoadedElement}
    (returns : Returns (included fs repository doc parentfile) result) :
    Grows repository result.1 := by
  obtain ⟨deep, returns⟩ := returns
  have later := grows_contributedBy (fun _ _ _ => grows_contributed) (returns deep (Nat.le_refl _))
  exact fun type present => later type (grows_searched doc.definition_path type present)

/-- With more definitions, no name is lost. -/
theorem lastOf_known_eq_none (nodes : List ElementNode) (name : String)
    (grows : Grows repository repository')
    (none : lastOf (known repository' nodes) name = none) :
    lastOf (known repository nodes) name = .none := by
  rw [lastOf, List.find?_eq_none] at none ⊢
  intro e member same
  obtain ⟨node, given, made⟩ := List.mem_filterMap.mp (List.mem_reverse.mp member)
  obtain ⟨d, found, rfl⟩ := Option.map_eq_some_iff.mp made
  obtain ⟨d', found'⟩ := Option.isSome_iff_exists.mp
    (grows node.type (by rw [found]; rfl))
  refine none ⟨node, d'⟩ (List.mem_reverse.mpr (List.mem_filterMap.mpr ⟨node, given, ?_⟩)) same
  rw [found', Option.map_some]

/-! ## The two ways agree -/

/-- What the includes of a document contribute does not disagree with its own elements: under
the name of an element of the document they give this element last or none, and in the latter
case its definition is known `before`; under other names they give the same, whichever way
they are looked up. -/
def Agrees (own included streamed before : List LoadedElement) (name : String) : Prop :=
  (∀ e, lastOf own name = some e → lastOf streamed name = some e ∨
    lastOf streamed name = none ∧ lastOf before name = some e) ∧
  (lastOf own name = none → lastOf included name = lastOf streamed name)

instance (own included streamed before : List LoadedElement) (name : String) :
    Decidable (Agrees own included streamed before name) :=
  decidable_of_iff ((∀ e ∈ lastOf own name, lastOf streamed name = some e ∨
      lastOf streamed name = none ∧ lastOf before name = some e) ∧
    (lastOf own name = none → lastOf included name = lastOf streamed name)) Iff.rfl

/-- The file is loaded into a new configuration. -/
theorem load_returns {filename : String} {doc : Document}
    (found : fs.document (fs.expandFileName filename "") = some doc)
    {fromFile : ConfigDefinitionRepository × List LoadedElement}
    (file : Returns (included fs repository doc (fs.expandFileName filename "")) fromFile) :
    ∃ loaded, Returns (Loading.load fs · (.empty repository) filename "") (true, loaded) ∧
      loaded.mElements = (fromFile.2 ++ known fromFile.1 doc.elements).foldl
        (fun elements e => Loading.insert e elements) [] := by
  obtain ⟨deep, returns⟩ := file
  have gives : contributed fs (deep + 1) repository (fs.expandFileName filename "") =
      some (fromFile.1, fromFile.2 ++ known fromFile.1 doc.elements) := by
    rw [contributed, found]
    exact congrArg (Option.map _) (returns deep (Nat.le_refl _))
  have result := Loading.loaded_load fs (deep + 1) (.empty repository) filename ""
  rw [show (Loading.empty repository).mRepository = repository from rfl, gives] at result
  cases loads : Loading.load fs (deep + 1) (.empty repository) filename "" with
  | none =>
    rw [loads] at result
    cases result
  | some returned =>
    rw [loads] at result
    cases result with
    | returned mRepository mElements =>
      have status : returned.1 = true := by
        rw [Loading.load, found] at loads
        obtain ⟨t, -, rfl⟩ := Option.map_eq_some_iff.mp loads
        rfl
      refine ⟨returned.2, Returns.of_mono (fun _ _ => Loading.load_mono) (deep + 1) ?_, mElements⟩
      rw [loads, ← status]

/-- The document is read into a new configuration. -/
theorem read_returns {doc : Document}
    {fromStream : ConfigDefinitionRepository × List LoadedElement}
    (stream : Returns (included fs repository doc "") fromStream) :
    ∃ self, Returns (Loading.read fs · (.empty repository) doc) self ∧
      self.mElements = fromStream.2.foldl (fun elements e => Loading.insert e elements)
        ((known repository doc.elements).foldl (fun elements e => Loading.insert e elements)
          []) := by
  obtain ⟨deep, returns⟩ := stream
  have result := Loading.loaded_read fs deep (.empty repository) doc
  rw [show (Loading.empty repository).mRepository = repository from rfl,
    returns deep (Nat.le_refl _)] at result
  cases reads : Loading.read fs deep (.empty repository) doc with
  | none =>
    rw [reads] at result
    cases result
  | some self =>
    rw [reads] at result
    cases result with
    | returned mRepository mElements =>
      exact ⟨self, Returns.of_mono (fun _ _ => Loading.read_mono) deep reads, mElements⟩

variable (fs repository) in
/-- A file is loaded, and the same document is read. Every name stands for the same element in
both results just when the own elements of the document agree with those of its includes. -/
theorem read_eq_load_iff (acyclic : fs.hierarchy.Acyclic) (filename : String) {doc : Document}
    (found : fs.document (fs.expandFileName filename "") = some doc) :
    ∃ loaded self fromFile fromStream,
      Returns (Loading.load fs · (.empty repository) filename "") (true, loaded) ∧
      Returns (Loading.read fs · (.empty repository) doc) self ∧
      Returns (included fs repository doc (fs.expandFileName filename "")) fromFile ∧
      Returns (included fs repository doc "") fromStream ∧
      ((∀ name, loaded.get name = self.get name) ↔
        ∀ name, Agrees (known fromFile.1 doc.elements) fromFile.2 fromStream.2
          (known repository doc.elements) name) := by
  obtain ⟨fromFile, file⟩ :=
    included_returns acyclic repository doc (fs.expandFileName filename "")
  obtain ⟨fromStream, stream⟩ := included_returns acyclic repository doc ""
  obtain ⟨loaded, loads, loadedElements⟩ := load_returns found file
  obtain ⟨self, reads, readElements⟩ := read_returns stream
  refine ⟨loaded, self, fromFile, fromStream, loads, reads, file, stream, ?_⟩
  apply forall_congr'
  intro name
  have lost := lastOf_known_eq_none doc.elements name (grows_included file)
  have left : loaded.get name = (lastOf (known fromFile.1 doc.elements) name).or
      (lastOf fromFile.2 name) := by
    rw [Loading.get, loadedElements, Loading.find?_foldl_insert, lastOf_append, List.find?_nil,
      Option.or_none]
  have right : self.get name = (lastOf fromStream.2 name).or
      (lastOf (known repository doc.elements) name) := by
    rw [Loading.get, readElements, Loading.find?_foldl_insert, Loading.find?_foldl_insert,
      List.find?_nil, Option.or_none]
  rw [left, right, Agrees]
  cases own : lastOf (known fromFile.1 doc.elements) name with
  | some e =>
    simp only [Option.some_or, Option.some.injEq, forall_eq', reduceCtorEq, false_implies,
      and_true]
    cases lastOf fromStream.2 name with
    | some f => simp [eq_comm]
    | none => simp [eq_comm]
  | none =>
    rw [lost own]
    simp

/-- Files in one directory. -/
def directory (files : List (String × Document)) : FileSystem where
  files := files
  fileExists name := (files.lookup name).isSome
  is_directory _ := false
  is_complete _ := true
  branch_path _ := "/"
  join := (· ++ ·)
  mPath := []
  replaceEnvVars := id
  definitions _ := []

/-- A document with one display, which includes another file. -/
def mainDocument (name : String) : Document :=
  ⟨none, ["/part.jconf"], [⟨"surface_display", name, "main"⟩]⟩

/-- The other file has one display, too. -/
def displays (name included : String) : List (String × Document) :=
  [("/main.jconf", mainDocument name),
    ("/part.jconf", ⟨none, [], [⟨"surface_display", included, "part"⟩]⟩)]

def displayDefinition : ConfigDefinition := ⟨"surface_display", 1, []⟩

/-- A directory of files whose includes have these ranks. -/
theorem acyclic_directory {files : List (String × Document)} (rank : String → Nat)
    (lower : ∀ file ∈ files, ∀ name ∈ file.2.includes.map ((directory files).expandFileName ·
      file.1), rank name < rank file.1) : (directory files).hierarchy.Acyclic := by
  apply Hierarchy.acyclic_of_rank rank
  intro name file found included member _
  obtain ⟨doc, there, rfl⟩ := Option.map_eq_some_iff.mp found
  obtain ⟨before, after, parts, -⟩ := List.lookup_eq_some_iff.mp there
  have given : (name, doc) ∈ files := by
    rw [show files = before ++ (name, doc) :: after from parts]
    exact List.mem_append_right before (List.mem_cons_self ..)
  exact lower (name, doc) given included member

theorem read_eq_load_displays :
    ∃ loaded self,
      Returns (Loading.load (directory (displays "left" "right")) ·
        (.empty (.load [displayDefinition])) "/main.jconf" "") (true, loaded) ∧
      Returns (Loading.read (directory (displays "left" "right")) ·
        (.empty (.load [displayDefinition])) (mainDocument "left")) self ∧
      ∀ name, loaded.get name = self.get name := by
  have acyclic : (directory (displays "left" "right")).hierarchy.Acyclic :=
    acyclic_directory (rankOf ["/part.jconf", "/main.jconf"]) (by decide)
  obtain ⟨loaded, self, fromFile, fromStream, loads, reads, file, stream, same⟩ :=
    read_eq_load_iff (directory (displays "left" "right")) (.load [displayDefinition]) acyclic
      "/main.jconf" rfl
  refine ⟨loaded, self, loads, reads, same.mpr ?_⟩
  -- either way, the included file gives the other display
  have right (parentfile : String) : Returns (included (directory (displays "left" "right"))
      (.load [displayDefinition]) (mainDocument "left") parentfile)
      (.load [displayDefinition],
        [⟨⟨"surface_display", "right", "part"⟩, displayDefinition⟩]) := by
    refine ⟨1, fun depth enough => ?_⟩
    obtain ⟨depth, rfl⟩ := Nat.exists_eq_add_of_le' enough
    rfl
  obtain rfl := file.unique (right _)
  obtain rfl := stream.unique (right _)
  intro name
  refine ⟨fun e own => Or.inr ⟨?_, own⟩, fun _ => rfl⟩
  have member : e ∈ known (.load [displayDefinition]) (mainDocument "left").elements :=
    List.mem_reverse.mp (List.mem_of_find?_eq_some own)
  have named : name = e.mNode.name := by simpa using List.find?_some own
  obtain rfl := List.mem_singleton.mp member
  rw [named]
  rfl

/-- A display of the same name is in both files. -/
theorem read_eq_load_fails :
    (directory (displays "left" "left")).hierarchy.Acyclic ∧
    ∃ loaded self,
      Returns (Loading.load (directory (displays "left" "left")) ·
        (.empty (.load [displayDefinition])) "/main.jconf" "") (true, loaded) ∧
      Returns (Loading.read (directory (displays "left" "left")) ·
        (.empty (.load [displayDefinition])) (mainDocument "left")) self ∧
      loaded.get "left" = some ⟨⟨"surface_display", "left", "main"⟩, displayDefinition⟩ ∧
      self.get "left" = some ⟨⟨"surface_display", "left", "part"⟩, displayDefinition⟩ :=
  ⟨acyclic_directory (rankOf ["/part.jconf", "/main.jconf"]) (by decide), _, _,
    Returns.of_mono (fun _ _ => Loading.load_mono) 2 rfl,
    Returns.of_mono (fun _ _ => Loading.read_mono) 1 rfl, rfl, rfl⟩

end VRJuggler.Jccl
