import VRJuggler.Jccl.ParentSearch

/-!
# Configuration files

A configuration is loaded from a file, with the files that it includes, or read from a stream.
Elements are kept under their names, and an element whose definition is not in the repository
is skipped.
-/
namespace VRJuggler.Jccl

/-- An XML element below `elements`. Its further content is only carried along. -/
structure ElementNode where
  type : String
  name : String
  content : String
  deriving DecidableEq

/-- The `configuration` node of a document. -/
structure Document where
  /-- The `dir` texts of the `definition_path` node. -/
  definition_path : Option (List String)
  includes : List String
  elements : List ElementNode
  deriving DecidableEq

/-- What is outside of the program. No other file holds a document that can be loaded. -/
structure FileSystem where
  files : List (String × Document)
  fileExists : String → Bool
  is_directory : String → Bool
  is_complete : String → Bool
  branch_path : String → String
  join : String → String → String
  /-- The search path of `ParseUtil`. -/
  mPath : List String
  replaceEnvVars : String → String
  /-- The definitions that `loadDefs` reads for a search path, in their order. -/
  definitions : String → List ConfigDefinition

namespace FileSystem

variable (fs : FileSystem)

def document (filename : String) : Option Document := fs.files.lookup filename

def findFileUsingPath (fileName : String) : Option String :=
  (fs.mPath.map (fs.join · fileName)).find? fun full_path =>
    fs.fileExists full_path && !fs.is_directory full_path

def expandFileName (name parentfile : String) : String :=
  let fname := fs.replaceEnvVars name
  if fs.fileExists fname then fname
  else if fs.is_complete fname then fname
  else if parentfile = "" then (fs.findFileUsingPath fname).getD fname
  else fs.join (fs.branch_path parentfile) fname

/-- Files, and the files that they include. -/
def hierarchy : Hierarchy String (String × Document) where
  parents file := file.2.includes.map (fs.expandFileName · file.1)
  get filename := (fs.document filename).map (Prod.mk filename)

end FileSystem

/-- A `ConfigElement` that was initialised from a node. -/
structure LoadedElement where
  mNode : ElementNode
  mDef : ConfigDefinition
  deriving DecidableEq

/-- A `Configuration`, and the repository of the `ElementFactory`. -/
structure Loading where
  mFileName : String
  mDefsPath : List String
  mElements : List LoadedElement
  mConfigurationNode : Option Document
  mRepository : ConfigDefinitionRepository

namespace Loading

variable (fs : FileSystem) (s : Loading)

/-- A new `Configuration`. -/
def empty (mRepository : ConfigDefinitionRepository) : Loading where
  mFileName := ""
  mDefsPath := []
  mElements := []
  mConfigurationNode := none
  mRepository := mRepository

def get (name : String) : Option LoadedElement := s.mElements.find? fun e => name = e.mNode.name

/-- An element of the same name is overwritten. -/
def insert (newElement : LoadedElement) : List LoadedElement → List LoadedElement
  | [] => [newElement]
  | e :: rest =>
    if e.mNode.name = newElement.mNode.name then newElement :: rest
    else e :: insert newElement rest

def add (newElement : LoadedElement) : Loading :=
  { s with mElements := insert newElement s.mElements }

/-! ## Definitions -/

def loadDefs (defaultPath : String) : Loading :=
  { s with mRepository := (fs.definitions defaultPath).foldl .add s.mRepository }

def extendDefinitionPath (dirs : List String) : Loading :=
  dirs.foldl (fun s d =>
    { s with mDefsPath := s.mDefsPath ++ [d] }.loadDefs fs (fs.replaceEnvVars d)) s

def setDefinitionPath (defPathNode : Option (List String)) : Loading :=
  match defPathNode with
  | some dirs => { s with mDefsPath := [] }.extendDefinitionPath fs dirs
  | none => s

/-! ## Elements -/

/-- `ConfigElement::initFromNode` -/
def initFromNode (node : ElementNode) : Option LoadedElement :=
  (s.mRepository.get node.type).map (LoadedElement.mk node)

def loadFromElementNode (elementsNode : List ElementNode) : Loading :=
  elementsNode.foldl (fun s node =>
    match s.initFromNode node with
    | some new_element => s.add new_element
    | none => s) s

/-! ## Documents -/

/-- `Configuration::load` and what it returns, with a stack for so many calls. -/
def load : Nat → Loading → String → String → Option (Bool × Loading)
  | 0, _, _, _ => none
  | depth + 1, s, filename, parentfile =>
    let expanded_filename := fs.expandFileName filename parentfile
    match fs.document expanded_filename with
    | none => some (false, s)
    | some cfg_node =>
      let s := { s with mConfigurationNode := some cfg_node }
      let s := s.setDefinitionPath fs cfg_node.definition_path
      -- the status of what is included is not looked at
      let s := cfg_node.includes.foldlM (fun s cfg_filename =>
        (load depth s cfg_filename expanded_filename).map Prod.snd) s
      s.map fun s =>
        (true, { s.loadFromElementNode cfg_node.elements with mFileName := expanded_filename })

/-- `operator>>` for a stream with this document. -/
def read (depth : Nat) (self : Loading) (cfg_node : Document) : Option Loading :=
  let self := { self with mConfigurationNode := some cfg_node }
  let self := self.loadFromElementNode cfg_node.elements
  let self := self.setDefinitionPath fs cfg_node.definition_path
  -- there is no parent file
  cfg_node.includes.foldlM (fun self cfg_filename =>
    (self.load fs depth cfg_filename "").map Prod.snd) self

end Loading

end VRJuggler.Jccl
