import Mathlib.Logic.Function.Basic
import VRJuggler.Base.Text

/-!
# The tree of panel beans

Nodes are objects that point to their parent and their children. A bean has one node, which is
added at each of its paths in turn; a path is looked for by the names of the nodes on the way.
-/
namespace VRJuggler.Tweek

/-- A `String` for a sub-path, or a bean. -/
inductive UserObject (β : Type) where
  | folder (level : List Char)
  | bean (b : β)
  deriving DecidableEq

/-- `DefaultMutableTreeNode` -/
structure TreeNode (β : Type) where
  parent : Option Nat
  children : List Nat
  userObject : UserObject β

/-- The nodes made so far; the first of them is the root. -/
structure BeanTreeModel (β : Type) where
  nodes : Nat → TreeNode β
  count : Nat

variable {β : Type}

/-- The node has this label or holds a bean of this name. -/
def UserObject.named (getName : β → List Char) (path_element : List Char) : UserObject β → Bool
  | .folder level => level = path_element
  | .bean b => getName b = path_element

def UserObject.isFolder (path_element : List Char) : UserObject β → Bool
  | .folder level => level = path_element
  | .bean _ => false

namespace BeanTreeModel

/-- A new model with a root, whose own object is never looked at. -/
def create (rootObject : UserObject β) : BeanTreeModel β where
  nodes := fun _ => ⟨none, [], rootObject⟩
  count := 1

variable (m : BeanTreeModel β)

/-- A new node becomes the one with this number. -/
def newNode (userObject : UserObject β) : BeanTreeModel β where
  nodes := Function.update m.nodes m.count ⟨none, [], userObject⟩
  count := m.count + 1

/-- `DefaultMutableTreeNode.remove` by the old parent of the node. -/
def detach (child : Nat) : BeanTreeModel β :=
  match (m.nodes child).parent with
  | none => m
  | some old =>
    { m with
      nodes := Function.update m.nodes old
        { m.nodes old with children := (m.nodes old).children.erase child } }

/-- `DefaultMutableTreeNode.add`: the child leaves its old parent and becomes the last one of this
node. No node that is added here is above the other. -/
def add (node child : Nat) : BeanTreeModel β :=
  let m := m.detach child
  let nodes := Function.update m.nodes child { m.nodes child with parent := some node }
  { m with
    nodes := Function.update nodes node
      { nodes node with children := (nodes node).children ++ [child] } }

/-! ## Adding a bean -/

/-- One level of a path: the sub-path, which is made if there is none. -/
def subPath (cur_node : Nat) (path_element : List Char) : BeanTreeModel β × Nat :=
  let found := (m.nodes cur_node).children.find? fun node =>
    (m.nodes node).userObject.isFolder path_element
  match found with
  | some node => (m, node)
  | none => ((m.newNode (.folder path_element)).add cur_node m.count, m.count)

/-- The loop of `addNodeToPath`, of which `fuel` rounds are made. -/
def walk (path : List Char) :
    Nat → BeanTreeModel β → Nat → Int → Nat → Throwing Text.Thrown (BeanTreeModel β × Nat)
  | 0, _, _, _, _ => ExceptT.mk none
  | fuel + 1, m, begin_index, end_index, cur_node =>
    if end_index ≠ -1 ∨ begin_index < path.length then do
      let end_index : Int := if end_index = -1 then path.length else end_index
      let path_element ← ExceptT.mk (some (Text.substring path begin_index end_index))
      let next := m.subPath cur_node path_element
      let begin_index := (end_index + 1).toNat
      walk path fuel next.1 begin_index (Text.indexOf path '/' begin_index) next.2
    else pure (m, cur_node)

def addNodeToPath (fuel : Nat) (new_node : Nat) (path : List Char) :
    Throwing Text.Thrown (BeanTreeModel β) :=
  if path.head? = some '/' then do
    let last ← walk path fuel m 1 (Text.indexOf path '/' 1) 0
    pure (last.1.add last.2 new_node)
  else pure m

def addBean (getPaths : β → List (List Char)) (fuel : Nat) (bean : β) :
    Throwing Text.Thrown (BeanTreeModel β) :=
  (getPaths bean).foldlM (fun model path => model.addNodeToPath fuel m.count path)
    (m.newNode (.bean bean))

def addBeans (getPaths : β → List (List Char)) (fuel : Nat) (beans : List β) :
    Throwing Text.Thrown (BeanTreeModel β) :=
  beans.foldlM (fun model bean => model.addBean getPaths fuel bean) m

/-! ## Looking for a node -/

/-- `getNode`, with a `null` path where there is none. The outer result is `null` when no node is
found. -/
def getNode (getName : β → List Char) :
    Nat → Nat → Option (List Char) → Throwing Text.Thrown (Option Nat)
  | 0, _, _ => ExceptT.mk none
  | _ + 1, parent, none => pure (some parent)
  | fuel + 1, parent, some path =>
    if path.head? = some '/' then do
      let end_index := Text.indexOf path '/' 1
      let path_element ← ExceptT.mk (some (
        if end_index = -1 then Text.substring path 1 path.length
        else Text.substring path 1 end_index))
      let path_remainder ← ExceptT.mk (some (
        if end_index = -1 then .ok none
        else (Text.substring path end_index path.length).map some))
      let found := (m.nodes parent).children.find? fun node =>
        (m.nodes node).userObject.named getName path_element
      match found with
      | some node => getNode getName fuel node path_remainder
      | none => pure none
    else pure none

end BeanTreeModel

/-! ## Paths -/

/-- A slash before each component. -/
def pathOf (components : List (List Char)) : List Char := components.flatMap ('/' :: ·)

@[simp] theorem pathOf_nil : pathOf [] = [] := rfl

@[simp] theorem pathOf_cons (c : List Char) (cs : List (List Char)) :
    pathOf (c :: cs) = '/' :: (c ++ pathOf cs) := by
  simp [pathOf]

/-- The first slash behind a component. -/
theorem indexOf_pathOf (front : List Char) {c : List Char} (plain : '/' ∉ c)
    (cs : List (List Char)) :
    Text.indexOf (front ++ (c ++ pathOf cs)) '/' front.length =
      if cs = [] then -1 else ((front.length + c.length : Nat) : Int) := by
  cases cs with
  | nil =>
    rw [if_pos rfl]
    apply Text.indexOf_eq_neg_one
    simpa using plain
  | cons c' cs =>
    rw [if_neg (List.cons_ne_nil _ _), pathOf_cons]
    exact Text.indexOf_append plain

end VRJuggler.Tweek
