import Mathlib.Algebra.Group.Int.Defs
import Mathlib.Algebra.Group.Nat.Defs
import Mathlib.Data.List.Find
import Mathlib.Logic.Function.Basic
import VRJuggler.Base.Run

/-!
# The tree of profile nodes

The profile data of one thread. Nodes are objects with a pointer to their parent and a list of
children; names are compared as pointers. A path lists the names from a node up to the root,
which is not named in it, and every node has one path.
-/
namespace VRJuggler.Vpr

/-- A node without its pointers to other nodes' lists: the children are those along `mChild` and
`mSibling`. Times are `Interval`s in microseconds. -/
structure ProfileNode (ν : Type) where
  mName : ν
  mTotalCalls : BitVec 32 := 0
  mTotalTime : BitVec 64 := 0
  mLastSample : BitVec 64 := 0
  mHistory : List (BitVec 64) := []
  mMaxHistorySize : Nat := 0
  mStartTime : BitVec 64 := 0
  mRecursionCounter : Int := 0
  mParent : Option Nat := none
  children : List Nat := []

/-- The largest `int`. -/
def maxInt : Int := 2 ^ 31 - 1

namespace ProfileNode

variable {ν : Type} (node : ProfileNode ν)

/-- `startSample`; a counter beyond `int` is undefined. -/
def startSample (now : BitVec 64) : Option (ProfileNode ν) :=
  if node.mRecursionCounter = maxInt then none
  else some { node with
    mTotalCalls := node.mTotalCalls + 1
    mStartTime := if node.mRecursionCounter = 0 then now else node.mStartTime
    mRecursionCounter := node.mRecursionCounter + 1 }

/-- The sample that ends when the counter is zero again. -/
def endSample (now : BitVec 64) : ProfileNode ν :=
  let mLastSample := now - node.mStartTime
  { node with
    mLastSample := mLastSample
    mHistory :=
      if node.mMaxHistorySize ≠ 0 then (mLastSample :: node.mHistory).take node.mMaxHistorySize
      else node.mHistory
    mTotalTime := node.mTotalTime + mLastSample }

/-- `stopSample`, and if the thread should go back to the parent. -/
def stopSample (now : BitVec 64) : Option (ProfileNode ν × Bool) :=
  if node.mRecursionCounter = - maxInt - 1 then none
  else
    let counter := node.mRecursionCounter - 1
    let stopped := { node with mRecursionCounter := counter }
    if counter = 0 ∧ stopped.mTotalCalls ≠ 0 then some (stopped.endSample now, counter = 0)
    else some (stopped, counter = 0)

/-- Whether or not times are taken, the counter goes down and nothing else than times changes. -/
theorem stopSample_spec (now : BitVec 64) (room : node.mRecursionCounter ≠ - maxInt - 1) :
    ∃ stopped : ProfileNode ν,
      node.stopSample now = some (stopped, decide (node.mRecursionCounter - 1 = 0)) ∧
      stopped.mName = node.mName ∧ stopped.mParent = node.mParent ∧
      stopped.children = node.children ∧ stopped.mTotalCalls = node.mTotalCalls ∧
      stopped.mRecursionCounter = node.mRecursionCounter - 1 := by
  rw [stopSample, if_neg room]
  dsimp only
  split
  · exact ⟨_, rfl, rfl, rfl, rfl, rfl, rfl⟩
  · exact ⟨_, rfl, rfl, rfl, rfl, rfl, rfl⟩

end ProfileNode

/-- The nodes of a thread; the first of them is `mRoot`. -/
structure ThreadProfileData (ν : Type) where
  nodes : Nat → ProfileNode ν
  count : Nat
  mCurrentNode : Option Nat

inductive ProfileCall (ν : Type) where
  | startProfile (profileName : ν) (queueSize : Nat) (now : BitVec 64)
  | stopProfile (now : BitVec 64)

namespace ThreadProfileData

variable {ν : Type} [DecidableEq ν] (s : ThreadProfileData ν)

/-- New data with a root of that name. -/
def create (root : ν) : ThreadProfileData ν where
  nodes := fun _ => { mName := root }
  count := 1
  mCurrentNode := some 0

def getChild (i : Nat) (nodeName : ν) : Option Nat :=
  (s.nodes i).children.find? fun child => (s.nodes child).mName = nodeName

/-- A new node becomes the last child. -/
def addChild (i : Nat) (newNode : ProfileNode ν) : ThreadProfileData ν :=
  let nodes := Function.update s.nodes s.count { newNode with mParent := some i }
  { s with
    nodes := Function.update nodes i
      { nodes i with children := (nodes i).children ++ [s.count] }
    count := s.count + 1 }

/-- The child with the name, which is made if there is none. -/
def getSubNode (i : Nat) (profileName : ν) (queueSize : Nat) : ThreadProfileData ν × Nat :=
  match s.getChild i profileName with
  | some child => (s, child)
  | none => (s.addChild i { mName := profileName, mMaxHistorySize := queueSize }, s.count)

/-- A node is changed where it is. -/
def setNode (i : Nat) (node : ProfileNode ν) : ThreadProfileData ν :=
  { s with nodes := Function.update s.nodes i node }

/-- A null pointer has no node to start from. -/
def startProfile (profileName : ν) (queueSize : Nat) (now : BitVec 64) :
    Option (ThreadProfileData ν) :=
  match s.mCurrentNode with
  | none => none
  | some current =>
    let (s, current) :=
      if profileName ≠ (s.nodes current).mName then s.getSubNode current profileName queueSize
      else (s, current)
    match (s.nodes current).startSample now with
    | none => none
    | some node => some { s.setNode current node with mCurrentNode := some current }

def stopProfile (now : BitVec 64) : Option (ThreadProfileData ν) :=
  match s.mCurrentNode with
  | none => none
  | some current =>
    match (s.nodes current).stopSample now with
    | none => none
    | some (node, back) =>
      some { s.setNode current node with
        mCurrentNode := if back then node.mParent else some current }

def step : ProfileCall ν → Option (ThreadProfileData ν)
  | .startProfile profileName queueSize now => s.startProfile profileName queueSize now
  | .stopProfile now => s.stopProfile now

/-! ## Paths -/

/-- The node with a path. -/
def nodeAt : List ν → Option Nat
  | [] => some 0
  | name :: path => (nodeAt path).bind fun i => s.getChild i name

/-- The total calls of the node with a path, zero where there is no node. -/
def totalAt (path : List ν) : BitVec 32 :=
  match s.nodeAt path with
  | some i => (s.nodes i).mTotalCalls
  | none => 0

/-- The recursion counter of the node with a path. -/
def counterAt (path : List ν) : Int :=
  match s.nodeAt path with
  | some i => (s.nodes i).mRecursionCounter
  | none => 0

/-- The nodes are a tree in which no two siblings have the same name. -/
structure Tree (root : ν) (s : ThreadProfileData ν) : Prop where
  rooted : 0 < s.count
  root_parent : (s.nodes 0).mParent = none
  root_name : (s.nodes 0).mName = root
  children : ∀ i < s.count, ∀ child ∈ (s.nodes i).children,
    i < child ∧ child < s.count ∧ (s.nodes child).mParent = some i
  distinct : ∀ i < s.count,
    ((s.nodes i).children.map fun child => (s.nodes child).mName).Nodup
  parents : ∀ child < s.count, child ≠ 0 → ∃ i < s.count, child ∈ (s.nodes i).children

end ThreadProfileData

open ThreadProfileData

variable {ν : Type} [DecidableEq ν] {root : ν} {s : ThreadProfileData ν}

theorem getChild_eq_some {i child : Nat} {name : ν} (found : s.getChild i name = some child) :
    child ∈ (s.nodes i).children ∧ (s.nodes child).mName = name :=
  ⟨List.mem_of_find?_eq_some found, by simpa using List.find?_some found⟩

namespace ThreadProfileData.Tree

/-- A child is found by its name. -/
theorem getChild_of_mem (tree : s.Tree root) {i child : Nat} (inside : i < s.count)
    (member : child ∈ (s.nodes i).children) :
    s.getChild i (s.nodes child).mName = some child := by
  have distinct := tree.distinct i inside
  unfold getChild
  generalize (s.nodes i).children = children at member distinct
  induction children with
  | nil => cases member
  | cons first rest ih =>
    rw [List.map_cons, List.nodup_cons] at distinct
    by_cases here : first = child
    · simp [here]
    · have later := (List.mem_cons.mp member).resolve_left (Ne.symm here)
      rw [List.find?_cons_of_neg, ih later distinct.2]
      simp only [decide_eq_true_eq]
      exact fun same => distinct.1 (List.mem_map.mpr ⟨child, later, same.symm⟩)

theorem nodeAt_lt (tree : s.Tree root) {path : List ν} {i : Nat}
    (found : s.nodeAt path = some i) : i < s.count := by
  induction path generalizing i with
  | nil =>
    obtain rfl := Option.some.inj found
    exact tree.rooted
  | cons name path ih =>
    obtain ⟨parent, above, below⟩ := Option.bind_eq_some_iff.mp found
    exact (tree.children parent (ih above) i (getChild_eq_some below).1).2.1

/-- The node above, and the name that leads to the node. -/
theorem nodeAt_cons (tree : s.Tree root) {name : ν} {path : List ν} {i : Nat}
    (found : s.nodeAt (name :: path) = some i) : ∃ parent, s.nodeAt path = some parent ∧
      parent < i ∧ (s.nodes i).mParent = some parent ∧ (s.nodes i).mName = name := by
  obtain ⟨parent, above, below⟩ := Option.bind_eq_some_iff.mp found
  obtain ⟨member, called⟩ := getChild_eq_some below
  obtain ⟨less, _, back⟩ := tree.children parent (tree.nodeAt_lt above) i member
  exact ⟨parent, above, less, back, called⟩

/-- A node has one path only. -/
theorem nodeAt_inj (tree : s.Tree root) {path path' : List ν} {i : Nat}
    (found : s.nodeAt path = some i) (found' : s.nodeAt path' = some i) : path = path' := by
  induction path generalizing i path' with
  | nil =>
    obtain rfl := Option.some.inj found
    cases path' with
    | nil => rfl
    | cons name' path' =>
      obtain ⟨_, _, less, _⟩ := tree.nodeAt_cons found'
      exact absurd less (Nat.not_lt_zero _)
  | cons name path ih =>
    obtain ⟨parent, above, less, back, rfl⟩ := tree.nodeAt_cons found
    cases path' with
    | nil =>
      obtain rfl := Option.some.inj found'
      exact absurd less (Nat.not_lt_zero _)
    | cons name' path' =>
      obtain ⟨parent', above', _, back', rfl⟩ := tree.nodeAt_cons found'
      obtain rfl := Option.some.inj (back.symm.trans back')
      rw [ih above above']

/-- Every node has a path. -/
theorem exists_nodeAt (tree : s.Tree root) {i : Nat} (inside : i < s.count) :
    ∃ path, s.nodeAt path = some i := by
  induction i using Nat.strongRecOn with
  | ind i ih =>
    by_cases top : i = 0
    · exact ⟨[], top ▸ rfl⟩
    · obtain ⟨parent, known, member⟩ := tree.parents i inside top
      obtain ⟨path, above⟩ := ih parent (tree.children parent known i member).1 known
      exact ⟨(s.nodes i).mName :: path,
        by rw [nodeAt, above, Option.bind_some, tree.getChild_of_mem known member]⟩

/-- The name of the node at a path. -/
theorem name_of_nodeAt (tree : s.Tree root) {path : List ν} {i : Nat}
    (found : s.nodeAt path = some i) : (s.nodes i).mName = path.headD root := by
  cases path with
  | nil =>
    obtain rfl := Option.some.inj found
    exact tree.root_name
  | cons name path =>
    obtain ⟨_, _, _, _, called⟩ := tree.nodeAt_cons found
    exact called

end ThreadProfileData.Tree

/-! ## Changes of the tree -/

/-- The same nodes with the same names and pointers. -/
structure Alike (s s' : ThreadProfileData ν) : Prop where
  count : s'.count = s.count
  names : ∀ i, (s'.nodes i).mName = (s.nodes i).mName
  parents : ∀ i, (s'.nodes i).mParent = (s.nodes i).mParent
  children : ∀ i, (s'.nodes i).children = (s.nodes i).children

namespace Alike

variable {s' : ThreadProfileData ν}

theorem nodeAt (alike : Alike s s') (path : List ν) : s'.nodeAt path = s.nodeAt path := by
  induction path with
  | nil => rfl
  | cons name path ih =>
    rw [ThreadProfileData.nodeAt, ThreadProfileData.nodeAt, ih]
    simp only [getChild, alike.children, alike.names]

omit [DecidableEq ν] in
theorem tree (alike : Alike s s') (tree : s.Tree root) : s'.Tree root where
  rooted := alike.count ▸ tree.rooted
  root_parent := (alike.parents 0).trans tree.root_parent
  root_name := (alike.names 0).trans tree.root_name
  children := by
    simp only [alike.count, alike.children, alike.parents]
    exact tree.children
  distinct := by
    simp only [alike.count, alike.children, alike.names]
    exact tree.distinct
  parents := by
    simp only [alike.count, alike.children]
    exact tree.parents

end Alike

omit [DecidableEq ν] in
/-- A node changes, but for its name and pointers; the current node may change too. -/
theorem alike_setNode {i : Nat} {node : ProfileNode ν} (current : Option Nat)
    (name : node.mName = (s.nodes i).mName) (parent : node.mParent = (s.nodes i).mParent)
    (children : node.children = (s.nodes i).children) :
    Alike s { s.setNode i node with mCurrentNode := current } := by
  constructor
  · rfl
  all_goals
    intro j
    by_cases here : j = i
    · subst here
      simp [setNode, name, parent, children]
    · simp [setNode, here]

/-- What such a change does to the numbers at the paths. -/
theorem at_setNode (tree : s.Tree root) {i : Nat} {node : ProfileNode ν} {path : List ν}
    (found : s.nodeAt path = some i) {current : Option Nat}
    (alike : Alike s { s.setNode i node with mCurrentNode := current }) (q : List ν) :
    let after := { s.setNode i node with mCurrentNode := current }
    after.totalAt q = (if q = path then node.mTotalCalls else s.totalAt q) ∧
      after.counterAt q = (if q = path then node.mRecursionCounter else s.counterAt q) := by
  intro after
  have same : after.nodeAt q = s.nodeAt q := alike.nodeAt q
  unfold totalAt counterAt
  rw [same]
  by_cases here : q = path
  · subst here
    simp [found, after, setNode]
  · cases there : s.nodeAt q with
    | none => simp [here]
    | some j =>
      have other : j ≠ i := by
        rintro rfl
        exact here (tree.nodeAt_inj there found)
      simp [here, after, setNode, other]

section AddChild

variable {i queueSize : Nat} {name : ν} {path : List ν}

/-- The data after a child was added. -/
def grown (s : ThreadProfileData ν) (i : Nat) (name : ν) (queueSize : Nat) :
    ThreadProfileData ν :=
  s.addChild i { mName := name, mMaxHistorySize := queueSize }

omit [DecidableEq ν] in
theorem nodes_grown_new (inside : i < s.count) : (grown s i name queueSize).nodes s.count =
    { mName := name, mMaxHistorySize := queueSize, mParent := some i } := by
  simp [grown, addChild, Nat.ne_of_gt inside]

omit [DecidableEq ν] in
theorem nodes_grown_parent (inside : i < s.count) : (grown s i name queueSize).nodes i =
    { s.nodes i with children := (s.nodes i).children ++ [s.count] } := by
  simp [grown, addChild, Nat.ne_of_lt inside]

omit [DecidableEq ν] in
theorem nodes_grown_other {j : Nat} (notNew : j ≠ s.count) (notParent : j ≠ i) :
    (grown s i name queueSize).nodes j = s.nodes j := by
  simp [grown, addChild, notNew, notParent]

omit [DecidableEq ν] in
/-- Of a node that was there only the children can change. -/
theorem name_grown {j : Nat} (old : j < s.count) (inside : i < s.count) :
    ((grown s i name queueSize).nodes j).mName = (s.nodes j).mName := by
  by_cases here : j = i
  · subst here
    rw [nodes_grown_parent inside]
  · rw [nodes_grown_other (Nat.ne_of_lt old) here]

omit [DecidableEq ν] in
theorem parent_grown {j : Nat} (old : j < s.count) (inside : i < s.count) :
    ((grown s i name queueSize).nodes j).mParent = (s.nodes j).mParent := by
  by_cases here : j = i
  · subst here
    rw [nodes_grown_parent inside]
  · rw [nodes_grown_other (Nat.ne_of_lt old) here]

omit [DecidableEq ν] in
theorem children_grown {j : Nat} (old : j < s.count) (inside : i < s.count) :
    ((grown s i name queueSize).nodes j).children =
      (s.nodes j).children ++ if j = i then [s.count] else [] := by
  by_cases here : j = i
  · subst here
    simp [nodes_grown_parent inside]
  · simp [nodes_grown_other (Nat.ne_of_lt old) here, here]

omit [DecidableEq ν] in
/-- The names of old children are what they were. -/
theorem names_grown (tree : s.Tree root) {j : Nat} (old : j < s.count) (inside : i < s.count) :
    ((s.nodes j).children.map fun child => ((grown s i name queueSize).nodes child).mName) =
      (s.nodes j).children.map fun child => (s.nodes child).mName :=
  List.map_congr_left fun child member =>
    name_grown (tree.children j old child member).2.1 inside

theorem tree_grown (tree : s.Tree root) (inside : i < s.count)
    (fresh : s.getChild i name = none) : (grown s i name queueSize).Tree root where
  rooted := Nat.succ_pos _
  root_parent := (parent_grown tree.rooted inside).trans tree.root_parent
  root_name := (name_grown tree.rooted inside).trans tree.root_name
  children := by
    intro j small child member
    rcases Nat.lt_succ_iff_lt_or_eq.mp small with old | rfl
    · rw [children_grown old inside, List.mem_append] at member
      rcases member with before | new
      · obtain ⟨less, known, back⟩ := tree.children j old child before
        exact ⟨less, Nat.lt_succ_of_lt known, (parent_grown known inside).trans back⟩
      · by_cases here : j = i
        · subst here
          obtain rfl : child = s.count := by simpa using new
          exact ⟨old, Nat.lt_succ_self _, by rw [nodes_grown_new inside]⟩
        · simp [here] at new
    · rw [nodes_grown_new inside] at member
      cases member
  distinct := by
    intro j small
    rcases Nat.lt_succ_iff_lt_or_eq.mp small with old | rfl
    · have before := tree.distinct j old
      rw [children_grown old inside, List.map_append, names_grown tree old inside]
      by_cases here : j = i
      · subst here
        -- no child had the name of the new one
        have none' : name ∉ (s.nodes j).children.map fun child => (s.nodes child).mName := by
          simpa [getChild] using fresh
        rw [if_pos rfl, List.map_singleton, nodes_grown_new inside, List.nodup_append]
        refine ⟨before, by simp, ?_⟩
        rintro called member _ new rfl
        obtain rfl : called = name := List.mem_singleton.mp new
        exact none' member
      · simpa [here] using before
    · rw [nodes_grown_new inside]
      exact List.nodup_nil
  parents := by
    intro child small below
    rcases Nat.lt_succ_iff_lt_or_eq.mp small with old | rfl
    · obtain ⟨j, known, member⟩ := tree.parents child old below
      refine ⟨j, Nat.lt_succ_of_lt known, ?_⟩
      rw [children_grown known inside]
      exact List.mem_append_left _ member
    · refine ⟨i, Nat.lt_succ_of_lt inside, ?_⟩
      rw [children_grown inside inside, if_pos rfl]
      exact List.mem_append_right _ (List.mem_singleton_self _)

/-- The new node is found at its path, and every other node where it was. -/
theorem nodeAt_grown (tree : s.Tree root) (found : s.nodeAt path = some i)
    (fresh : s.getChild i name = none) (queueSize : Nat) (q : List ν) :
    (grown s i name queueSize).nodeAt q =
      if q = name :: path then some s.count else s.nodeAt q := by
  have inside := tree.nodeAt_lt found
  induction q with
  | nil => rfl
  | cons called q ih =>
    rw [nodeAt, ih]
    by_cases below : q = name :: path
    · -- the new node has no children, and there was nothing below it
      subst below
      have nothing : s.nodeAt (name :: path) = none := by
        rw [nodeAt, found, Option.bind_some, fresh]
      have leaf : (grown s i name queueSize).getChild s.count called = none := by
        rw [getChild, nodes_grown_new inside]
        rfl
      rw [if_pos rfl, Option.bind_some, leaf, nodeAt, nothing, if_neg (by simp)]
      rfl
    · rw [if_neg below]
      cases above : s.nodeAt q with
      | none =>
        have other : q ≠ path := by
          rintro rfl
          cases above.symm.trans found
        rw [nodeAt, above, if_neg (by simp [other])]
        rfl
      | some j =>
        have old := tree.nodeAt_lt above
        have first : (s.nodes j).children.find? (fun child =>
            ((grown s i name queueSize).nodes child).mName = called) = s.getChild j called := by
          refine List.find?_congr fun child member => ?_
          rw [name_grown (tree.children j old child member).2.1 inside]
        rw [Option.bind_some, getChild, children_grown old inside, List.find?_append, first]
        rw [nodeAt, above, Option.bind_some]
        by_cases here : j = i
        · subst here
          obtain rfl := tree.nodeAt_inj found above
          by_cases new : called = name
          · subst new
            simp [fresh, nodes_grown_new inside]
          · simp [new, Ne.symm new, nodes_grown_new inside]
        · have other : q ≠ path := by
            rintro rfl
            exact here (Option.some.inj (above.symm.trans found))
          simp [here, other]

/-- A new node has no calls yet, and the others keep theirs. -/
theorem at_grown (tree : s.Tree root) (found : s.nodeAt path = some i)
    (fresh : s.getChild i name = none) (queueSize : Nat) (q : List ν) :
    (grown s i name queueSize).totalAt q = s.totalAt q ∧
      (grown s i name queueSize).counterAt q = s.counterAt q := by
  have inside := tree.nodeAt_lt found
  unfold totalAt counterAt
  rw [nodeAt_grown tree found fresh queueSize]
  by_cases new : q = name :: path
  · have nothing : s.nodeAt q = none := by
      rw [new, nodeAt, found, Option.bind_some, fresh]
    rw [if_pos new, nothing]
    simp [nodes_grown_new inside]
  · rw [if_neg new]
    cases there : s.nodeAt q with
    | none => exact ⟨rfl, rfl⟩
    | some j =>
      by_cases here : j = i
      · subst here
        simp [nodes_grown_parent inside]
      · simp [nodes_grown_other (Nat.ne_of_lt (tree.nodeAt_lt there)) here]

end AddChild

end VRJuggler.Vpr
