import Mathlib.Data.List.NodupEquivFin
import Mathlib.Data.List.Range
import VRJuggler.Base.Hierarchy
import VRJuggler.Base.Siblings
import VRJuggler.Vpr.ProfileManager

/-!
# Looking at profiles

The nodes of a thread are listed by an iterator, which has no stack, and by recursive functions:
one prints them, one collects their names, one resets them. Each of them comes to every node once,
also in a tree that was reset while samples were running.
-/
namespace VRJuggler.Vpr

variable {ν : Type}

namespace ProfileNode

/-- The numbers of a node are reset, but not those of the sample that is running. -/
def reset (node : ProfileNode ν) : ProfileNode ν :=
  { node with mTotalCalls := 0, mTotalTime := 0, mLastSample := 0, mHistory := [] }

end ProfileNode

/-- A node behind another in a list of children. -/
def following (i : Nat) : List Nat → Option Nat
  | [] => none
  | j :: rest => if j = i then rest.head? else following i rest

namespace ThreadProfileData

variable (s : ThreadProfileData ν)

def mChild (i : Nat) : Option Nat := (s.nodes i).children.head?

/-- A node without a parent has no siblings. -/
def mSibling (i : Nat) : Option Nat :=
  (s.nodes i).mParent.bind fun parent => following i (s.nodes parent).children

def pointers : Pointers Nat where
  parent i := (s.nodes i).mParent
  child := s.mChild
  sibling := s.mSibling

/-- What `ProfileNode::printTree` lists: the nodes with the depths to which they are indented. It is
called for the child and the sibling that there are. -/
def printTree : Nat → Option Nat → BitVec 32 → Option (List (Nat × BitVec 32))
  | _, none, _ => some []
  | 0, some _, _ => none
  | fuel + 1, some i, depth => do
    let children ← printTree fuel (s.mChild i) (depth + 1)
    let siblings ← printTree fuel (s.mSibling i) depth
    some ((i, depth) :: (children ++ siblings))

/-- Siblings come before the node, and children after it. -/
def getNamesRecursively : Nat → Option Nat → Option (List ν)
  | _, none => some []
  | 0, some _ => none
  | fuel + 1, some node => do
    let siblings ← getNamesRecursively fuel (s.mSibling node)
    let children ← getNamesRecursively fuel (s.mChild node)
    some (siblings ++ (s.nodes node).mName :: children)

/-- `ProfileNode::reset`. -/
def resetNode : Nat → Option Nat → ThreadProfileData ν → Option (ThreadProfileData ν)
  | _, none, s => some s
  | 0, some _, _ => none
  | fuel + 1, some i, s => do
    let s := s.setNode i (s.nodes i).reset
    let s ← resetNode fuel (s.mChild i) s
    resetNode fuel (s.mSibling i) s

/-- `ProfileManager::reset`. -/
def reset : Option (ThreadProfileData ν) := resetNode s.count (some 0) s

end ThreadProfileData

structure ProfileIterator where
  mCurrentParent : Option Nat
  mCurrentNode : Option Nat
  mDepth : BitVec 32
  deriving DecidableEq

namespace ProfileIterator

variable (s : ThreadProfileData ν)

def ofNode (start : Option Nat) : ProfileIterator where
  mCurrentParent := start.bind fun node => (s.nodes node).mParent
  mCurrentNode := start
  mDepth := 0

/-- `ProfileManager::begin`. -/
def begin : ProfileIterator := ofNode s (some 0)

/-- `ProfileManager::end`. -/
def end_ : ProfileIterator := ⟨none, none, 0⟩

/-- The search for a parent that has a sibling. -/
def searchUp : Nat → Option Nat → BitVec 32 → Option (Option Nat × BitVec 32)
  | 0, _, _ => none
  | fuel + 1, cur_parent, mDepth =>
    match cur_parent with
    | none => some (none, mDepth)
    | some parent =>
      if s.mSibling parent = none then searchUp fuel (s.nodes parent).mParent (mDepth - 1)
      else some (some parent, mDepth)

/-- A depth beyond 10000 is taken for an overflow. -/
def settle (mDepth : BitVec 32) : BitVec 32 := if 10000 < mDepth then 0 else mDepth

/-- `operator++`; the iterator must not be at the end. -/
def next (fuel : Nat) (it : ProfileIterator) : Option ProfileIterator := do
  let current ← it.mCurrentNode
  match s.mChild current with
  | some child => some ⟨some current, some child, it.mDepth + 1⟩
  | none =>
    match s.mSibling current with
    | some sibling => some { it with mCurrentNode := some sibling }
    | none => do
      let (cur_parent, mDepth) ← searchUp s fuel it.mCurrentParent (it.mDepth - 1)
      match cur_parent with
      | none => some end_
      | some parent => do
        let sibling ← s.mSibling parent
        some ⟨(s.nodes sibling).mParent, some sibling, settle mDepth⟩

/-- The nodes that `operator<<` prints, with the depths of the iterator. -/
def output : Nat → ProfileIterator → Option (List (Nat × BitVec 32))
  | 0, _ => none
  | fuel + 1, it =>
    if it = end_ then some []
    else do
      let node ← it.mCurrentNode
      let it' ← next s fuel it
      let rest ← output fuel it'
      some ((node, it.mDepth) :: rest)

end ProfileIterator

/-! ## The forest of the nodes -/

namespace ThreadProfileData.Tree

variable {root : ν} {s : ThreadProfileData ν}

theorem following_append {i : Nat} {front rest : List Nat} (first : i ∉ front) :
    following i (front ++ i :: rest) = rest.head? := by
  induction front with
  | nil => simp [following]
  | cons j front ih =>
    rw [List.mem_cons, not_or] at first
    rw [List.cons_append, following, if_neg (Ne.symm first.1), ih first.2]

theorem nodup_children (tree : s.Tree root) {i : Nat} (inside : i < s.count) :
    (s.nodes i).children.Nodup := List.Nodup.of_map _ (tree.distinct i inside)

/-- Some last children of a node, with what is below them. -/
theorem exists_row (tree : s.Tree root) {i : Nat} (inside : i < s.count) {row : List Nat}
    (last : row <:+ (s.nodes i).children) :
    ∃ f, s.pointers.Holds (some i) row.head? f ∧ f.tops = row ∧
      ∀ x ∈ f.nodes, x < s.count ∧ (s.nodes x).children ⊆ f.nodes := by
  induction left : s.count - i using Nat.strong_induction_on generalizing i row with
  | _ n ih =>
    subst left
    induction row with
    | nil => exact ⟨.nil, .nil _, rfl, by simp [Forest.nodes]⟩
    | cons a row row_ih =>
      obtain ⟨next, siblings, same, closed⟩ :=
        row_ih ((List.suffix_cons a row).trans last)
      have member : a ∈ (s.nodes i).children := last.subset (List.mem_cons_self ..)
      obtain ⟨later, inside', parent⟩ := tree.children i inside a member
      obtain ⟨below, children, all, closed'⟩ :=
        ih (s.count - a) (by omega) inside' (List.suffix_refl (s.nodes a).children) rfl
      have sibling : s.mSibling a = row.head? := by
        obtain ⟨front, parts⟩ := last
        have nodup := tree.nodup_children inside
        rw [← parts] at nodup
        have first : a ∉ front := fun twice =>
          List.disjoint_of_nodup_append nodup twice (List.mem_cons_self ..)
        rw [mSibling, parent, Option.bind_some, ← parts, following_append first]
      have siblings' : s.pointers.Holds (some i) (s.mSibling a) next := sibling ▸ siblings
      refine ⟨.node a below next, .node parent children siblings', congrArg (a :: ·) same,
        fun x here => ?_⟩
      simp only [Forest.nodes, List.mem_cons, List.mem_append] at here
      rcases here with rfl | here | here
      · refine ⟨inside', fun y child => List.mem_cons_of_mem _ (List.mem_append_left _ ?_)⟩
        exact below.tops_subset_nodes (all ▸ child)
      · exact ⟨(closed' x here).1, fun y child =>
          List.mem_cons_of_mem _ (List.mem_append_left _ ((closed' x here).2 child))⟩
      · exact ⟨(closed x here).1, fun y child =>
          List.mem_cons_of_mem _ (List.mem_append_right _ ((closed x here).2 child))⟩

theorem parent_lt (tree : s.Tree root) {a b : Nat} (inside : a < s.count)
    (parent : (s.nodes a).mParent = some b) : b < s.count ∧ b < a ∧ a ∈ (s.nodes b).children := by
  have other : a ≠ 0 := by
    rintro rfl
    cases tree.root_parent.symm.trans parent
  obtain ⟨c, inside', child⟩ := tree.parents a inside other
  obtain ⟨later, -, parent'⟩ := tree.children c inside' a child
  obtain rfl := Option.some.inj (parent.symm.trans parent')
  exact ⟨inside', later, child⟩

/-- The pointers hold a forest, from the root on, of all nodes. -/
theorem exists_forest (tree : s.Tree root) :
    ∃ f, s.pointers.Holds none (some 0) f ∧ f.nodes.Perm (List.range s.count) := by
  obtain ⟨below, children, tops, closed⟩ :=
    tree.exists_row tree.rooted (List.suffix_refl (s.nodes 0).children)
  have alone : s.mSibling 0 = none := by rw [mSibling, tree.root_parent, Option.bind_none]
  let f : Forest Nat := .node 0 below .nil
  have holds : s.pointers.Holds none (some 0) f := by
    refine .node tree.root_parent children ?_
    show s.pointers.Holds none (s.mSibling 0) .nil
    rw [alone]
    exact .nil _
  have inside (x : Nat) (member : x ∈ f.nodes) : x < s.count := by
    simp only [f, Forest.nodes, List.append_nil, List.mem_cons] at member
    rcases member with rfl | member
    · exact tree.rooted
    · exact (closed x member).1
  have nodup : f.nodes.Nodup := by
    have ranked (a b : Nat) (here : a < s.count) (parent : s.pointers.parent a = some b) :
        b < s.count ∧ id b < id a :=
      ⟨(tree.parent_lt here parent).1, (tree.parent_lt here parent).2.1⟩
    exact holds.nodup ranked inside
  have all (x : Nat) (here : x < s.count) : x ∈ f.nodes := by
    induction x using Nat.strong_induction_on with
    | _ x ih =>
      by_cases first : x = 0
      · exact first ▸ List.mem_cons_self ..
      · obtain ⟨c, inside', child⟩ := tree.parents x here first
        obtain ⟨later, -, -⟩ := tree.children c inside' x child
        have parent := ih c later inside'
        simp only [f, Forest.nodes, List.append_nil, List.mem_cons] at parent ⊢
        rcases parent with rfl | parent
        · exact .inr (below.tops_subset_nodes (tops ▸ child))
        · exact .inr ((closed c parent).2 child)
  refine ⟨f, holds, (List.perm_ext_iff_of_nodup nodup List.nodup_range).mpr fun x => ?_⟩
  rw [List.mem_range]
  exact ⟨inside x, all x⟩

theorem parent_of_child (tree : s.Tree root) {a c : Nat} (inside : a < s.count)
    (child : s.mChild a = some c) : (s.nodes c).mParent = some a :=
  (tree.children a inside c (List.mem_of_mem_head? child)).2.2

theorem parent_of_sibling (tree : s.Tree root) {a b : Nat} (inside : a < s.count)
    (sibling : s.mSibling a = some b) : (s.nodes b).mParent = (s.nodes a).mParent := by
  obtain ⟨parent, above, found⟩ := Option.bind_eq_some_iff.mp sibling
  have member : b ∈ (s.nodes parent).children := by
    generalize (s.nodes parent).children = row at found
    induction row with
    | nil => cases found
    | cons j row ih =>
      rw [following] at found
      split at found
      · exact List.mem_cons_of_mem _ (List.mem_of_mem_head? found)
      · exact List.mem_cons_of_mem _ (ih found)
  rw [above]
  exact (tree.children parent (tree.parent_lt inside above).1 b member).2.2

end ThreadProfileData.Tree

/-! ## The recursive functions -/

section Recursion

variable {s : ThreadProfileData ν} {up : Option Nat} {f : Forest Nat}

/-- `printTree` lists the forest in preorder. -/
theorem printTree_of_holds {o : Option Nat} (holds : s.pointers.Holds up o f) {fuel : Nat}
    (enough : f.size ≤ fuel) (d : BitVec 32) :
    s.printTree fuel o d = some (f.preorder (· + 1) d) := by
  induction holds generalizing fuel d with
  | nil => cases fuel <;> rfl
  | @node up a below next parent children siblings children_ih siblings_ih =>
    rw [Forest.size] at enough
    obtain ⟨fuel, rfl⟩ := Nat.exists_eq_add_one_of_ne_zero (Nat.ne_of_gt (by omega : 0 < fuel))
    have first : s.printTree fuel (s.mChild a) (d + 1) = _ := children_ih (by omega) (d + 1)
    have second : s.printTree fuel (s.mSibling a) d = _ := siblings_ih (by omega) d
    rw [ThreadProfileData.printTree, first, second]
    rfl

/-- `getNamesRecursively` has every name as often as it stands at a node. -/
theorem getNames_of_holds {o : Option Nat} (holds : s.pointers.Holds up o f) :
    ∃ names, (∀ fuel, f.size ≤ fuel → s.getNamesRecursively fuel o = some names) ∧
      names.Perm (f.nodes.map fun i => (s.nodes i).mName) := by
  induction holds with
  | nil => exact ⟨[], fun fuel _ => by cases fuel <;> rfl, .refl _⟩
  | @node up a below next parent children siblings children_ih siblings_ih =>
    obtain ⟨inside, first, same⟩ := children_ih
    obtain ⟨beside, second, same'⟩ := siblings_ih
    refine ⟨beside ++ (s.nodes a).mName :: inside, fun fuel enough => ?_, ?_⟩
    · rw [Forest.size] at enough
      obtain ⟨fuel, rfl⟩ := Nat.exists_eq_add_one_of_ne_zero (Nat.ne_of_gt (by omega : 0 < fuel))
      have first' : s.getNamesRecursively fuel (s.mChild a) = some inside := first fuel (by omega)
      have second' : s.getNamesRecursively fuel (s.mSibling a) = some beside :=
        second fuel (by omega)
      rw [ThreadProfileData.getNamesRecursively, first', second']
      rfl
    · rw [Forest.nodes, List.map_cons, List.map_append]
      refine List.perm_middle.trans (.cons _ ?_)
      exact List.perm_append_comm.trans (same.append same')

/-- These nodes are reset. -/
def ThreadProfileData.resetAll (s : ThreadProfileData ν) (l : List Nat) : ThreadProfileData ν :=
  { s with nodes := fun i => if i ∈ l then (s.nodes i).reset else s.nodes i }

@[simp] theorem pointers_resetAll (l : List Nat) : (s.resetAll l).pointers = s.pointers := by
  have same (i : Nat) : ((s.resetAll l).nodes i).mParent = (s.nodes i).mParent ∧
      ((s.resetAll l).nodes i).children = (s.nodes i).children := by
    rw [ThreadProfileData.resetAll]
    dsimp only
    split <;> exact ⟨rfl, rfl⟩
  have children : (s.resetAll l).mChild = s.mChild :=
    funext fun i => congrArg List.head? (same i).2
  have siblings : (s.resetAll l).mSibling = s.mSibling := by
    funext i
    simp only [ThreadProfileData.mSibling, (same _).1, (same _).2]
  simp only [ThreadProfileData.pointers, children, siblings, (same _).1]

theorem setNode_reset (i : Nat) : s.setNode i (s.nodes i).reset = s.resetAll [i] := by
  simp only [ThreadProfileData.setNode, ThreadProfileData.resetAll, List.mem_singleton]
  congr 1
  funext j
  by_cases here : j = i
  · simp [here]
  · simp [here]

/-- To reset a node twice makes no difference. -/
theorem resetAll_resetAll (l l' : List Nat) :
    (s.resetAll l).resetAll l' = s.resetAll (l ++ l') := by
  simp only [ThreadProfileData.resetAll, List.mem_append]
  congr 1
  funext i
  by_cases first : i ∈ l <;> by_cases second : i ∈ l' <;> simp [first, second, ProfileNode.reset]

theorem resetNode_of_holds {o : Option Nat} (holds : s.pointers.Holds up o f) {fuel : Nat}
    (enough : f.size ≤ fuel) (done : List Nat) :
    ThreadProfileData.resetNode fuel o (s.resetAll done) = some (s.resetAll (done ++ f.nodes)) := by
  induction holds generalizing fuel done with
  | nil => cases fuel <;> simp [ThreadProfileData.resetNode, Forest.nodes]
  | @node up a below next parent children siblings children_ih siblings_ih =>
    rw [Forest.size] at enough
    obtain ⟨fuel, rfl⟩ := Nat.exists_eq_add_one_of_ne_zero (Nat.ne_of_gt (by omega : 0 < fuel))
    -- the pointers stay as they are
    have child (l : List Nat) : (s.resetAll l).mChild a = s.pointers.child a :=
      congrFun (congrArg Pointers.child (pointers_resetAll l)) a
    have sibling (l : List Nat) : (s.resetAll l).mSibling a = s.pointers.sibling a :=
      congrFun (congrArg Pointers.sibling (pointers_resetAll l)) a
    have first (l : List Nat) : ThreadProfileData.resetNode fuel (s.pointers.child a)
        (s.resetAll l) = some (s.resetAll (l ++ below.nodes)) := children_ih (by omega) l
    have second (l : List Nat) : ThreadProfileData.resetNode fuel (s.pointers.sibling a)
        (s.resetAll l) = some (s.resetAll (l ++ next.nodes)) := siblings_ih (by omega) l
    rw [ThreadProfileData.resetNode, setNode_reset, resetAll_resetAll]
    simp only [child, first, Option.bind_eq_bind, Option.bind_some, sibling, second]
    simp [Forest.nodes]

end Recursion

/-! ## The iterator -/

namespace ProfileIterator

variable {root : ν} {s : ThreadProfileData ν}

/-- The iterator at a node. -/
def onNode (s : ThreadProfileData ν) (e : Nat × BitVec 32) : ProfileIterator :=
  ⟨(s.nodes e.1).mParent, some e.1, e.2⟩

theorem searchUp_of_climbs {up o : Option Nat} {k : Nat} (climbs : s.pointers.Climbs up k o) :
    ∃ deep, ∀ fuel, deep ≤ fuel → ∀ d, ∃ cur_parent,
      searchUp s fuel up d = some (cur_parent, (· - 1)^[k] d) ∧ cur_parent.bind s.mSibling = o ∧
        (o = none → cur_parent = none) := by
  induction climbs with
  | out =>
    refine ⟨1, fun fuel enough d => ⟨none, ?_, rfl, fun _ => rfl⟩⟩
    obtain ⟨fuel, rfl⟩ := Nat.exists_eq_add_one_of_ne_zero (Nat.ne_of_gt enough)
    rfl
  | @found a b sibling =>
    have sibling' : s.mSibling a = some b := sibling
    refine ⟨1, fun fuel enough d => ⟨some a, ?_, sibling', fun none => nomatch none⟩⟩
    obtain ⟨fuel, rfl⟩ := Nat.exists_eq_add_one_of_ne_zero (Nat.ne_of_gt enough)
    simp [searchUp, sibling']
  | @higher a k o last _ ih =>
    have last' : s.mSibling a = none := last
    obtain ⟨deep, ih⟩ := ih
    refine ⟨deep + 1, fun fuel enough d => ?_⟩
    obtain ⟨fuel, rfl⟩ := Nat.exists_eq_add_one_of_ne_zero (by omega : fuel ≠ 0)
    obtain ⟨cur_parent, found, lands, out⟩ := ih fuel (by omega) (d - 1)
    refine ⟨cur_parent, ?_, lands, out⟩
    rw [searchUp, if_pos last', Function.iterate_succ_apply]
    exact found

/-- `operator++` is a step of the walk. -/
theorem returns_next (tree : s.Tree root) {x : Nat × BitVec 32} {y : Option (Nat × BitVec 32)}
    (inside : x.1 < s.count) (step : s.pointers.Next (· + 1) (· - 1) settle x y) :
    Returns (fun fuel => next s fuel (onNode s x)) ((y.map (onNode s)).getD end_) := by
  cases step with
  | @child a c d child =>
    have child' : s.mChild a = some c := child
    refine ⟨0, fun fuel _ => ?_⟩
    simp [next, onNode, child', tree.parent_of_child inside child']
  | @sibling a b d leaf sibling =>
    have leaf' : s.mChild a = none := leaf
    have sibling' : s.mSibling a = some b := sibling
    refine ⟨0, fun fuel _ => ?_⟩
    simp [next, onNode, leaf', sibling', tree.parent_of_sibling inside sibling']
  | @climb a o d k leaf last climbs =>
    have leaf' : s.mChild a = none := leaf
    have last' : s.mSibling a = none := last
    obtain ⟨deep, searched⟩ := searchUp_of_climbs climbs
    refine ⟨deep, fun fuel enough => ?_⟩
    obtain ⟨cur_parent, found, lands, out⟩ := searched fuel enough (d - 1)
    have found' : searchUp s fuel (s.nodes a).mParent (d - 1) =
      some (cur_parent, (· - 1)^[k + 1] d) := found
    cases o with
    | none =>
      obtain rfl := out rfl
      simp only [next, onNode, leaf', last', found', Option.bind_eq_bind, Option.bind_some]
      rfl
    | some b =>
      obtain ⟨parent, rfl, sibling⟩ := Option.bind_eq_some_iff.mp lands
      simp only [next, onNode, leaf', last', found', sibling, Option.bind_eq_bind, Option.bind_some]
      rfl

theorem returns_output (tree : s.Tree root) {x : Nat × BitVec 32} {l : List (Nat × BitVec 32)}
    (walk : s.pointers.Walk (· + 1) (· - 1) settle x l none) (inside : ∀ e ∈ l, e.1 < s.count) :
    Returns (fun fuel => output s fuel (onNode s x)) l := by
  have goesOn (x : Nat × BitVec 32) {it : ProfileIterator} {rest : List (Nat × BitVec 32)}
      (first : Returns (fun fuel => next s fuel (onNode s x)) it)
      (others : Returns (fun fuel => output s fuel it) rest) :
      Returns (fun fuel => output s fuel (onNode s x)) (x :: rest) := by
    have both : Returns (fun fuel => (next s fuel (onNode s x)).bind fun it =>
        (output s fuel it).map (x :: ·)) (x :: rest) := by
      obtain ⟨m, first⟩ := first
      obtain ⟨n, others⟩ := others
      refine ⟨max m n, fun fuel enough => ?_⟩
      simp only [first fuel (Nat.le_trans (Nat.le_max_left m n) enough), Option.bind_some,
        others fuel (Nat.le_trans (Nat.le_max_right m n) enough), Option.map_some]
    refine both.congr fun fuel => ?_
    have notEnd : onNode s x ≠ end_ := fun same => nomatch congrArg mCurrentNode same
    rw [output, if_neg notEnd]
    simp only [onNode, Option.bind_eq_bind, Option.bind_some, Option.map_eq_bind]
    rfl
  have ends : Returns (fun fuel => output s fuel end_) [] := by
    refine ⟨1, fun fuel enough => ?_⟩
    obtain ⟨fuel, rfl⟩ := Nat.exists_eq_add_one_of_ne_zero (Nat.ne_of_gt enough)
    rfl
  generalize here : (none : Option (Nat × BitVec 32)) = z at walk
  induction walk with
  | one step =>
    subst here
    exact goesOn _ (returns_next tree (inside _ (List.mem_cons_self ..)) step) ends
  | more step _ ih =>
    exact goesOn _ (returns_next tree (inside _ (List.mem_cons_self ..)) step)
      (ih (fun e member => inside e (List.mem_cons_of_mem _ member)) here)

end ProfileIterator

/-! ## Runs with resets -/

section Runs

variable [DecidableEq ν]

inductive ManagerCall (ν : Type) where
  | profile (c : ProfileCall ν)
  | reset

def ThreadProfileData.managerStep (s : ThreadProfileData ν) :
    ManagerCall ν → Option (ThreadProfileData ν)
  | .profile c => s.step c
  | .reset => s.reset

/-- What the calls do to a profile without a tree. -/
def Profile.managerStep (root : ν) (a : Profile ν) : ManagerCall ν → Option (Profile ν)
  | .profile c => a.step root c
  | .reset => some { a with totalCalls := fun _ => 0 }

open ThreadProfileData (create)

variable {root : ν} {before s : ThreadProfileData ν} {a : Profile ν}

omit [DecidableEq ν] in
/-- All nodes are reset, whatever stands at them. -/
theorem reset_eq (tree : s.Tree root) : s.reset = some (s.resetAll (List.range s.count)) := by
  obtain ⟨f, holds, all⟩ := tree.exists_forest
  have size (f : Forest Nat) : f.size = f.nodes.length := by
    induction f with
    | nil => rfl
    | node a below next below_ih next_ih =>
      simp [Forest.size, Forest.nodes, below_ih, next_ih]
  have enough : f.size ≤ s.count := by
    rw [size, all.length_eq, List.length_range]
  have done := resetNode_of_holds holds enough []
  have nothing : s.resetAll [] = s := by simp [ThreadProfileData.resetAll]
  rw [nothing, List.nil_append] at done
  rw [ThreadProfileData.reset, done]
  simp only [ThreadProfileData.resetAll, all.mem_iff]

/-- A reset keeps the tree and the samples that are running. -/
theorem simulates_reset (sim : Simulates root before s a) : ∃ t, s.reset = some t ∧
    Simulates root before t { a with totalCalls := fun _ => 0 } := by
  refine ⟨_, reset_eq sim.tree, ?_⟩
  let t := s.resetAll (List.range s.count)
  have node (i : Nat) : (t.nodes i).mName = (s.nodes i).mName ∧
      (t.nodes i).mParent = (s.nodes i).mParent ∧ (t.nodes i).children = (s.nodes i).children ∧
      (t.nodes i).mRecursionCounter = (s.nodes i).mRecursionCounter := by
    simp only [t, ThreadProfileData.resetAll]
    split <;> exact ⟨rfl, rfl, rfl, rfl⟩
  have alike : Alike s t :=
    ⟨rfl, fun i => (node i).1, fun i => (node i).2.1, fun i => (node i).2.2.1⟩
  have same := alike.nodeAt
  refine ⟨alike.tree sim.tree, fun path i known => (same path).trans (sim.grows path i known), ?_⟩
  constructor
  case current =>
    refine sim.views.current.trans ?_
    cases a.current with
    | none => rfl
    | some path => exact (same path).symm
  case located =>
    intro path here
    rw [same]
    exact sim.views.located path here
  case totals =>
    intro path
    unfold ThreadProfileData.totalAt
    rw [same]
    cases found : s.nodeAt path with
    | none => rfl
    | some i => simp [ThreadProfileData.resetAll, sim.tree.nodeAt_lt found, ProfileNode.reset]
  case counters =>
    intro path
    rw [← sim.views.counters path]
    unfold ThreadProfileData.counterAt
    rw [same]
    cases s.nodeAt path with
    | none => rfl
    | some i => exact (node i).2.2.2

theorem simulates_managerStep (sim : Simulates root before s a) (c : ManagerCall ν) :
    Option.Rel (Simulates root before) (s.managerStep c) (a.managerStep root c) := by
  cases c with
  | profile c => exact simulates_step sim c
  | reset =>
    obtain ⟨t, done, sim'⟩ := simulates_reset sim
    rw [ThreadProfileData.managerStep, done]
    exact .some sim'

/-- Calls that start and stop samples and reset the profile, in any order, are defined on the tree
just if they are on the profile without a tree, and do to the paths of the tree what they do to it:
a reset makes all numbers of calls zero and leaves the samples that are running. -/
theorem profile_refined (root : ν) (calls : List (ManagerCall ν)) :
    Option.Rel (Simulates root (create root))
      (run ThreadProfileData.managerStep (create root) calls)
      (run (Profile.managerStep root)
        { current := some [], totalCalls := fun _ => 0, counter := fun _ => 0 } calls) :=
  run_rel (fun _ _ c sim => simulates_managerStep sim c) (simulates_create root) calls

/-- What a listing should be: every node once, with the number of the names on its path. -/
structure Listed (s : ThreadProfileData ν) (listing : List (Nat × Nat)) : Prop where
  every : (listing.map Prod.fst).Perm (List.range s.count)
  depth : ∀ e ∈ listing, ∃ path, s.nodeAt path = some e.1 ∧ path.length = e.2

/-- The depths in a forest are those of the paths. -/
theorem length_of_preorder (tree : s.Tree root) {up o : Option Nat} {f : Forest Nat}
    (holds : s.pointers.Holds up o f) {d : Nat} (inside : ∀ x ∈ f.nodes, x < s.count)
    (first : ∀ x ∈ f.tops, ∃ path, s.nodeAt path = some x ∧ path.length = d) :
    ∀ e ∈ f.preorder (· + 1) d, ∃ path, s.nodeAt path = some e.1 ∧ path.length = e.2 := by
  induction holds generalizing d with
  | nil => simp [Forest.preorder]
  | @node up a below next parent children siblings children_ih siblings_ih =>
    intro e member
    simp only [Forest.preorder, List.mem_cons, List.mem_append] at member
    rcases member with rfl | member | member
    · exact first a (List.mem_cons_self ..)
    · refine children_ih (fun x here => inside x
        (List.mem_cons_of_mem _ (List.mem_append_left _ here))) (fun x top => ?_) e member
      obtain ⟨path, found, length⟩ := first a (List.mem_cons_self ..)
      have known : x < s.count :=
        inside x (List.mem_cons_of_mem _ (List.mem_append_left _ (below.tops_subset_nodes top)))
      obtain ⟨inside', -, child⟩ := tree.parent_lt known (children.parent_of_tops top)
      refine ⟨(s.nodes x).mName :: path, ?_, by simp [length]⟩
      rw [ThreadProfileData.nodeAt, found, Option.bind_some, tree.getChild_of_mem inside' child]
    · exact siblings_ih (fun x here => inside x
        (List.mem_cons_of_mem _ (List.mem_append_right _ here)))
        (fun x top => first x (List.mem_cons_of_mem _ top)) e member

/-- In every state that calls can reach, the iterator comes to all nodes, each of them once, in the
order in which they are printed, and with the depths with which they are printed as long as these
are not above 10000; the names that are collected are those of all nodes. -/
theorem iterator_lists (root : ν) (calls : List (ManagerCall ν)) (s : ThreadProfileData ν)
    (reached : run ThreadProfileData.managerStep (create root) calls = some s) :
    ∃ listing : List (Nat × Nat), Listed s listing ∧
      Returns (fun fuel => s.printTree fuel (some 0) 0)
        (listing.map fun e => (e.1, BitVec.ofNat 32 e.2)) ∧
      (∃ shown, Returns (fun fuel => ProfileIterator.output s fuel (.begin s)) shown ∧
        shown.map Prod.fst = listing.map Prod.fst ∧
        ((∀ e ∈ listing, e.2 ≤ 10000) →
          shown = listing.map fun e => (e.1, BitVec.ofNat 32 e.2))) ∧
      ∃ names, Returns (fun fuel => s.getNamesRecursively fuel (some 0)) names ∧
        names.Perm ((List.range s.count).map fun i => (s.nodes i).mName) := by
  have tree : s.Tree root := by
    have runs := profile_refined root calls
    rw [reached] at runs
    generalize run (Profile.managerStep root) _ calls = after at runs
    cases runs with
    | some sim => exact sim.tree
  obtain ⟨f, holds, all⟩ := tree.exists_forest
  have inside (x : Nat) (member : x ∈ f.nodes) : x < s.count :=
    List.mem_range.mp (all.mem_iff.mp member)
  have depths : f.preorder (· + 1) (0 : BitVec 32) =
      (f.preorder (· + 1) 0).map fun e => (e.1, BitVec.ofNat 32 e.2) :=
    (Forest.map_preorder (BitVec.ofNat 32) (fun d => BitVec.ofNat_add d 1) 0 f).symm
  refine ⟨f.preorder (· + 1) 0, ⟨?_, ?_⟩, ?_, ?_, ?_⟩
  · rw [Forest.map_fst_preorder]
    exact all
  · have tops : f.tops = [0] := by
      cases holds with
      | @node _ _ below next _ _ siblings =>
        have alone : s.pointers.sibling 0 = none := by
          show s.mSibling 0 = none
          rw [ThreadProfileData.mSibling, tree.root_parent, Option.bind_none]
        rw [alone] at siblings
        cases siblings
        rfl
    exact length_of_preorder tree holds inside fun x top => ⟨[], by
      rw [tops, List.mem_singleton] at top
      exact congrArg some top.symm, rfl⟩
  · rw [← depths]
    exact ⟨f.size, fun fuel enough => printTree_of_holds holds enough 0⟩
  · obtain ⟨l, d', walk, names, same⟩ := holds.walk (· + 1) (· - 1)
      ProfileIterator.settle .out (0 : BitVec 32)
    have walked : Returns (fun fuel => ProfileIterator.output s fuel (.begin s)) l := by
      refine ProfileIterator.returns_output tree walk fun e member => inside e.1 ?_
      rw [← names]
      exact List.mem_map_of_mem member
    refine ⟨l, walked, by rw [names, Forest.map_fst_preorder], fun small => ?_⟩
    have settled : ∀ e ∈ f.preorder (· + 1) (0 : BitVec 32),
        ProfileIterator.settle e.2 = e.2 := by
      intro e member
      rw [depths] at member
      obtain ⟨e', member', rfl⟩ := List.mem_map.mp member
      have low := small e' member'
      refine if_neg (BitVec.not_lt.mpr ?_)
      rw [BitVec.le_def, BitVec.toNat_ofNat]
      exact (Nat.mod_le _ _).trans low
    rw [← depths]
    exact (same (fun d => BitVec.add_sub_cancel d 1) settled).2
  · obtain ⟨names, done, same⟩ := getNames_of_holds holds
    exact ⟨names, ⟨f.size, done⟩, same.trans (all.map _)⟩

/-- A node with a child, and its sibling; the data were reset while the sibling's sample ran. -/
theorem iterator_lists_three :
    ∃ (s : ThreadProfileData Nat) (shown : List (Nat × BitVec 32)),
      run ThreadProfileData.managerStep (create 0)
        [.profile (.startProfile 1 0 5), .profile (.startProfile 2 0 6), .profile (.stopProfile 7),
          .profile (.stopProfile 8), .profile (.startProfile 3 0 9), .reset] = some s ∧
      Returns (fun fuel => ProfileIterator.output s fuel (.begin s)) shown ∧
      (shown.map Prod.fst).Perm [0, 1, 2, 3] := by
  obtain ⟨s, reached, count⟩ : ∃ s : ThreadProfileData Nat,
      run ThreadProfileData.managerStep (create 0)
        [.profile (.startProfile 1 0 5), .profile (.startProfile 2 0 6), .profile (.stopProfile 7),
          .profile (.stopProfile 8), .profile (.startProfile 3 0 9), .reset] = some s ∧
        s.count = 4 := ⟨_, rfl, rfl⟩
  obtain ⟨listing, listed, -, ⟨shown, lists, names, -⟩, -⟩ := iterator_lists 0 _ s reached
  refine ⟨s, shown, reached, lists, ?_⟩
  have every := listed.every
  rw [count, ← names] at every
  exact every

end Runs

end VRJuggler.Vpr
