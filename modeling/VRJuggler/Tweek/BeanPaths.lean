import VRJuggler.Base.Lists
import VRJuggler.Tweek.BeanTree

/-!
# Paths in the tree of panel beans

The loop that adds a bean at a path and the recursion that looks for one take the same components
out of it, whatever the indices between. What a node that is added leaves behind is one entry less
in the list of its old parent.
-/
namespace VRJuggler.Tweek

open Throwing

variable {β : Type}

namespace BeanTreeModel

/-! ## Paths taken apart -/

section Paths

variable (m : BeanTreeModel β)

/-- The levels of a path, one after the other. -/
def subPaths : BeanTreeModel β → Nat → List (List Char) → BeanTreeModel β × Nat
  | m, cur_node, [] => (m, cur_node)
  | m, cur_node, c :: cs => subPaths (m.subPath cur_node c).1 (m.subPath cur_node c).2 cs

theorem walk_round {path c : List Char} {begin_index cur_node : Nat} {end_index stop : Int}
    {r : Except Text.Thrown (BeanTreeModel β × Nat)}
    (more : end_index ≠ -1 ∨ begin_index < path.length)
    (last : stop = if end_index = -1 then (path.length : Int) else end_index)
    (taken : Text.substring path begin_index stop = .ok c)
    (rest : Ends (walk path · (m.subPath cur_node c).1 (stop + 1).toNat
      (Text.indexOf path '/' (stop + 1).toNat) (m.subPath cur_node c).2) r) :
    Ends (walk path · m begin_index end_index cur_node) r := by
  subst last
  refine Returns.congr (fun fuel => ?_) rest
  rw [walk, if_pos more]
  simp only [taken]
  rfl

theorem walk_last {path : List Char} {begin_index cur_node : Nat}
    (last : path.length ≤ begin_index) :
    Ends (walk path · m begin_index (-1) cur_node) (.ok (m, cur_node)) := by
  refine Returns.congr (fun fuel => ?_) (Ends.pure (m, cur_node))
  rw [walk, if_neg (by simpa using last)]

/-- From the index behind a slash, the loop goes through the components that are left. -/
theorem ends_walk {path front c : List Char} {cs : List (List Char)}
    (parts : path = front ++ (c ++ pathOf cs)) (form : ∀ d ∈ c :: cs, d ≠ [] ∧ '/' ∉ d)
    (cur_node : Nat) :
    Ends (walk path · m front.length (Text.indexOf path '/' front.length) cur_node)
      (.ok (subPaths m cur_node (c :: cs))) := by
  induction cs generalizing front c m cur_node with
  | nil =>
    obtain ⟨some', plain⟩ := form c (by simp)
    have slash := indexOf_pathOf front plain []
    rw [← parts, if_pos rfl] at slash
    simp only [pathOf_nil, List.append_nil] at parts
    have size := congrArg List.length parts
    rw [List.length_append] at size
    have positive := List.length_pos_of_ne_nil some'
    -- the last component ends where the path does
    have taken : Text.substring path front.length (path.length : Int) = .ok c := by
      rw [parts]
      exact Text.substring_last
    have none' : Text.indexOf path '/' ((path.length : Int) + 1).toNat = -1 := by
      apply Text.indexOf_eq_neg_one
      rw [List.drop_eq_nil_of_le (by omega)]
      simp
    rw [slash]
    apply walk_round m (.inr (by omega)) (if_pos rfl).symm taken
    rw [none']
    exact walk_last _ (by omega)
  | cons c' cs ih =>
    obtain ⟨some', plain⟩ := form c (by simp)
    have slash := indexOf_pathOf front plain (c' :: cs)
    rw [← parts, if_neg (List.cons_ne_nil _ _)] at slash
    have taken : Text.substring path front.length ((front.length + c.length : Nat) : Int) =
        .ok c := by
      rw [parts]
      exact Text.substring_append
    have next : (((front.length + c.length : Nat) : Int) + 1).toNat =
        (front ++ c ++ ['/']).length := by
      simp only [List.length_append, List.length_singleton]
      omega
    have parts' : path = (front ++ c ++ ['/']) ++ (c' ++ pathOf cs) := by
      rw [parts, pathOf_cons]
      simp
    rw [slash]
    apply walk_round m (.inl (by omega)) (if_neg (by omega)).symm taken
    rw [next]
    exact ih _ parts' (fun d member => form d (List.mem_cons_of_mem _ member)) _

/-- A node is added at the end of the path. -/
theorem ends_addNodeToPath {cs : List (List Char)} (some' : cs ≠ [])
    (form : ∀ d ∈ cs, d ≠ [] ∧ '/' ∉ d) (new_node : Nat) :
    Ends (m.addNodeToPath · new_node (pathOf cs))
      (.ok ((subPaths m 0 cs).1.add (subPaths m 0 cs).2 new_node)) := by
  obtain ⟨c, cs, rfl⟩ := List.exists_cons_of_ne_nil some'
  have walked : Ends (walk (pathOf (c :: cs)) · m 1 (Text.indexOf (pathOf (c :: cs)) '/' 1) 0)
      (.ok (subPaths m 0 (c :: cs))) := by
    have front : pathOf (c :: cs) = ['/'] ++ (c ++ pathOf cs) := pathOf_cons c cs
    exact ends_walk m front form 0
  unfold addNodeToPath
  simp only [pathOf_cons, List.head?_cons, if_true] at walked ⊢
  exact Ends.map walked fun last => last.1.add last.2 new_node

end Paths

/-! ## A path looked for -/

/-- The nodes that match the components, from a node on. -/
def search (getName : β → List Char) (m : BeanTreeModel β) :
    Nat → List (List Char) → Option Nat
  | parent, [] => some parent
  | parent, c :: cs =>
    ((m.nodes parent).children.find? fun node =>
      (m.nodes node).userObject.named getName c).bind fun node => search getName m node cs

theorem ends_getNode_null (m : BeanTreeModel β) (getName : β → List Char) (parent : Nat) :
    Ends (m.getNode getName · parent none) (.ok (some parent)) :=
  Returns.congr (fun fuel => by rw [getNode]) (Ends.pure (some parent))

/-- What is left of the path is looked for in the child that matches. -/
theorem getNode_round {m : BeanTreeModel β} {getName : β → List Char} {path c : List Char}
    {cs : List (List Char)} {parent : Nat} (remainder : Option (List Char))
    (slash : path.head? = some '/')
    (element : (if Text.indexOf path '/' 1 = -1 then Text.substring path 1 path.length
      else Text.substring path 1 (Text.indexOf path '/' 1)) = .ok c)
    (rest : (if Text.indexOf path '/' 1 = -1 then .ok none
      else (Text.substring path (Text.indexOf path '/' 1) path.length).map some) = .ok remainder)
    (later : ∀ node, Ends (m.getNode getName · node remainder) (.ok (m.search getName node cs))) :
    Ends (m.getNode getName · parent (some path)) (.ok (m.search getName parent (c :: cs))) := by
  cases found : (m.nodes parent).children.find? fun node =>
      (m.nodes node).userObject.named getName c with
  | none =>
    rw [search, found, Option.bind_none]
    refine Returns.congr (fun fuel => ?_) (Ends.pure none)
    rw [getNode, if_pos slash]
    simp only [element, rest, Throwing.mk_ok_bind, found]
  | some node =>
    rw [search, found, Option.bind_some]
    refine Returns.congr (fun fuel => ?_) (later node)
    rw [getNode, if_pos slash]
    simp only [element, rest, Throwing.mk_ok_bind, found]

theorem ends_getNode (m : BeanTreeModel β) (getName : β → List Char) {c : List Char}
    {cs : List (List Char)} (plain : ∀ d ∈ c :: cs, '/' ∉ d) (parent : Nat) :
    Ends (m.getNode getName · parent (some (pathOf (c :: cs))))
      (.ok (m.search getName parent (c :: cs))) := by
  induction cs generalizing c parent with
  | nil =>
    have front : pathOf [c] = ['/'] ++ c := by simp
    have none' : Text.indexOf (pathOf [c]) '/' 1 = -1 := by
      apply Text.indexOf_eq_neg_one
      simpa using plain c (by simp)
    refine getNode_round none (by simp) ?_ (by rw [if_pos none']) ?_
    · rw [if_pos none', front]
      exact Text.substring_last
    · intro node
      exact ends_getNode_null m getName node
  | cons c' cs ih =>
    have front : pathOf (c :: c' :: cs) = ['/'] ++ (c ++ pathOf (c' :: cs)) := pathOf_cons ..
    have slash : Text.indexOf (pathOf (c :: c' :: cs)) '/' 1 = (1 + c.length : Nat) := by
      have first := indexOf_pathOf ['/'] (plain c (by simp)) (c' :: cs)
      rw [← front, if_neg (List.cons_ne_nil _ _)] at first
      exact first
    have some' : ¬ ((1 + c.length : Nat) : Int) = -1 := by omega
    refine getNode_round (some (pathOf (c' :: cs))) (by simp) ?_ ?_ ?_
    · rw [slash, if_neg some', front]
      exact Text.substring_append
    · have front' : pathOf (c :: c' :: cs) = ('/' :: c) ++ pathOf (c' :: cs) := front
      have size : 1 + c.length = ('/' :: c).length := Nat.add_comm ..
      rw [slash, if_neg some', front', size, Text.substring_last]
      rfl
    · exact ih fun d member => plain d (List.mem_cons_of_mem _ member)

/-! ## What the operations change -/

section Changes

variable {m : BeanTreeModel β} {node child i : Nat} {object : UserObject β}

@[simp] theorem count_newNode : (m.newNode object).count = m.count + 1 := rfl

theorem nodes_newNode (i : Nat) : (m.newNode object).nodes i =
    if i = m.count then ⟨none, [], object⟩ else m.nodes i :=
  Function.update_apply ..

@[simp] theorem count_add : (m.add node child).count = m.count := by
  unfold add detach
  split <;> rfl

theorem nodes_detach (i : Nat) : (m.detach child).nodes i = { m.nodes i with
    children := if (m.nodes child).parent = some i then (m.nodes i).children.erase child
      else (m.nodes i).children } := by
  unfold detach
  cases parent : (m.nodes child).parent with
  | none => simp
  | some old =>
    by_cases same : i = old
    · subst same
      simp
    · simp [Function.update_of_ne same, Ne.symm same]

theorem nodes_add (i : Nat) : (m.add node child).nodes i = {
    parent := if i = child then some node else (m.nodes i).parent
    children := (if (m.nodes child).parent = some i then (m.nodes i).children.erase child
      else (m.nodes i).children) ++ if i = node then [child] else []
    userObject := (m.nodes i).userObject } := by
  unfold add
  by_cases here : i = node
  · subst here
    by_cases self : i = child
    · subst self
      simp [nodes_detach]
    · simp [self, nodes_detach]
  · by_cases self : i = child
    · subst self
      simp [here, nodes_detach]
    · simp [here, self, nodes_detach]

end Changes

end BeanTreeModel

end VRJuggler.Tweek
