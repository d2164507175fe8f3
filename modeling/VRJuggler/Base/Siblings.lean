import Mathlib.Data.List.Nodup
import Mathlib.Logic.Function.Iterate
import Mathlib.Logic.Relation

/-!
# First children and next siblings

A tree may be kept in three pointers for each node: to its parent, to its first child and to its
next sibling. A walk that goes down to the child if there is one, otherwise on to the sibling, and
otherwise up until an ancestor has a sibling, needs neither a stack nor marks. This module says what
the pointers hold, as a forest, and shows that the walk meets the nodes of the forest in preorder.
The walk counts its depth on the way, and may settle it after a climb.
-/
namespace VRJuggler

/-- A node with what is below it, and its next siblings. -/
inductive Forest (α : Type) where
  | nil
  | node (a : α) (below next : Forest α)

namespace Forest

variable {α δ ε : Type}

def nodes : Forest α → List α
  | nil => []
  | node a below next => a :: (below.nodes ++ next.nodes)

/-- The nodes with their depths. -/
def preorder (down : δ → δ) : δ → Forest α → List (α × δ)
  | _, nil => []
  | d, node a below next => (a, d) :: (preorder down (down d) below ++ preorder down d next)

/-- The siblings of the first level. -/
def tops : Forest α → List α
  | nil => []
  | node a _ next => a :: next.tops

def size : Forest α → Nat
  | nil => 0
  | node _ below next => below.size + next.size + 1

@[simp] theorem map_fst_preorder (down : δ → δ) (d : δ) (f : Forest α) :
    (f.preorder down d).map Prod.fst = f.nodes := by
  induction f generalizing d with
  | nil => rfl
  | node a below next below_ih next_ih => simp [preorder, nodes, below_ih, next_ih]

/-- Depths that are measured in another way. -/
theorem map_preorder {down : δ → δ} {down' : ε → ε} (g : δ → ε)
    (commutes : ∀ d, g (down d) = down' (g d)) (d : δ) (f : Forest α) :
    (f.preorder down d).map (fun e => (e.1, g e.2)) = f.preorder down' (g d) := by
  induction f generalizing d with
  | nil => rfl
  | node a below next below_ih next_ih => simp [preorder, below_ih, next_ih, commutes]

theorem tops_subset_nodes (f : Forest α) : f.tops ⊆ f.nodes := by
  induction f with
  | nil => exact List.Subset.refl _
  | node a below next _ ih =>
    intro b member
    rcases List.mem_cons.mp member with rfl | later
    · exact List.mem_cons_self ..
    · exact List.mem_cons_of_mem _ (List.mem_append_right _ (ih later))

end Forest

structure Pointers (α : Type) where
  parent : α → Option α
  child : α → Option α
  sibling : α → Option α

namespace Pointers

variable {α : Type} (p : Pointers α)

/-- From this node on, the pointers hold the forest; all its first nodes have the parent `up`. -/
inductive Holds : Option α → Option α → Forest α → Prop where
  | nil (up : Option α) : Holds up none .nil
  | node {up : Option α} {a : α} {below next : Forest α} (parent : p.parent a = up)
    (children : Holds (some a) (p.child a) below) (siblings : Holds up (p.sibling a) next) :
    Holds up (some a) (.node a below next)

/-- The search for the next sibling of an ancestor, from `up`: the number of ancestors that have
none, and the sibling, if one is found. -/
inductive Climbs : Option α → Nat → Option α → Prop where
  | out : Climbs none 0 none
  | found {a b : α} (sibling : p.sibling a = some b) : Climbs (some a) 0 (some b)
  | higher {a : α} {k : Nat} {o : Option α} (last : p.sibling a = none)
    (rest : Climbs (p.parent a) k o) : Climbs (some a) (k + 1) o

variable {p}

section Forests

variable {up o : Option α} {f f' : Forest α} {a b x : α}

theorem Holds.unique (holds : p.Holds up o f) (other : p.Holds up o f') : f = f' := by
  induction holds generalizing f' with
  | nil =>
    cases other
    rfl
  | node parent children siblings children_ih siblings_ih =>
    cases other with
    | node _ children' siblings' => rw [children_ih children', siblings_ih siblings']

theorem Holds.parent_of_tops (holds : p.Holds up o f) (top : a ∈ f.tops) : p.parent a = up := by
  induction holds with
  | nil => cases top
  | node parent _ _ _ ih =>
    rcases List.mem_cons.mp top with rfl | later
    · exact parent
    · exact ih later

/-- Every node of a forest comes up to one of the first ones. -/
theorem Holds.comes_up (holds : p.Holds up o f) (member : x ∈ f.nodes) :
    ∃ b ∈ f.tops, Relation.ReflTransGen (fun y z => p.parent y = some z) x b := by
  induction holds with
  | nil => cases member
  | @node up a below next parent children siblings children_ih siblings_ih =>
    rcases List.mem_cons.mp member with rfl | deeper
    · exact ⟨x, List.mem_cons_self .., .refl⟩
    · rcases List.mem_append.mp deeper with inside | beside
      · obtain ⟨b, top, way⟩ := children_ih inside
        exact ⟨a, List.mem_cons_self .., way.tail (children.parent_of_tops top)⟩
      · obtain ⟨b, top, way⟩ := siblings_ih beside
        exact ⟨b, List.mem_cons_of_mem _ top, way⟩

/-- A row of siblings does not come back. -/
theorem Holds.size_of_tops (holds : p.Holds up o f) (top : b ∈ f.tops) :
    ∃ f', p.Holds up (some b) f' ∧ f'.size ≤ f.size := by
  induction holds with
  | nil => cases top
  | @node up a below next parent children siblings _ ih =>
    rcases List.mem_cons.mp top with rfl | later
    · exact ⟨_, .node parent children siblings, Nat.le_refl _⟩
    · obtain ⟨f', holds, le⟩ := ih later
      refine ⟨f', holds, ?_⟩
      rw [Forest.size]
      omega

theorem Holds.not_mem_tops (holds : p.Holds up (some a) f) {below next : Forest α}
    (node : f = .node a below next) : a ∉ next.tops := by
  intro top
  subst node
  cases holds with
  | node parent children siblings =>
    obtain ⟨f', holds', le⟩ := siblings.size_of_tops top
    obtain rfl := holds'.unique (.node parent children siblings)
    rw [Forest.size] at le
    omega

/-! ### Nodes that are met once -/

variable {inside : α → Prop} {rank : α → Nat}
  (ranked : ∀ a b, inside a → p.parent a = some b → inside b ∧ rank b < rank a)
include ranked

theorem inside_up {x y : α} (here : inside x)
    (way : Relation.ReflTransGen (fun y z => p.parent y = some z) x y) :
    inside y ∧ rank y ≤ rank x := by
  induction way with
  | refl => exact ⟨here, Nat.le_refl _⟩
  | tail _ one ih =>
    obtain ⟨next, less⟩ := ranked _ _ ih.1 one
    exact ⟨next, Nat.le_trans (Nat.le_of_lt less) ih.2⟩

/-- A node comes up to one of some siblings only. -/
theorem eq_of_comes_up {x a b : α} (here : inside x) (same : p.parent a = p.parent b)
    (left : Relation.ReflTransGen (fun y z => p.parent y = some z) x a)
    (right : Relation.ReflTransGen (fun y z => p.parent y = some z) x b) : a = b := by
  have ways := Relation.ReflTransGen.total_of_right_unique
    (fun _ _ _ one other => Option.some.inj (one.symm.trans other)) left right
  -- the one that is above the other would be above its own parent
  have apart {a b : α} (here : inside a) (same : p.parent a = p.parent b)
      (way : Relation.ReflTransGen (fun y z => p.parent y = some z) a b) : a = b := by
    rcases Relation.ReflTransGen.cases_head way with rfl | ⟨c, one, rest⟩
    · rfl
    · obtain ⟨inside', less⟩ := ranked a c here one
      obtain ⟨inside'', low⟩ := inside_up ranked inside' rest
      obtain ⟨-, high⟩ := ranked b c inside'' (same ▸ one)
      omega
  rcases ways with way | way
  · exact apart (inside_up ranked here left).1 same way
  · exact (apart (inside_up ranked here right).1 same.symm way).symm

theorem Holds.nodup (holds : p.Holds up o f) (all : ∀ x ∈ f.nodes, inside x) : f.nodes.Nodup := by
  induction holds with
  | nil => exact List.nodup_nil
  | @node up a below next parent children siblings children_ih siblings_ih =>
    have inBelow {x : α} (member : x ∈ below.nodes) : inside x :=
      all x (List.mem_cons_of_mem _ (List.mem_append_left _ member))
    have inNext {x : α} (member : x ∈ next.nodes) : inside x :=
      all x (List.mem_cons_of_mem _ (List.mem_append_right _ member))
    -- what is below the node comes up to it, and what is beside it does not
    have comesUp {x : α} (member : x ∈ below.nodes) :
        ∃ b, p.parent b = some a ∧
          Relation.ReflTransGen (fun y z => p.parent y = some z) x b := by
      obtain ⟨b, top, way⟩ := children.comes_up member
      exact ⟨b, children.parent_of_tops top, way⟩
    have beside {x : α} (member : x ∈ next.nodes)
        (way : Relation.ReflTransGen (fun y z => p.parent y = some z) x a) : False := by
      obtain ⟨b, top, way'⟩ := siblings.comes_up member
      have same := parent.trans (siblings.parent_of_tops top).symm
      obtain rfl := eq_of_comes_up ranked (inNext member) same way way'
      exact (Holds.node parent children siblings).not_mem_tops rfl top
    refine List.nodup_cons.mpr ⟨fun member => ?_,
      List.Nodup.append (children_ih fun x => inBelow) (siblings_ih fun x => inNext) ?_⟩
    · rcases List.mem_append.mp member with below' | next'
      · obtain ⟨b, one, way⟩ := comesUp below'
        obtain ⟨inside', low⟩ := inside_up ranked (inBelow below') way
        obtain ⟨-, high⟩ := ranked b a inside' one
        omega
      · exact beside next' .refl
    · intro x below' next'
      obtain ⟨b, one, way⟩ := comesUp below'
      exact beside next' (way.tail one)

end Forests

/-! ## The walk -/

section Walk

variable {δ : Type} (p) (down up settle : δ → δ)

/-- A step of the walk, from a node and its depth. -/
inductive Next : α × δ → Option (α × δ) → Prop where
  | child {a c : α} {d : δ} (child : p.child a = some c) : Next (a, d) (some (c, down d))
  | sibling {a b : α} {d : δ} (leaf : p.child a = none) (sibling : p.sibling a = some b) :
    Next (a, d) (some (b, d))
  | climb {a : α} {o : Option α} {d : δ} {k : Nat} (leaf : p.child a = none)
    (last : p.sibling a = none) (climbs : p.Climbs (p.parent a) k o) :
    Next (a, d) (o.map fun b => (b, settle (up^[k + 1] d)))

/-- Some steps of the walk, with what is met on them, and where they lead. -/
inductive Walk : α × δ → List (α × δ) → Option (α × δ) → Prop where
  | one {x : α × δ} {y : Option (α × δ)} (next : p.Next down up settle x y) : Walk x [x] y
  | more {x y : α × δ} {l : List (α × δ)} {z : Option (α × δ)}
    (next : p.Next down up settle x (some y)) (rest : Walk y l z) : Walk x (x :: l) z

variable {p down up settle}

theorem Walk.append {x y : α × δ} {l l' : List (α × δ)} {z : Option (α × δ)}
    (walk : p.Walk down up settle x l (some y)) (later : p.Walk down up settle y l' z) :
    p.Walk down up settle x (l ++ l') z := by
  generalize here : some y = o at walk
  induction walk with
  | one next =>
    subst here
    exact .more next later
  | more next _ ih => exact .more next (ih here)

variable (down up settle) in
/-- The walk meets a forest in preorder and goes on with what is above it. -/
theorem Holds.walk {top : Option α} {a : α} {f : Forest α} (holds : p.Holds top (some a) f)
    {k : Nat} {o : Option α} (climbs : p.Climbs top k o) (d : δ) : ∃ l d',
      p.Walk down up settle (a, d) l (o.map fun b => (b, settle (up^[k + 1] d'))) ∧
      l.map Prod.fst = f.nodes ∧
      ((∀ d, up (down d) = d) → (∀ e ∈ f.preorder down d, settle e.2 = e.2) →
        d' = d ∧ l = f.preorder down d) := by
  generalize here : some a = from' at holds
  induction holds generalizing a k o d with
  | nil => cases here
  | @node top a' below next parent children siblings children_ih siblings_ih =>
    obtain rfl := Option.some.inj here
    clear here
    cases child : p.child a with
    | none =>
      rw [child] at children
      cases children
      cases sibling : p.sibling a with
      | none =>
        rw [sibling] at siblings
        cases siblings
        exact ⟨[(a, d)], d, .one (.climb child sibling (parent ▸ climbs)), rfl,
          fun _ _ => ⟨rfl, rfl⟩⟩
      | some b =>
        rw [sibling] at siblings
        obtain ⟨l, d', walk, names, depths⟩ := siblings_ih climbs d sibling.symm
        refine ⟨(a, d) :: l, d', .more (.sibling child sibling) walk, by simp [Forest.nodes, names],
          fun inverse settled => ?_⟩
        obtain ⟨rfl, rfl⟩ := depths inverse fun e member =>
          settled e (by simp [Forest.preorder, member])
        exact ⟨rfl, rfl⟩
    | some c =>
      cases sibling : p.sibling a with
      | none =>
        rw [sibling] at siblings
        cases siblings
        -- the climb from the last child goes on above
        obtain ⟨l, d', walk, names, depths⟩ :=
          children_ih (.higher sibling (parent ▸ climbs)) (down d) child.symm
        refine ⟨(a, d) :: l, up d', .more (.child child) walk, by simp [Forest.nodes, names],
          fun inverse settled => ?_⟩
        obtain ⟨rfl, rfl⟩ := depths inverse fun e member =>
          settled e (by simp [Forest.preorder, member])
        exact ⟨inverse d, by simp [Forest.preorder]⟩
      | some b =>
        rw [sibling] at siblings
        obtain ⟨l, d', walk, names, depths⟩ := children_ih (.found sibling) (down d) child.symm
        obtain ⟨l', d'', walk', names', depths'⟩ :=
          siblings_ih climbs (settle (up d')) sibling.symm
        refine ⟨(a, d) :: (l ++ l'), d'', .more (.child child) (walk.append walk'),
          by simp [Forest.nodes, names, names'], fun inverse settled => ?_⟩
        obtain ⟨rfl, rfl⟩ := depths inverse fun e member =>
          settled e (by simp [Forest.preorder, member])
        have back : settle (up (down d)) = d := by
          rw [inverse]
          exact settled (a, d) (by simp [Forest.preorder])
        rw [back] at depths'
        obtain ⟨rfl, rfl⟩ := depths' inverse fun e member =>
          settled e (by simp [Forest.preorder, member])
        exact ⟨rfl, rfl⟩

end Walk

end Pointers

end VRJuggler
