import VRJuggler.Base.Lists
import VRJuggler.Tweek.BeanPaths

/-!
# Where beans are found

The tree is compared with the list of what is placed in it: the sub-paths of every path, and each
bean at the last of its paths, as its one node leaves the others again.
-/
namespace VRJuggler.Tweek

open Throwing

variable {β : Type}

/-! ## What is placed -/

/-- Sub-paths and beans, each with the components of the path where it is placed, in order. -/
abbrev Places (β : Type) := List (List (List Char) × UserObject β)

namespace Places

variable (D : Places β)

/-- What is placed at a path. -/
def at' (q : List (List Char)) : List (UserObject β) := (D.filter (·.1 = q)).map (·.2)

/-- The root, or a sub-path that is placed. -/
def Known (q : List (List Char)) : Prop := q = [] ∨ ∃ p c, q = p ++ [c] ∧ (p, .folder c) ∈ D

def addFolder (q : List (List Char)) (c : List Char) : Places β :=
  if (D.at' q).any (·.isFolder c) then D else D ++ [(q, .folder c)]

/-- The sub-paths of a path, below another one. -/
def addFolders (D : Places β) (q : List (List Char)) : List (List Char) → Places β
  | [] => D
  | c :: cs => addFolders (D.addFolder q c) (q ++ [c]) cs

/-- The sub-paths of all paths of a bean, and the bean at the last of them. -/
def addBean (places : β → List (List (List Char))) (D : Places β) (b : β) : Places β :=
  (places b).foldl (fun D cs => D.addFolders [] cs) D ++
    (places b).getLast?.toList.map fun cs => (cs, .bean b)

def ofBeans (places : β → List (List (List Char))) (beans : List β) : Places β :=
  beans.foldl (addBean places) []

/-- What was placed first at a path with this name. -/
def first (getName : β → List Char) (q : List (List Char)) (c : List Char) :
    Option (UserObject β) :=
  (D.at' q).find? (·.named getName c)

end Places

namespace Places

variable {D : Places β} {p q : List (List Char)} {c : List Char} {x : UserObject β}

theorem mem_at : x ∈ D.at' q ↔ (q, x) ∈ D := by
  simp [at']

theorem at_append (entry : List (List Char) × UserObject β) :
    at' (D ++ [entry]) q = D.at' q ++ if entry.1 = q then [entry.2] else [] := by
  unfold at'
  rw [List.filter_append, List.map_append]
  by_cases here : entry.1 = q <;> simp [here]

theorem known_append : Known (D ++ [(q, .folder c)]) p ↔ D.Known p ∨ p = q ++ [c] := by
  simp only [Known, List.mem_append, List.mem_singleton, Prod.mk.injEq, UserObject.folder.injEq]
  constructor
  · rintro (rfl | ⟨p', c', rfl, old | ⟨rfl, rfl⟩⟩)
    · exact .inl (.inl rfl)
    · exact .inl (.inr ⟨p', c', rfl, old⟩)
    · exact .inr rfl
  · rintro ((rfl | ⟨p', c', rfl, old⟩) | rfl)
    · exact .inl rfl
    · exact .inr ⟨p', c', rfl, .inl old⟩
    · exact .inr ⟨q, c, rfl, .inr ⟨rfl, rfl⟩⟩

theorem known_append_bean {b : β} : Known (D ++ [(q, .bean b)]) p ↔ D.Known p := by
  simp [Known]

theorem known_child : D.Known (q ++ [c]) ↔ (q, .folder c) ∈ D := by
  simp [Known]

theorem isFolder_iff : x.isFolder c = true ↔ x = .folder c := by
  cases x <;> simp [UserObject.isFolder]

theorem any_isFolder : (D.at' q).any (·.isFolder c) = true ↔ (q, .folder c) ∈ D := by
  simp only [List.any_eq_true, isFolder_iff]
  constructor
  · rintro ⟨x, member, rfl⟩
    exact mem_at.mp member
  · exact fun member => ⟨_, mem_at.mpr member, rfl⟩

end Places

/-! ## Nodes that stay -/

/-- The nodes of the first tree have the same places in the second one. -/
structure Stays (m m' : BeanTreeModel β) : Prop where
  grows : m.count ≤ m'.count
  object : ∀ i < m.count, (m'.nodes i).userObject = (m.nodes i).userObject
  parent : ∀ i < m.count, (m'.nodes i).parent = (m.nodes i).parent
  children : ∀ i < m.count, (m.nodes i).children <+: (m'.nodes i).children

namespace Stays

open BeanTreeModel

variable {m m' m'' : BeanTreeModel β} {node loose : Nat}

theorem refl (m : BeanTreeModel β) : Stays m m :=
  ⟨Nat.le_refl _, fun _ _ => rfl, fun _ _ => rfl, fun _ _ => List.prefix_rfl⟩

theorem trans (first : Stays m m') (second : Stays m' m'') : Stays m m'' where
  grows := Nat.le_trans first.grows second.grows
  object i old := (second.object i (Nat.lt_of_lt_of_le old first.grows)).trans (first.object i old)
  parent i old := (second.parent i (Nat.lt_of_lt_of_le old first.grows)).trans (first.parent i old)
  children i old :=
    (first.children i old).trans (second.children i (Nat.lt_of_lt_of_le old first.grows))

theorem newNode (m : BeanTreeModel β) (object : UserObject β) : Stays m (m.newNode object) := by
  have same {i : Nat} (old : i < m.count) : (m.newNode object).nodes i = m.nodes i := by
    rw [nodes_newNode, if_neg (Nat.ne_of_lt old)]
  refine ⟨Nat.le_succ _, fun i old => ?_, fun i old => ?_, fun i old => ?_⟩
  · rw [same old]
  · rw [same old]
  · rw [same old]

/-- A later node that is added leaves its old parent, and nothing else. -/
theorem add (stays : Stays m m') (bound : ∀ i, ∀ j ∈ (m.nodes i).children, j < m.count)
    (late : m.count ≤ loose) : Stays m (m'.add node loose) := by
  refine ⟨by simpa using stays.grows, fun i old => ?_, fun i old => ?_, fun i old => ?_⟩
  · rw [nodes_add]
    exact stays.object i old
  · rw [nodes_add]
    dsimp only
    rw [if_neg (by omega)]
    exact stays.parent i old
  · rw [nodes_add]
    obtain ⟨more, parts⟩ := stays.children i old
    have absent : loose ∉ (m.nodes i).children := fun member => by
      have less := bound i loose member
      omega
    apply List.IsPrefix.trans _ (List.prefix_append _ _)
    split
    · rw [← parts, List.erase_append_right _ absent]
      exact List.prefix_append _ _
    · exact stays.children i old

theorem subPath (m : BeanTreeModel β) (cur_node : Nat) (c : List Char) :
    Stays m (m.subPath cur_node c).1 := by
  unfold BeanTreeModel.subPath
  dsimp only
  split
  · exact refl m
  · refine ⟨by simp, fun i old => ?_, fun i old => ?_, fun i old => ?_⟩
    · rw [nodes_add]
      exact (newNode m _).object i old
    · rw [nodes_add]
      dsimp only
      rw [if_neg (Nat.ne_of_lt old)]
      exact (newNode m _).parent i old
    · -- the new node has no old parent
      have none' : ((m.newNode (.folder c)).nodes m.count).parent ≠ some i := by
        simp [nodes_newNode]
      rw [nodes_add, if_neg none']
      exact ((newNode m _).children i old).trans (List.prefix_append _ _)

theorem subPaths (m : BeanTreeModel β) (cur_node : Nat) (cs : List (List Char)) :
    Stays m (BeanTreeModel.subPaths m cur_node cs).1 := by
  induction cs generalizing m cur_node with
  | nil => exact refl m
  | cons c cs ih => exact (subPath m cur_node c).trans (ih _ _)

end Stays

/-! ## The tree shows what is placed -/

/-- The node of what is placed at a path. -/
def IsEntry (m : BeanTreeModel β) (D : Places β) (addr : List (List Char) → Nat)
    (q : List (List Char)) (j : Nat) : UserObject β → Prop
  | .folder c => (m.nodes j).userObject = .folder c ∧ addr (q ++ [c]) = j
  | .bean b => (m.nodes j).userObject = .bean b ∧ ∀ p, D.Known p → addr p ≠ j

/-- Each path that is known has a node, whose children are what is placed there, but for one node
that has not come to its place yet. -/
structure Shows (m : BeanTreeModel β) (D : Places β) (addr : List (List Char) → Nat)
    (loose : Nat) : Prop where
  root : addr [] = 0
  known : ∀ entry ∈ D, D.Known entry.1
  distinct : ∀ p q, D.Known p → D.Known q → addr p = addr q → p = q
  inside : ∀ q, D.Known q → addr q < m.count ∧ addr q ≠ loose
  entries : ∀ q, D.Known q → List.Forall₂ (IsEntry m D addr q)
    ((m.nodes (addr q)).children.erase loose) (D.at' q)
  others : ∀ i, (∀ q, D.Known q → addr q ≠ i) → (m.nodes i).children = []
  bound : ∀ i, ∀ j ∈ (m.nodes i).children, j < m.count
  single : ∀ i, loose ∈ (m.nodes i).children → (m.nodes loose).parent = some i ∧
    (m.nodes i).children.count loose = 1 ∧ ∃ b, (m.nodes loose).userObject = .bean b

namespace Shows

open BeanTreeModel

variable {m : BeanTreeModel β} {D : Places β} {addr : List (List Char) → Nat} {loose : Nat}
  {q : List (List Char)} {c : List Char}

theorem not_mem_erase (view : Shows m D addr loose) (i : Nat) :
    loose ∉ (m.nodes i).children.erase loose := by
  by_cases member : loose ∈ (m.nodes i).children
  · have once := (view.single i member).2.1
    rw [← List.count_eq_zero, List.count_erase_self, once]
  · rwa [List.erase_of_not_mem member]

/-- The entries are the same while their nodes are. -/
theorem isEntry_mono {m m' : BeanTreeModel β} {D D' : Places β}
    {addr addr' : List (List Char) → Nat} {q : List (List Char)} {j : Nat} {x : UserObject β}
    (entry : IsEntry m D addr q j x) (same : (m'.nodes j).userObject = (m.nodes j).userObject)
    (folders : ∀ c, x = .folder c → addr' (q ++ [c]) = addr (q ++ [c]))
    (beans : ∀ p, D'.Known p → D.Known p ∧ addr' p = addr p ∨ addr' p ≠ j) :
    IsEntry m' D' addr' q j x := by
  cases x with
  | folder c => exact ⟨same.trans entry.1, (folders c rfl).trans entry.2⟩
  | bean b =>
    refine ⟨same.trans entry.1, fun p known => ?_⟩
    rcases beans p known with ⟨known, old⟩ | new
    · rw [old]
      exact entry.2 p known
    · exact new

theorem fresh (view : Shows m D addr m.count) (i : Nat) : m.count ∉ (m.nodes i).children :=
  fun member => Nat.lt_irrefl _ (view.bound i _ member)

/-- The number that is given out next has no node yet. -/
theorem children_count (view : Shows m D addr loose) : (m.nodes m.count).children = [] := by
  apply view.others
  intro p known same
  exact Nat.lt_irrefl _ (same ▸ (view.inside p known).1)

/-- The new node of a bean. -/
theorem newNode (view : Shows m D addr m.count) (b : β) :
    Shows (m.newNode (.bean b)) D addr m.count := by
  have children (i : Nat) : ((m.newNode (.bean b)).nodes i).children = (m.nodes i).children := by
    rw [nodes_newNode]
    by_cases here : i = m.count
    · rw [here, if_pos rfl, view.children_count]
    · rw [if_neg here]
  refine ⟨view.root, view.known, view.distinct, fun q known => ?_, fun q known => ?_,
    fun i none' => ?_, fun i j member => ?_, fun i member => ?_⟩
  · exact ⟨Nat.lt_succ_of_lt (view.inside q known).1, (view.inside q known).2⟩
  · rw [children]
    refine forall₂_imp_mem (view.entries q known) fun j there x _ entry => ?_
    have old := view.bound _ j (List.mem_of_mem_erase there)
    refine isEntry_mono entry ?_ (fun _ _ => rfl) fun p known => .inl ⟨known, rfl⟩
    rw [nodes_newNode, if_neg (Nat.ne_of_lt old)]
  · rw [children]
    exact view.others i none'
  · rw [children] at member
    exact Nat.lt_succ_of_lt (view.bound i j member)
  · rw [children] at member
    exact absurd member (view.fresh i)

/-- The loose node has been added last at a path, or nowhere yet. -/
def Last (m : BeanTreeModel β) (addr : List (List Char) → Nat) (loose : Nat) :
    Option (List (List Char)) → Prop
  | none => ∀ i, loose ∉ (m.nodes i).children
  | some q => ∀ i, (m.nodes i).children =
      (m.nodes i).children.erase loose ++ if i = addr q then [loose] else []

/-- The loose node becomes the last child at a path. -/
theorem addLoose (view : Shows m D addr loose) (known : D.Known q) (alloc : loose < m.count)
    {b : β} (object : (m.nodes loose).userObject = .bean b) :
    Shows (m.add (addr q) loose) D addr loose ∧
      Last (m.add (addr q) loose) addr loose (some q) := by
  have children (i : Nat) : ((m.add (addr q) loose).nodes i).children =
      (m.nodes i).children.erase loose ++ if i = addr q then [loose] else [] := by
    rw [nodes_add]
    dsimp only
    by_cases here : loose ∈ (m.nodes i).children
    · rw [if_pos (view.single i here).1]
    · rw [List.erase_of_not_mem here, ite_self]
  have objects (i : Nat) : ((m.add (addr q) loose).nodes i).userObject =
      (m.nodes i).userObject := by rw [nodes_add]
  have kept (i : Nat) : ((m.add (addr q) loose).nodes i).children.erase loose =
      (m.nodes i).children.erase loose := by
    rw [children, List.erase_append_right _ (view.not_mem_erase i)]
    split <;> simp
  refine ⟨⟨view.root, view.known, view.distinct, fun p known => ?_, fun p known => ?_,
    fun i none' => ?_, fun i j member => ?_, fun i member => ?_⟩, fun i => ?_⟩
  · simpa using view.inside p known
  · rw [kept]
    refine forall₂_imp_mem (view.entries p known) fun j there x _ entry => ?_
    exact isEntry_mono entry (objects j) (fun _ _ => rfl) fun p known => .inl ⟨known, rfl⟩
  · have other : i ≠ addr q := fun same => none' q known same.symm
    rw [children, view.others i none', if_neg other]
    rfl
  · rw [children] at member
    rw [count_add]
    rcases List.mem_append.mp member with old | new
    · exact view.bound i j (List.mem_of_mem_erase old)
    · split at new
      · rwa [List.mem_singleton.mp new]
      · cases new
  · rw [children] at member
    have here : i = addr q := by
      by_contra other
      rw [if_neg other, List.append_nil] at member
      exact view.not_mem_erase i member
    refine ⟨?_, ?_, b, (objects loose).trans object⟩
    · rw [nodes_add, here]
      simp
    · rw [children, if_pos here, List.count_append, List.count_eq_zero.mpr (view.not_mem_erase i)]
      simp
  · rw [kept, children]

/-- The sub-path that the loop finds is the one that is placed. -/
theorem find_subPath (view : Shows m D addr loose) (known : D.Known q) (c : List Char) :
    (m.nodes (addr q)).children.find? (fun j => (m.nodes j).userObject.isFolder c) =
      if (D.at' q).any (·.isFolder c) then some (addr (q ++ [c])) else none := by
  have kept : ((m.nodes (addr q)).children.erase loose).find?
      (fun j => (m.nodes j).userObject.isFolder c) =
      (m.nodes (addr q)).children.find? fun j => (m.nodes j).userObject.isFolder c := by
    by_cases here : loose ∈ (m.nodes (addr q)).children
    · obtain ⟨b, object⟩ := (view.single _ here).2.2
      exact find?_erase (by simp [object, UserObject.isFolder])
    · rw [List.erase_of_not_mem here]
  have related := find?_rel (view.entries q known)
    (p := fun j => (m.nodes j).userObject.isFolder c) (q := (·.isFolder c)) fun j x entry => by
      cases x with
      | folder d => rw [entry.1]
      | bean b => rw [entry.1]
  rw [kept] at related
  generalize found : (m.nodes (addr q)).children.find?
    (fun j => (m.nodes j).userObject.isFolder c) = node at related ⊢
  generalize placed : (D.at' q).find? (·.isFolder c) = entry at related
  cases related with
  | none =>
    have missing : ¬ (D.at' q).any (·.isFolder c) = true := by
      simpa [List.find?_eq_none] using placed
    rw [if_neg missing]
  | some entry =>
    obtain rfl := Places.isFolder_iff.mp (List.find?_some placed)
    have there : (D.at' q).any (·.isFolder c) = true :=
      List.any_eq_true.mpr ⟨_, List.mem_of_find?_eq_some placed, List.find?_some placed⟩
    rw [if_pos there]
    exact congrArg some entry.2.symm

/-- The new node of a sub-path is the last child of its parent, and no other node changes. -/
theorem children_newFolder (view : Shows m D addr loose) (i : Nat) :
    (((m.newNode (.folder c)).add (addr q) m.count).nodes i).children =
      (m.nodes i).children ++ if i = addr q then [m.count] else [] := by
  rw [nodes_add]
  simp only [nodes_newNode, if_true]
  by_cases here : i = m.count
  · subst here
    simp [view.children_count]
  · simp [here]

theorem mem_children_newFolder (view : Shows m D addr loose) {i j : Nat} :
    j ∈ (((m.newNode (.folder c)).add (addr q) m.count).nodes i).children ↔
      j ∈ (m.nodes i).children ∨ i = addr q ∧ j = m.count := by
  rw [view.children_newFolder]
  split
  next parent => simp [parent]
  next other => simp [other]

theorem userObject_newFolder (parent : Nat) {i : Nat} (old : i < m.count) :
    (((m.newNode (.folder c)).add parent m.count).nodes i).userObject =
      (m.nodes i).userObject := by
  rw [nodes_add]
  dsimp only
  rw [nodes_newNode, if_neg (Nat.ne_of_lt old)]

/-- The paths that were there keep their nodes. -/
theorem update_known (missing : ¬ D.Known (q ++ [c])) {p : List (List Char)} (known : D.Known p)
    (i : Nat) : Function.update addr (q ++ [c]) i p = addr p := by
  apply Function.update_of_ne
  rintro rfl
  exact missing known

/-- An entry that was there stays one. -/
theorem isEntry_newFolder (view : Shows m D addr loose) (missing : ¬ D.Known (q ++ [c]))
    {p : List (List Char)} {j : Nat} {x : UserObject β}
    (there : j ∈ (m.nodes (addr p)).children.erase loose) (member : x ∈ D.at' p)
    (entry : IsEntry m D addr p j x) :
    IsEntry ((m.newNode (.folder c)).add (addr q) m.count) (D ++ [(q, .folder c)])
      (Function.update addr (q ++ [c]) m.count) p j x := by
  have old := view.bound _ j (List.mem_of_mem_erase there)
  refine isEntry_mono entry (userObject_newFolder _ old) (fun d same => ?_) fun p' known' => ?_
  · subst same
    exact update_known missing (Places.known_child.mpr (Places.mem_at.mp member)) _
  · rcases Places.known_append.mp known' with known' | rfl
    · exact .inl ⟨known', update_known missing known' _⟩
    · rw [Function.update_self]
      exact .inr (Nat.ne_of_gt old)

/-- What is placed at a path that was there; the new sub-path comes last at its parent. -/
theorem entries_newFolder (view : Shows m D addr loose) (known : D.Known q)
    (alloc : loose < m.count) (missing : ¬ D.Known (q ++ [c])) {p : List (List Char)}
    (old : D.Known p) :
    List.Forall₂ (IsEntry ((m.newNode (.folder c)).add (addr q) m.count) (D ++ [(q, .folder c)])
        (Function.update addr (q ++ [c]) m.count) p)
      ((((m.newNode (.folder c)).add (addr q) m.count).nodes (addr p)).children.erase loose)
      (Places.at' (D ++ [(q, .folder c)]) p) := by
  have entries := forall₂_imp_mem (view.entries p old) fun j there x member entry =>
    view.isEntry_newFolder missing there member entry
  rw [view.children_newFolder, Places.at_append]
  by_cases here : p = q
  · subst here
    rw [if_pos rfl, if_pos rfl, List.erase_append]
    have other : ¬ m.count = loose := Nat.ne_of_gt alloc
    have last : List.Forall₂ (IsEntry ((m.newNode (.folder c)).add (addr p) m.count)
        (D ++ [(p, .folder c)]) (Function.update addr (p ++ [c]) m.count) p)
        [m.count] [UserObject.folder c] := by
      refine .cons ⟨?_, Function.update_self ..⟩ .nil
      rw [nodes_add]
      simp [nodes_newNode]
    split
    next => exact List.rel_append entries last
    next absent =>
      rw [List.erase_of_not_mem absent] at entries
      rw [List.erase_of_not_mem (by simpa using Ne.symm other)]
      exact List.rel_append entries last
  · have apart : addr p ≠ addr q := fun same => here (view.distinct p q old known same)
    rw [if_neg apart, if_neg (Ne.symm here), List.append_nil, List.append_nil]
    exact entries

/-- A sub-path that was not there gets the next node. -/
theorem newFolder (view : Shows m D addr loose) (known : D.Known q) (alloc : loose < m.count)
    (missing : ¬ D.Known (q ++ [c])) :
    Shows ((m.newNode (.folder c)).add (addr q) m.count) (D ++ [(q, .folder c)])
      (Function.update addr (q ++ [c]) m.count) loose := by
  have updated {p : List (List Char)} (old : D.Known p) :
      Function.update addr (q ++ [c]) m.count p = addr p := update_known missing old _
  have self : Function.update addr (q ++ [c]) m.count (q ++ [c]) = m.count :=
    Function.update_self ..
  have less {p : List (List Char)} (old : D.Known p) : addr p < m.count := (view.inside p old).1
  refine ⟨?_, fun entry member => ?_, fun p p' known₁ known₂ same => ?_, fun p known' => ?_,
    fun p known' => ?_, fun i none' => ?_, fun i j member => ?_, fun i member => ?_⟩
  · rw [updated (.inl rfl), view.root]
  · rw [Places.known_append]
    rcases List.mem_append.mp member with old | new
    · exact .inl (view.known entry old)
    · rw [List.mem_singleton.mp new]
      exact .inl known
  · -- the new node has another number than the old ones
    rcases Places.known_append.mp known₁ with old₁ | rfl <;>
      rcases Places.known_append.mp known₂ with old₂ | rfl
    · rw [updated old₁, updated old₂] at same
      exact view.distinct p p' old₁ old₂ same
    · rw [updated old₁, self] at same
      exact absurd same (Nat.ne_of_lt (less old₁))
    · rw [updated old₂, self] at same
      exact absurd same.symm (Nat.ne_of_lt (less old₂))
    · rfl
  · rw [count_add, count_newNode]
    rcases Places.known_append.mp known' with old | rfl
    · rw [updated old]
      exact ⟨Nat.lt_succ_of_lt (less old), (view.inside p old).2⟩
    · rw [self]
      exact ⟨Nat.lt_succ_self _, Nat.ne_of_gt alloc⟩
  · rcases Places.known_append.mp known' with old | rfl
    · rw [updated old]
      exact view.entries_newFolder known alloc missing old
    · -- below the new sub-path there is nothing yet
      have nothing : D.at' (q ++ [c]) = [] := by
        rw [List.eq_nil_iff_forall_not_mem]
        exact fun x member => missing (view.known _ (Places.mem_at.mp member))
      have above : addr q ≠ m.count := Nat.ne_of_lt (less known)
      rw [self, view.children_newFolder, view.children_count, if_neg (Ne.symm above),
        Places.at_append, nothing, if_neg (by simp)]
      exact .nil
  · have off : ∀ p, D.Known p → addr p ≠ i := fun p old same =>
      none' p (Places.known_append.mpr (.inl old)) ((updated old).trans same)
    rw [view.children_newFolder, view.others i off, if_neg (Ne.symm (off q known))]
    rfl
  · rw [count_add, count_newNode]
    rcases view.mem_children_newFolder.mp member with old | ⟨-, rfl⟩
    · exact Nat.lt_succ_of_lt (view.bound i j old)
    · exact Nat.lt_succ_self _
  · -- the loose bean keeps its one place
    have other : ¬ loose = m.count := Nat.ne_of_lt alloc
    have member' : loose ∈ (m.nodes i).children :=
      (view.mem_children_newFolder.mp member).resolve_right fun new => other new.2
    obtain ⟨parent, once, b, object⟩ := view.single i member'
    refine ⟨?_, ?_, b, (userObject_newFolder _ alloc).trans object⟩
    · rw [nodes_add]
      dsimp only
      rw [if_neg other, nodes_newNode, if_neg other, parent]
    · rw [view.children_newFolder, List.count_append, once]
      split
      · simp [Ne.symm other]
      · simp

/-- One level of a path. -/
theorem subPath (view : Shows m D addr loose) (known : D.Known q) (alloc : loose < m.count)
    (c : List Char) : ∃ addr', Shows (m.subPath (addr q) c).1 (D.addFolder q c) addr' loose ∧
      (m.subPath (addr q) c).2 = addr' (q ++ [c]) ∧ (D.addFolder q c).Known (q ++ [c]) := by
  have found := view.find_subPath known c
  by_cases old : (D.at' q).any (·.isFolder c) = true
  · have there : D.Known (q ++ [c]) := Places.known_child.mpr (Places.any_isFolder.mp old)
    have level : m.subPath (addr q) c = (m, addr (q ++ [c])) := by
      rw [if_pos old] at found
      simp only [BeanTreeModel.subPath, found]
    have placed : D.addFolder q c = D := if_pos old
    rw [level, placed]
    exact ⟨addr, view, rfl, there⟩
  · have level : m.subPath (addr q) c =
        ((m.newNode (.folder c)).add (addr q) m.count, m.count) := by
      rw [if_neg old] at found
      simp only [BeanTreeModel.subPath, found]
    have placed : D.addFolder q c = D ++ [(q, .folder c)] := if_neg old
    rw [level, placed]
    have missing : ¬ D.Known (q ++ [c]) := fun there =>
      old (Places.any_isFolder.mpr (Places.known_child.mp there))
    refine ⟨Function.update addr (q ++ [c]) m.count, view.newFolder known alloc missing, ?_, ?_⟩
    · simp
    · exact Places.known_append.mpr (.inr rfl)

theorem subPaths (view : Shows m D addr loose) (known : D.Known q) (alloc : loose < m.count)
    (cs : List (List Char)) : ∃ addr',
      Shows (BeanTreeModel.subPaths m (addr q) cs).1 (D.addFolders q cs) addr' loose ∧
        (BeanTreeModel.subPaths m (addr q) cs).2 = addr' (q ++ cs) ∧
        (D.addFolders q cs).Known (q ++ cs) := by
  induction cs generalizing m D addr q with
  | nil =>
    rw [List.append_nil]
    exact ⟨addr, view, rfl, known⟩
  | cons c cs ih =>
    obtain ⟨addr₁, view₁, node, known₁⟩ := view.subPath known alloc c
    have alloc₁ := Nat.lt_of_lt_of_le alloc (Stays.subPath m (addr q) c).grows
    obtain ⟨addr₂, view₂, node₂, known₂⟩ := ih view₁ known₁ alloc₁
    rw [List.append_cons]
    refine ⟨addr₂, ?_, ?_, known₂⟩
    · rw [BeanTreeModel.subPaths, node]
      exact view₂
    · rw [BeanTreeModel.subPaths, node]
      exact node₂

/-- The loose node is added at all paths of a bean. -/
theorem addNodeToPaths (view : Shows m D addr loose) (alloc : loose < m.count) {b : β}
    (object : (m.nodes loose).userObject = .bean b) {last : Option (List (List Char))}
    (placed : Last m addr loose last) (known : ∀ q ∈ last, D.Known q)
    {paths : List (List (List Char))}
    (form : ∀ cs ∈ paths, cs ≠ [] ∧ ∀ d ∈ cs, d ≠ [] ∧ '/' ∉ d) :
    ∃ m' addr', Ends (fun fuel => (paths.map pathOf).foldlM
        (fun model path => model.addNodeToPath fuel loose path) m) (.ok m') ∧
      Shows m' (paths.foldl (fun D cs => D.addFolders [] cs) D) addr' loose ∧
      loose < m'.count ∧ (m'.nodes loose).userObject = .bean b ∧
      Last m' addr' loose (paths.getLast?.or last) ∧
      (∀ q ∈ paths.getLast?.or last,
        (paths.foldl (fun D cs => D.addFolders [] cs) D).Known q) ∧
      ∀ m₀ : BeanTreeModel β, Stays m₀ m → (∀ i, ∀ j ∈ (m₀.nodes i).children, j < m₀.count) →
        m₀.count ≤ loose → Stays m₀ m' := by
  induction paths generalizing m D addr last with
  | nil => exact ⟨m, addr, .of_some _, view, alloc, object, placed, known, fun _ stays _ _ => stays⟩
  | cons cs paths ih =>
    obtain ⟨some', form₁⟩ := form cs (by simp)
    have ends := ends_addNodeToPath m some' form₁ loose
    have stays := Stays.subPaths m 0 cs
    obtain ⟨addr₁, view₁, node, known₁⟩ := view.subPaths (.inl rfl) alloc cs
    rw [view.root] at view₁ node
    rw [List.nil_append] at node known₁
    have alloc₁ := Nat.lt_of_lt_of_le alloc stays.grows
    have object₁ := (stays.object loose alloc).trans object
    obtain ⟨view₂, placed₂⟩ := view₁.addLoose known₁ alloc₁ object₁
    rw [← node] at view₂ placed₂
    have alloc₂ : loose < ((BeanTreeModel.subPaths m 0 cs).1.add
        (BeanTreeModel.subPaths m 0 cs).2 loose).count := by simpa using alloc₁
    have object₂ : (((BeanTreeModel.subPaths m 0 cs).1.add
        (BeanTreeModel.subPaths m 0 cs).2 loose).nodes loose).userObject = .bean b := by
      rw [nodes_add]
      exact object₁
    have known₂ : ∀ q ∈ some cs, (D.addFolders [] cs).Known q := by
      rintro q ⟨⟩
      exact known₁
    obtain ⟨m', addr', ends', view', alloc', object', placed', known', stays'⟩ :=
      ih view₂ alloc₂ object₂ placed₂ known₂ fun cs member => form cs (by simp [member])
    have lasts : (cs :: paths).getLast?.or last = paths.getLast?.or (some cs) := by
      rw [List.getLast?_cons]
      cases paths.getLast? <;> rfl
    rw [lasts]
    refine ⟨m', addr', ?_, view', alloc', object', placed', known', fun m₀ first bound late => ?_⟩
    · simp only [List.map_cons, List.foldlM_cons]
      exact ends.ok_bind ends'
    · exact stays' m₀ ((first.trans stays).add bound late) bound late

/-- What the tree shows when the bean has come to its place. -/
theorem settle (view : Shows m D addr loose) {b : β}
    (object : (m.nodes loose).userObject = .bean b) {last : Option (List (List Char))}
    (placed : Last m addr loose last) (known : ∀ q ∈ last, D.Known q) :
    Shows m (D ++ last.toList.map fun cs => (cs, .bean b)) addr m.count := by
  have absent (i : Nat) : m.count ∉ (m.nodes i).children :=
    fun member => Nat.lt_irrefl _ (view.bound i _ member)
  have same (p : List (List Char)) :
      Places.Known (D ++ last.toList.map fun cs => (cs, .bean b)) p ↔ D.Known p := by
    cases last with
    | none => simp
    | some q => exact Places.known_append_bean
  refine ⟨view.root, fun entry member => ?_, fun p q known₁ known₂ equal => ?_,
    fun p known' => ?_, fun p known' => ?_, fun i none' => ?_, view.bound, fun i member => ?_⟩
  · rw [same]
    rcases List.mem_append.mp member with old | new
    · exact view.known entry old
    · obtain ⟨q, there, rfl⟩ := List.mem_map.mp new
      exact known q (Option.mem_toList.mp there)
  · exact view.distinct p q ((same p).mp known₁) ((same q).mp known₂) equal
  · exact ⟨(view.inside p ((same p).mp known')).1,
      Nat.ne_of_lt (view.inside p ((same p).mp known')).1⟩
  · rw [same] at known'
    rw [List.erase_of_not_mem (absent _)]
    have entries := forall₂_imp_mem (view.entries p known') fun j _ x _ entry =>
      isEntry_mono entry rfl (fun _ _ => rfl) fun p' known'' => .inl ⟨(same p').mp known'', rfl⟩
    cases last with
    | none =>
      rw [List.erase_of_not_mem (placed _)] at entries
      simpa using entries
    | some q =>
      rw [placed (addr p)]
      simp only [Option.toList_some, List.map_cons, List.map_nil] at entries ⊢
      rw [Places.at_append]
      by_cases here : p = q
      · subst here
        rw [if_pos rfl, if_pos rfl]
        refine List.rel_append entries (.cons ⟨object, fun p' known'' => ?_⟩ .nil)
        exact (view.inside p' (Places.known_append_bean.mp known'')).2
      · have apart : addr p ≠ addr q := fun equal =>
          here (view.distinct p q known' (known q rfl) equal)
        rw [if_neg apart, if_neg (Ne.symm here), List.append_nil, List.append_nil]
        exact entries
  · exact view.others i fun q known' => none' q ((same q).mpr known')
  · exact absurd member (absent i)

/-- One bean. -/
theorem addBean {places : β → List (List (List Char))} (view : Shows m D addr m.count) {b : β}
    (form : ∀ cs ∈ places b, cs ≠ [] ∧ ∀ d ∈ cs, d ≠ [] ∧ '/' ∉ d) :
    ∃ m' addr', Ends (m.addBean (fun b => (places b).map pathOf) · b) (.ok m') ∧
      Shows m' (D.addBean places b) addr' m'.count ∧ Stays m m' := by
  have object : ((m.newNode (.bean b)).nodes m.count).userObject = .bean b := by
    simp [nodes_newNode]
  have nowhere : Last (m.newNode (.bean b)) addr m.count none := fun i member => by
    have old := view.fresh i
    rw [nodes_newNode] at member
    split at member
    · cases member
    · exact old member
  obtain ⟨m', addr', ends, view', alloc', object', placed', known', stays⟩ :=
    (view.newNode b).addNodeToPaths (Nat.lt_succ_self _) object nowhere (by simp) form
  rw [Option.or_none] at placed' known'
  exact ⟨m', addr', ends, view'.settle object' placed' known',
    stays m (Stays.newNode m _) view.bound (Nat.le_refl _)⟩

theorem create (rootObject : UserObject β) :
    Shows (BeanTreeModel.create rootObject) ([] : Places β) (fun _ => 0) 1 := by
  refine ⟨rfl, by simp, fun p q known₁ known₂ _ => ?_, by simp [BeanTreeModel.create], ?_, ?_,
    ?_, ?_⟩
  · simp only [Places.Known, List.not_mem_nil, and_false, exists_false, or_false] at known₁ known₂
    rw [known₁, known₂]
  all_goals simp [BeanTreeModel.create, Places.at']

/-- All beans. -/
theorem addBeans {places : β → List (List (List Char))} (view : Shows m D addr m.count)
    {beans : List β}
    (form : ∀ b ∈ beans, ∀ cs ∈ places b, cs ≠ [] ∧ ∀ d ∈ cs, d ≠ [] ∧ '/' ∉ d) :
    ∃ m' addr', Ends (m.addBeans (fun b => (places b).map pathOf) · beans) (.ok m') ∧
      Shows m' (beans.foldl (Places.addBean places) D) addr' m'.count := by
  induction beans generalizing m D addr with
  | nil => exact ⟨m, addr, .of_some _, view⟩
  | cons b beans ih =>
    obtain ⟨m₁, addr₁, first, view₁, _⟩ := view.addBean (form b (by simp))
    obtain ⟨m₂, addr₂, rest, view₂⟩ := ih view₁ fun b member => form b (by simp [member])
    refine ⟨m₂, addr₂, ?_, view₂⟩
    simp only [BeanTreeModel.addBeans, List.foldlM_cons]
    exact first.ok_bind rest

end Shows

end VRJuggler.Tweek
