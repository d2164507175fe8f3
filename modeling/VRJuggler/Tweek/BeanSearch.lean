import VRJuggler.Tweek.BeanPlaces

/-!
# When beans are found at their paths

A path that is looked for leads to what was placed first at each level under the name that comes
next. A bean is found at all of its paths only where nothing came before it or before the sub-paths,
and where no path takes it away from another one.
-/
namespace VRJuggler.Tweek

open Throwing

variable {β : Type}

/-! ## What is found -/

namespace Places

variable (getName : β → List Char)

/-- What is found by the names, below a path: the first thing of each name, and nothing below a
bean. -/
def found (D : Places β) : List (List Char) → List (List Char) → Option (UserObject β)
  | _, [] => none
  | q, [c] => D.first getName q c
  | q, c :: c' :: cs =>
    match D.first getName q c with
    | some (.folder _) => found D (q ++ [c]) (c' :: cs)
    | _ => none

/-- The first thing at each level of the path is the sub-path, and at its end the bean. -/
def LeadsTo (D : Places β) (p : List (List Char)) (b : β) : Prop :=
  (∀ q c, q ++ [c] <+: p → D.first getName q c = some (.folder c)) ∧
    D.first getName p (getName b) = some (.bean b)

variable {getName} {D : Places β} {q p : List (List Char)} {c : List Char} {x : UserObject β}

theorem first_eq_folder {d : List Char} (here : D.first getName q c = some (.folder d)) :
    d = c ∧ D.Known (q ++ [c]) := by
  have named : d = c := by simpa [UserObject.named] using List.find?_some here
  refine ⟨named, known_child.mpr (mem_at.mp ?_)⟩
  rw [← named]
  exact List.mem_of_find?_eq_some here

theorem found_iff {b : β} : D.found getName q (p ++ [c]) = some (.bean b) ↔
    (∀ r d, r ++ [d] <+: p → D.first getName (q ++ r) d = some (.folder d)) ∧
      D.first getName (q ++ p) c = some (.bean b) := by
  induction p generalizing q with
  | nil => simp [found]
  | cons e p ih =>
    obtain ⟨c', cs, more⟩ : ∃ c' cs, p ++ [c] = c' :: cs :=
      List.exists_cons_of_ne_nil (by simp)
    have step : D.found getName q (e :: p ++ [c]) =
        match D.first getName q e with
        | some (.folder _) => D.found getName (q ++ [e]) (p ++ [c])
        | _ => none := by
      rw [List.cons_append, more, found]
    rw [step, forall_initial_cons, List.append_nil]
    cases level : D.first getName q e with
    | none => simp
    | some y =>
      cases y with
      | bean b' => simp
      | folder d =>
        obtain ⟨rfl, _⟩ := first_eq_folder level
        simpa [and_assoc] using ih (q := q ++ [d])

end Places

section Search

variable {m : BeanTreeModel β} {D : Places β} {addr : List (List Char) → Nat}

/-- The child that matches a name is the node of what was placed first under it. -/
theorem find_child (view : Shows m D addr m.count) (getName : β → List Char)
    {q : List (List Char)} (known : D.Known q) (c : List Char) :
    Option.Rel (IsEntry m D addr q)
      ((m.nodes (addr q)).children.find? fun j => (m.nodes j).userObject.named getName c)
      (D.first getName q c) := by
  have entries := view.entries q known
  rw [List.erase_of_not_mem (view.fresh _)] at entries
  refine find?_rel entries fun j x entry => ?_
  cases x with
  | folder d => rw [entry.1]
  | bean b => rw [entry.1]

theorem object_of_entry {q : List (List Char)} {j : Nat} {x : UserObject β}
    (entry : IsEntry m D addr q j x) : (m.nodes j).userObject = x := by
  cases x with
  | folder d => exact entry.1
  | bean b => exact entry.1

/-- The nodes on the way are those of what was placed first. -/
theorem search_eq (view : Shows m D addr m.count) (getName : β → List Char)
    {q : List (List Char)} (known : D.Known q) (c : List Char) (cs : List (List Char)) :
    (m.search getName (addr q) (c :: cs)).map (fun j => (m.nodes j).userObject) =
      D.found getName q (c :: cs) := by
  induction cs generalizing q c with
  | nil =>
    have child := find_child view getName known c
    rw [BeanTreeModel.search, Places.found]
    generalize (m.nodes (addr q)).children.find? _ = i, D.first getName q c = x at child
    cases child with
    | none => rfl
    | some entry => exact congrArg some (object_of_entry entry)
  | cons c' cs ih =>
    have child := find_child view getName known c
    rw [BeanTreeModel.search, Places.found]
    cases level : D.first getName q c with
    | none =>
      rw [level] at child
      generalize (m.nodes (addr q)).children.find? _ = i at child
      cases child
      rfl
    | some x =>
      rw [level] at child
      generalize (m.nodes (addr q)).children.find? _ = i at child
      cases child with
      | some entry =>
        cases x with
        | folder d =>
          obtain ⟨rfl, known'⟩ := Places.first_eq_folder level
          rw [Option.bind_some, ← entry.2]
          exact ih known' c'
        | bean b =>
          -- the node of a bean has no children
          rw [Option.bind_some, BeanTreeModel.search, view.others _ entry.2]
          rfl

end Search

/-! ## Beans at their paths -/

/-- What the tree is for: each bean that was added is found at each of its paths, sub-paths with one
parent have different labels, and a bean that is added leaves all other nodes where they were. -/
structure HoldsBeans (getName : β → List Char) (places : β → List (List (List Char)))
    (rootObject : UserObject β) (beans : List β) (m : BeanTreeModel β) : Prop where
  reached : ∀ b ∈ beans, ∀ p ∈ places b, ∃ node,
    Ends (m.getNode getName · 0 (some (pathOf p ++ '/' :: getName b))) (.ok (some node)) ∧
      (m.nodes node).userObject = .bean b
  labels : ∀ i j k c, j ∈ (m.nodes i).children → k ∈ (m.nodes i).children →
    (m.nodes j).userObject = .folder c → (m.nodes k).userObject = .folder c → j = k
  stays : ∀ front b rest, beans = front ++ b :: rest → ∃ m₁ m₂,
    Ends ((BeanTreeModel.create rootObject).addBeans (fun b => (places b).map pathOf) · front)
      (.ok m₁) ∧
    Ends (m₁.addBean (fun b => (places b).map pathOf) · b) (.ok m₂) ∧ Stays m₁ m₂

section Reached

variable {m : BeanTreeModel β} {D : Places β} {addr : List (List Char) → Nat}

/-- A bean is found at a path just when what was placed leads to it. -/
theorem reached_iff (view : Shows m D addr m.count) (getName : β → List Char)
    {p : List (List Char)} {b : β} (form : ∀ c ∈ p ++ [getName b], '/' ∉ c) :
    (∃ node, Ends (m.getNode getName · 0 (some (pathOf p ++ '/' :: getName b)))
        (.ok (some node)) ∧ (m.nodes node).userObject = .bean b) ↔ D.LeadsTo getName p b := by
  have path : pathOf p ++ '/' :: getName b = pathOf (p ++ [getName b]) := by
    simp [pathOf]
  have found : D.found getName [] (p ++ [getName b]) = some (.bean b) ↔ D.LeadsTo getName p b := by
    rw [Places.found_iff]
    simp [Places.LeadsTo]
  obtain ⟨c, cs, parts⟩ : ∃ c cs, p ++ [getName b] = c :: cs :=
    List.exists_cons_of_ne_nil (by simp)
  rw [parts] at form found path
  have ends := m.ends_getNode getName form 0
  have same := search_eq view getName (.inl rfl) c cs
  rw [view.root] at same
  rw [← found, path, ← same, Option.map_eq_some_iff]
  constructor
  · rintro ⟨node, ends', object⟩
    exact ⟨node, Except.ok.inj (ends.unique ends'), object⟩
  · rintro ⟨node, here, object⟩
    rw [here] at ends
    exact ⟨node, ends, object⟩

theorem labels_differ (view : Shows m D addr m.count) {i j k : Nat} {c : List Char}
    (left : j ∈ (m.nodes i).children) (right : k ∈ (m.nodes i).children)
    (label : (m.nodes j).userObject = .folder c) (label' : (m.nodes k).userObject = .folder c) :
    j = k := by
  by_cases path : ∃ q, D.Known q ∧ addr q = i
  · obtain ⟨q, known, rfl⟩ := path
    have entries := view.entries q known
    rw [List.erase_of_not_mem (view.fresh _)] at entries
    -- both are the node of the sub-path with that label
    have node {j : Nat} (member : j ∈ (m.nodes (addr q)).children)
        (label : (m.nodes j).userObject = .folder c) : addr (q ++ [c]) = j := by
      obtain ⟨x, _, entry⟩ := exists_right_of_forall₂ entries member
      obtain rfl := (object_of_entry entry).symm.trans label
      exact entry.2
    exact (node left label).symm.trans (node right label')
  · have none' := view.others i fun q known same => path ⟨q, known, same⟩
    rw [none'] at left
    cases left

end Reached

end VRJuggler.Tweek
