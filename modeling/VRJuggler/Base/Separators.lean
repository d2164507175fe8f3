import Mathlib.Data.List.Count

/-!
# Text with separators

A list is taken apart at its first separator. What has no separator is a component. The runs of a
list are what is left of it without separators, where none is empty.
-/
namespace VRJuggler

variable {α : Type} [DecidableEq α] (sep : α)

/-- What is before the first separator, or everything. -/
def component (xs : List α) : List α := xs.takeWhile (· ≠ sep)

/-- What is behind the first separator. -/
def behind (xs : List α) : List α := (xs.dropWhile (· ≠ sep)).tail

variable {sep} {x : α} {xs ys : List α}

@[simp] theorem component_nil : component sep [] = [] := rfl

@[simp] theorem component_cons_self : component sep (sep :: xs) = [] := by simp [component]

@[simp] theorem behind_cons_self : behind sep (sep :: xs) = xs := by simp [behind]

theorem component_cons (other : x ≠ sep) : component sep (x :: xs) = x :: component sep xs := by
  simp [component, other]

theorem behind_cons (other : x ≠ sep) : behind sep (x :: xs) = behind sep xs := by
  simp [behind, other]

theorem component_append (plain : sep ∉ xs) : component sep (xs ++ sep :: ys) = xs := by
  induction xs with
  | nil => simp
  | cons x xs ih =>
    rw [List.mem_cons, not_or] at plain
    rw [List.cons_append, component_cons (Ne.symm plain.1), ih plain.2]

theorem behind_append (plain : sep ∉ xs) : behind sep (xs ++ sep :: ys) = ys := by
  induction xs with
  | nil => simp
  | cons x xs ih =>
    rw [List.mem_cons, not_or] at plain
    rw [List.cons_append, behind_cons (Ne.symm plain.1), ih plain.2]

theorem component_append_plain (plain : sep ∉ xs) :
    component sep (xs ++ ys) = xs ++ component sep ys := by
  induction xs with
  | nil => rfl
  | cons x xs ih =>
    obtain ⟨other, plain⟩ := List.ne_and_not_mem_of_not_mem_cons plain
    rw [List.cons_append, component_cons other.symm, ih plain, List.cons_append]

theorem plain_component : sep ∉ component sep xs := by
  induction xs with
  | nil => simp
  | cons x xs ih =>
    by_cases here : x = sep
    · subst here
      simp
    · rw [component_cons here, List.mem_cons, not_or]
      exact ⟨Ne.symm here, ih⟩

/-- A list with a separator is its first component and what is behind it. -/
theorem component_append_behind (member : sep ∈ xs) :
    component sep xs ++ sep :: behind sep xs = xs := by
  induction xs with
  | nil => cases member
  | cons x xs ih =>
    by_cases here : x = sep
    · subst here
      simp
    · have later : sep ∈ xs := (List.mem_cons.mp member).resolve_left (Ne.symm here)
      rw [component_cons here, behind_cons here, List.cons_append, ih later]

/-- The first component ends where the first separator is. -/
theorem length_component_append_lt (member : sep ∈ xs) :
    (component sep (xs ++ ys)).length < xs.length := by
  have parts := congrArg List.length (component_append_behind member)
  rw [List.length_append, List.length_cons] at parts
  have here : component sep (xs ++ ys) = component sep xs := by
    conv_lhs => rw [← component_append_behind member]
    rw [List.append_assoc, List.cons_append, component_append plain_component]
  rw [here]
  omega

theorem count_behind (member : sep ∈ xs) : (behind sep xs).count sep + 1 = xs.count sep := by
  have parts := congrArg (List.count sep) (component_append_behind member)
  rw [List.count_append, List.count_cons_self, List.count_eq_zero.mpr plain_component] at parts
  omega

/-! ## Positions -/

theorem take_component : xs.take (component sep xs).length = component sep xs := by
  induction xs with
  | nil => rfl
  | cons x xs ih =>
    by_cases here : x = sep
    · subst here
      simp
    · rw [component_cons here, List.length_cons, List.take_succ_cons, ih]

theorem length_component (member : sep ∈ xs) :
    (component sep xs).length + 1 + (behind sep xs).length = xs.length := by
  have parts := congrArg List.length (component_append_behind member)
  rw [List.length_append, List.length_cons] at parts
  omega

theorem length_behind (member : sep ∈ xs) : (behind sep xs).length < xs.length := by
  have parts := length_component member
  omega

theorem drop_component (member : sep ∈ xs) :
    xs.drop ((component sep xs).length + 1) = behind sep xs := by
  induction xs with
  | nil => cases member
  | cons x xs ih =>
    by_cases here : x = sep
    · subst here
      simp
    · have later : sep ∈ xs := (List.mem_cons.mp member).resolve_left (Ne.symm here)
      rw [component_cons here, behind_cons here, List.length_cons, List.drop_succ_cons, ih later]

/-- The first separator is behind the first component. -/
theorem findIdx?_separator (member : sep ∈ xs) :
    xs.findIdx? (· == sep) = some (component sep xs).length := by
  induction xs with
  | nil => cases member
  | cons x xs ih =>
    rw [List.findIdx?_cons]
    by_cases here : x = sep
    · subst here
      simp
    · have later : sep ∈ xs := (List.mem_cons.mp member).resolve_left (Ne.symm here)
      rw [if_neg (by simpa using here), ih later, component_cons here]
      rfl

theorem findIdx?_plain (plain : sep ∉ xs) : xs.findIdx? (· == sep) = none := by
  rw [List.findIdx?_eq_none_iff]
  intro x member
  exact beq_eq_false_iff_ne.mpr fun same => plain (same ▸ member)

/-! ## Runs -/

/-- The maximal runs of a list that are not empty and without separators, in order. -/
inductive Runs (sep : α) : List α → List (List α) → Prop where
  | none (n : Nat) : Runs sep (List.replicate n sep) []
  | run (n : Nat) {run rest : List α} {runs : List (List α)} (some' : run ≠ [])
      (plain : sep ∉ run) (ends : rest = [] ∨ rest.head? = some sep) (more : Runs sep rest runs) :
      Runs sep (List.replicate n sep ++ (run ++ rest)) (run :: runs)

namespace Runs

variable {runs : List (List α)}

omit [DecidableEq α] in
/-- A separator in front changes nothing. -/
theorem separated (split : Runs sep xs runs) : Runs sep (sep :: xs) runs := by
  cases split with
  | none n => exact .none (n + 1)
  | run n some' plain ends more => exact .run (n + 1) some' plain ends more

omit [DecidableEq α] in
theorem plain (split : Runs sep xs runs) : ∀ run ∈ runs, run ≠ [] ∧ sep ∉ run := by
  induction split with
  | none => simp
  | run n some' plain _ _ ih => exact List.forall_mem_cons.mpr ⟨⟨some', plain⟩, ih⟩

omit [DecidableEq α] in
/-- A list without separators is a run, unless it is empty. -/
theorem of_plain (none' : sep ∉ xs) : Runs sep xs (if xs = [] then [] else [xs]) := by
  split
  next empty =>
    subst empty
    exact .none 0
  next some' =>
    have last := Runs.run 0 some' none' (.inl rfl) (.none 0)
    simpa using last

/-- The first component is a run, unless it is empty, and the others are behind it. -/
theorem of_behind (member : sep ∈ xs) (split : Runs sep (behind sep xs) runs) :
    Runs sep xs (if component sep xs = [] then runs else component sep xs :: runs) := by
  have parts := component_append_behind member
  split
  next empty =>
    rw [empty, List.nil_append] at parts
    rw [← parts]
    exact split.separated
  next some' =>
    have first := Runs.run 0 some' plain_component (.inr rfl) split.separated
    rw [List.replicate_zero, List.nil_append, parts] at first
    exact first

/-- The runs are the pieces between separators that are not empty. -/
theorem eq_splitOn (split : Runs sep xs runs) : runs = (xs.splitOn sep).filter (· ≠ []) := by
  have leading (n : Nat) (ys : List α) : ((List.replicate n sep ++ ys).splitOn sep).filter
      (· ≠ []) = (ys.splitOn sep).filter (· ≠ []) := by
    induction n with
    | zero => rfl
    | succ n ih => simpa [List.replicate_succ, List.splitOn_cons_eq_if_modifyHead] using ih
  induction split with
  | none n => simpa using (leading n []).symm
  | @run n run rest runs some' plain ends more ih =>
    rw [leading, ih]
    rcases ends with rfl | next
    · simp [List.splitOn_eq_singleton plain, some']
    · obtain ⟨rest, rfl⟩ := List.head?_eq_some_iff.mp next
      rw [List.splitOn_append_cons_self_of_not_mem plain, List.filter_cons_of_pos (by simpa)]
      have first := leading 1 rest
      rw [List.replicate_one, List.singleton_append] at first
      rw [first]

theorem unique {runs' : List (List α)} (left : Runs sep xs runs) (right : Runs sep xs runs') :
    runs = runs' := by
  rw [left.eq_splitOn, right.eq_splitOn]

omit [DecidableEq α] in
/-- Pieces with a separator after each are the runs. -/
theorem of_pieces (pieces : ∀ run ∈ runs, run ≠ [] ∧ sep ∉ run) :
    Runs sep (sep :: runs.flatMap (· ++ [sep])) runs := by
  induction runs with
  | nil => exact .none 1
  | cons run runs ih =>
    rw [List.forall_mem_cons] at pieces
    rw [List.flatMap_cons, List.append_assoc]
    exact .run 1 pieces.1.1 pieces.1.2 (.inr rfl) (ih pieces.2)

end Runs

end VRJuggler
