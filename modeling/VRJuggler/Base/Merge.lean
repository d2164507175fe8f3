import Mathlib.Data.List.Nodup

/-!
# Lists that grow by what they do not contain

An element is appended to a list unless it equals one that is there. The equality need not be
transitive. Where only elements with the same key are equal, the list keeps the first element
of each key, and no others just when all of them equal the first one of their key.
-/
namespace VRJuggler

variable {α κ : Type} {equal : α → α → Bool} {key : α → κ}

/-- The element is compared with those of the list. -/
def addNew (equal : α → α → Bool) (list : List α) (x : α) : List α :=
  if list.any (equal x) then list else list ++ [x]

variable {list xs : List α} {x : α}

theorem addNew_of_any (present : list.any (equal x) = true) : addNew equal list x = list :=
  if_pos present

theorem addNew_of_not_any (new : list.any (equal x) = false) :
    addNew equal list x = list ++ [x] := by
  rw [addNew, new, if_neg Bool.false_ne_true]

/-- What is in the list stays in front. -/
theorem isPrefix_foldl_addNew : list <+: xs.foldl (addNew equal) list := by
  induction xs generalizing list with
  | nil => exact List.prefix_rfl
  | cons x xs ih =>
    rw [List.foldl_cons]
    apply List.IsPrefix.trans _ ih
    rw [addNew]
    split
    · exact List.prefix_rfl
    · exact List.prefix_append _ _

/-- The list does not grow just when everything equals something in it. -/
theorem foldl_addNew_eq_self_iff :
    xs.foldl (addNew equal) list = list ↔ ∀ x ∈ xs, list.any (equal x) = true := by
  induction xs with
  | nil => simp
  | cons x xs ih =>
    rw [List.foldl_cons, List.forall_mem_cons]
    cases new : list.any (equal x) with
    | true => rw [addNew_of_any new, ih, eq_self, true_and]
    | false =>
      rw [addNew_of_not_any new]
      apply iff_of_false
      · intro same
        -- the element would stay at the end
        have longer : (list ++ [x]).length ≤ list.length := by
          conv_rhs => rw [← same]
          exact isPrefix_foldl_addNew.length_le
        rw [List.length_append] at longer
        exact absurd longer (Nat.not_succ_le_self _)
      · rintro ⟨present, -⟩
        cases present

theorem foldl_addNew_of_mem (self : ∀ x, equal x x = true) (present : ∀ x ∈ xs, x ∈ list) :
    xs.foldl (addNew equal) list = list := by
  induction xs with
  | nil => rfl
  | cons x xs ih =>
    have here : list.any (equal x) = true :=
      List.any_eq_true.mpr ⟨x, present x (List.mem_cons_self ..), self x⟩
    rw [List.foldl_cons, addNew_of_any here]
    exact ih fun y member => present y (List.mem_cons_of_mem _ member)

/-- Where all keys are distinct, everything is new. -/
theorem foldl_addNew_of_nodup (respects : ∀ x y, equal x y = true → key x = key y)
    (distinct : ((list ++ xs).map key).Nodup) : xs.foldl (addNew equal) list = list ++ xs := by
  induction xs generalizing list with
  | nil => rw [List.foldl_nil, List.append_nil]
  | cons x xs ih =>
    have new : list.any (equal x) = false := by
      rw [List.any_eq_false]
      intro y member equals
      rw [List.map_append] at distinct
      have apart := List.disjoint_of_nodup_append distinct
      refine apart (List.mem_map_of_mem member) ?_
      rw [← respects x y equals]
      exact List.mem_cons_self ..
    rw [List.append_cons] at distinct
    rw [List.foldl_cons, addNew_of_not_any new, ih distinct, ← List.append_cons]

section Keys

variable [DecidableEq κ]

/-- The first element with the key. -/
def firstOf (key : α → κ) (list : List α) (k : κ) : Option α := list.find? fun x => key x = k

theorem firstOf_append (list xs : List α) (k : κ) :
    firstOf key (list ++ xs) k = (firstOf key list k).or (firstOf key xs k) :=
  List.find?_append

theorem key_of_firstOf {k : κ} (found : firstOf key list k = some x) : key x = k := by
  simpa using List.find?_some found

theorem mem_of_firstOf {k : κ} (found : firstOf key list k = some x) : x ∈ list :=
  List.mem_of_find?_eq_some found

/-- A key has a first element just when it is the key of an element. -/
theorem isSome_firstOf {k : κ} : (firstOf key list k).isSome ↔ k ∈ list.map key := by
  rw [firstOf, List.find?_isSome, List.mem_map]
  simp

/-- Where keys are distinct, each element is the first one of its key. -/
theorem firstOf_of_mem (distinct : (list.map key).Nodup) (member : x ∈ list) :
    firstOf key list (key x) = some x := by
  obtain ⟨y, found⟩ := Option.isSome_iff_exists.mp
    (isSome_firstOf.mpr (List.mem_map_of_mem (f := key) member))
  have same := List.inj_on_of_nodup_map distinct (mem_of_firstOf found) member
    (key_of_firstOf found)
  rw [found, same]

variable (respects : ∀ x y, equal x y = true → key x = key y)
include respects

theorem firstOf_addNew (k : κ) :
    firstOf key (addNew equal list x) k = (firstOf key list k).or (firstOf key [x] k) := by
  cases new : list.any (equal x) with
  | false => rw [addNew_of_not_any new, firstOf_append]
  | true =>
    rw [addNew_of_any new]
    by_cases same : key x = k
    · -- An element that equals it is there, and has the key as well.
      obtain ⟨y, member, equals⟩ := List.any_eq_true.mp new
      have known : (firstOf key list k).isSome := by
        rw [isSome_firstOf, ← same, respects x y equals]
        exact List.mem_map_of_mem member
      obtain ⟨z, found⟩ := Option.isSome_iff_exists.mp known
      rw [found, Option.some_or]
    · have other : firstOf key [x] k = none := by
        rw [firstOf, List.find?_singleton, if_neg (by simpa using same)]
      rw [other, Option.or_none]

/-- The first element of each key is kept. -/
theorem firstOf_foldl_addNew (k : κ) :
    firstOf key (xs.foldl (addNew equal) list) k = firstOf key (list ++ xs) k := by
  induction xs generalizing list with
  | nil => rw [List.foldl_nil, List.append_nil]
  | cons x xs ih =>
    rw [List.foldl_cons, ih, List.append_cons, firstOf_append, firstOf_append,
      firstOf_addNew respects, firstOf_append list]

theorem mem_keys_foldl_addNew {k : κ} :
    k ∈ (xs.foldl (addNew equal) list).map key ↔ k ∈ list.map key ∨ k ∈ xs.map key := by
  rw [← isSome_firstOf, firstOf_foldl_addNew respects, isSome_firstOf, List.map_append,
    List.mem_append]

variable (self : ∀ x, equal x x = true)
include self

/-- One element is added to distinct ones. -/
theorem nodup_addNew (distinct : (list.map key).Nodup) :
    ((addNew equal list x).map key).Nodup ↔
      ∀ y, firstOf key (list ++ [x]) (key x) = some y → equal x y = true := by
  rw [firstOf_append]
  cases first : firstOf key list (key x) with
  | none =>
    have new : key x ∉ list.map key := by
      rw [← isSome_firstOf, first]
      exact Bool.false_ne_true
    have none : list.any (equal x) = false := by
      rw [List.any_eq_false]
      intro y member equals
      exact new (respects x y equals ▸ List.mem_map_of_mem member)
    rw [addNew_of_not_any none, List.map_append, Option.none_or, firstOf, List.find?_singleton,
      if_pos (by simp)]
    constructor
    · rintro - y found
      obtain rfl := Option.some.inj found
      exact self x
    · intro _
      exact distinct.append (List.nodup_singleton _) (List.disjoint_singleton.mpr new)
  | some y =>
    simp only [Option.some_or, Option.some.injEq, forall_eq']
    constructor
    · intro nodup
      cases new : list.any (equal x) with
      | true =>
        obtain ⟨z, member, equals⟩ := List.any_eq_true.mp new
        have same : z = y := by
          have here := firstOf_of_mem distinct member
          rw [← respects x z equals, first] at here
          exact (Option.some.inj here).symm
        exact same ▸ equals
      | false =>
        rw [addNew_of_not_any new, List.map_append] at nodup
        have twice : key x ∈ list.map key := by
          rw [← isSome_firstOf, first]
          rfl
        exact absurd (List.mem_singleton_self _) (List.disjoint_of_nodup_append nodup twice)
    · intro equals
      rw [addNew_of_any (List.any_eq_true.mpr ⟨y, mem_of_firstOf first, equals⟩)]
      exact distinct

/-- The keys stay distinct just when each element equals the first one of its key. -/
theorem nodup_foldl_addNew :
    ((xs.foldl (addNew equal) list).map key).Nodup ↔ (list.map key).Nodup ∧
      ∀ x ∈ xs, ∀ y, firstOf key (list ++ xs) (key x) = some y → equal x y = true := by
  induction xs generalizing list with
  | nil => simp
  | cons x xs ih =>
    have firsts (k : κ) : firstOf key (addNew equal list x ++ xs) k =
        firstOf key (list ++ x :: xs) k := by
      rw [firstOf_append, firstOf_addNew respects, List.append_cons, firstOf_append,
        firstOf_append list]
    rw [List.foldl_cons, ih]
    simp only [firsts, List.mem_cons, forall_eq_or_imp]
    have front : list <+: addNew equal list x := by
      have step : [x].foldl (addNew equal) list = addNew equal list x := rfl
      rw [← step]
      exact isPrefix_foldl_addNew
    have here (k : κ) (known : (firstOf key (list ++ [x]) k).isSome) :
        firstOf key (list ++ x :: xs) k = firstOf key (list ++ [x]) k := by
      obtain ⟨y, found⟩ := Option.isSome_iff_exists.mp known
      rw [List.append_cons, firstOf_append, found, Option.some_or]
    have known : (firstOf key (list ++ [x]) (key x)).isSome := by
      rw [isSome_firstOf]
      simp
    constructor
    · rintro ⟨nodup, later⟩
      have distinct : (list.map key).Nodup := nodup.sublist (front.sublist.map key)
      refine ⟨distinct, ?_, later⟩
      rw [here _ known]
      exact (nodup_addNew respects self distinct).mp nodup
    · rintro ⟨distinct, first, later⟩
      rw [here _ known] at first
      exact ⟨(nodup_addNew respects self distinct).mpr first, later⟩

end Keys

end VRJuggler
