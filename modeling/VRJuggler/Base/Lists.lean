import Mathlib.Data.List.Forall2
import Mathlib.Data.List.Nodup

/-!
# Lists: counting and removing

How a count follows a change at one element, and what `std::remove_if` leaves
behind.
-/
namespace VRJuggler

variable {α : Type}

/-- When a predicate becomes true at one element of a list without repetitions,
its count goes up by one. -/
theorem countP_eq_succ {p q : α → Bool} {l : List α} {a : α} (nodup : l.Nodup) (member : a ∈ l)
    (before : p a = false) (after : q a = true) (others : ∀ b ∈ l, b ≠ a → q b = p b) :
    l.countP q = l.countP p + 1 := by
  induction l with
  | nil => simp at member
  | cons b l ih =>
    rw [List.nodup_cons] at nodup
    rw [List.countP_cons, List.countP_cons]
    by_cases same : b = a
    · subst same
      have rest : l.countP q = l.countP p := by
        apply List.countP_congr
        intro c hc
        have ne : c ≠ b := fun equal => nodup.1 (equal ▸ hc)
        rw [others c (List.mem_cons_of_mem _ hc) ne]
      rw [rest, after, before]
      simp
    · have member : a ∈ l := by simpa [Ne.symm same] using member
      rw [ih nodup.2 member fun c hc => others c (List.mem_cons_of_mem _ hc),
        others b (List.mem_cons_self ..) same]
      omega

/-- Where a key is counted once, it belongs to one element. -/
theorem eq_of_count_map_le_one {κ : Type} [BEq κ] [LawfulBEq κ] {key : α → κ} {l : List α}
    {a b : α} (once : (l.map key).count (key a) ≤ 1) (left : a ∈ l) (right : b ∈ l)
    (same : key b = key a) : b = a := by
  induction l with
  | nil => cases left
  | cons x l ih =>
    rw [List.map_cons, List.count_cons] at once
    have positive {c : α} (member : c ∈ l) (keyed : key c = key a) :
        0 < (l.map key).count (key a) :=
      List.count_pos_iff.mpr (keyed ▸ List.mem_map_of_mem member)
    rcases List.mem_cons.mp left with rfl | left'
    · rcases List.mem_cons.mp right with rfl | right'
      · rfl
      · have one := positive right' same
        rw [beq_self_eq_true, if_pos rfl] at once
        omega
    · rcases List.mem_cons.mp right with rfl | right'
      · have one := positive left' rfl
        rw [same, beq_self_eq_true, if_pos rfl] at once
        omega
      · exact ih (by omega) left' right'

/-- `std::remove_if`: the elements to keep move to the front, in their order.
Behind the new end stand the elements that stood there before, whether they were
to be removed or not. -/
def removeIf (p : α → Bool) (xs : List α) : List α × List α :=
  (xs.filter fun x => !p x, xs.drop (xs.filter fun x => !p x).length)

/-- The elements to be removed are the last ones of the list. -/
def RemovedLast (p : α → Bool) (xs : List α) : Prop := ∀ x ∈ (removeIf p xs).2, p x

instance (p : α → Bool) (xs : List α) : Decidable (RemovedLast p xs) :=
  inferInstanceAs (Decidable (∀ x ∈ (removeIf p xs).2, p x = true))

/-- Only then are the removed elements found behind the new end. -/
theorem removeIf_snd_of_last {p : α → Bool} {xs : List α} (last : RemovedLast p xs) :
    (removeIf p xs).2 = xs.filter p := by
  have behind : (removeIf p xs).2.filter p = (removeIf p xs).2 := List.filter_eq_self.mpr last
  have parts := congrArg (List.filter p) (List.take_append_drop (removeIf p xs).1.length xs)
  have sizes := List.length_eq_length_filter_add (l := xs) p
  rw [List.filter_append] at parts
  change _ ++ (removeIf p xs).2.filter p = _ at parts
  rw [behind] at parts
  have counts := congrArg List.length parts
  have all : (removeIf p xs).2.length = (xs.filter p).length := by
    simp only [removeIf, List.length_drop]
    omega
  rw [List.length_append] at counts
  have front : List.filter p (List.take (removeIf p xs).1.length xs) = [] :=
    List.eq_nil_of_length_eq_zero (by omega)
  rw [← parts, front, List.nil_append]

/-- Where all keys are different, filtering the list of keys by those of some entries
filters the entries themselves. -/
theorem perm_filter_keys {κ β : Type} [DecidableEq κ] {q : List (κ × β)} {keys : List κ}
    (distinct : (q.map Prod.fst).Nodup) (perm : keys.Perm (q.map Prod.fst))
    (p : κ × β → Bool) :
    (keys.filter fun k => decide (k ∉ (q.filter p).map Prod.fst)).Perm
      ((q.filter fun x => !p x).map Prod.fst) := by
  refine (perm.filter _).trans (List.Perm.of_eq ?_)
  rw [List.filter_map]
  congr 1
  apply List.filter_congr
  intro x hx
  have only : x.1 ∈ (q.filter p).map Prod.fst ↔ p x = true := by
    constructor
    · intro there
      obtain ⟨y, hy, same⟩ := List.mem_map.mp there
      have equal : y = x := List.inj_on_of_nodup_map distinct (List.mem_filter.mp hy).1 hx same
      exact equal ▸ (List.mem_filter.mp hy).2
    · exact fun yes => List.mem_map.mpr ⟨x, List.mem_filter.mpr ⟨hx, yes⟩, rfl⟩
  by_cases yes : p x
  · simp only [Function.comp, only, yes]
    rfl
  · simp only [Function.comp, only, yes]
    rfl

/-! ## Equality of lists -/

/-- The `equals` of a list, from that of its elements. -/
def equalLists (equal : α → α → Bool) : List α → List α → Bool
  | [], [] => true
  | x :: xs, y :: ys => equal x y && equalLists equal xs ys
  | _, _ => false

theorem equalLists_self {equal : α → α → Bool} (self : ∀ x, equal x x = true) (xs : List α) :
    equalLists equal xs xs = true := by
  induction xs with
  | nil => rfl
  | cons x xs ih => rw [equalLists, self, ih, Bool.true_and]

/-- A list is as its image when each element is. -/
theorem eq_map_iff {f : α → α} {xs : List α} : xs = xs.map f ↔ ∀ x ∈ xs, f x = x := by
  constructor
  · intro same
    have equal : xs.map f = xs.map id := by rw [← same, List.map_id]
    exact List.map_inj_left.mp equal
  · intro fixed
    exact ((List.map_congr_left fixed).trans (List.map_id' _)).symm

/-- A list is the part of its image that is kept when each element is as its image and kept. -/
theorem filter_map_eq_iff {f : α → α} {p : α → Bool} {xs : List α} :
    (xs.map f).filter p = xs ↔ ∀ x ∈ xs, f x = x ∧ p x = true := by
  constructor
  · intro same
    have all : ∀ y ∈ xs.map f, p y = true := by
      rw [← List.length_filter_eq_length_iff, same, List.length_map]
    rw [List.filter_eq_self.mpr all] at same
    intro x member
    have fixed := eq_map_iff.mp same.symm x member
    refine ⟨fixed, ?_⟩
    rw [← fixed]
    exact all (f x) (List.mem_map_of_mem member)
  · intro each
    have same : xs.map f = xs := (eq_map_iff.mpr fun x member => (each x member).1).symm
    rw [same, List.filter_eq_self]
    exact fun x member => (each x member).2

/-- The first element with `p`, with its position. -/
theorem find?_zipIdx {p : α × Nat → Bool} {xs : List α} {x : α} {i : Nat} :
    xs.zipIdx.find? p = some (x, i) ↔ xs[i]? = some x ∧ p (x, i) = true ∧
      ∀ j < i, ∀ y, xs[j]? = some y → p (y, j) = false := by
  rw [List.find?_eq_some_iff_getElem]
  constructor
  · rintro ⟨holds, k, inside, here, before⟩
    rw [List.getElem_zipIdx, Prod.mk.injEq] at here
    obtain ⟨here, same⟩ := here
    rw [Nat.zero_add] at same
    subst same
    rw [List.length_zipIdx] at inside
    refine ⟨List.getElem?_eq_some_iff.mpr ⟨inside, here⟩, holds, fun j less y there => ?_⟩
    have other := before j less
    obtain ⟨_, there⟩ := List.getElem?_eq_some_iff.mp there
    simpa [there] using other
  · rintro ⟨here, holds, before⟩
    obtain ⟨inside, here⟩ := List.getElem?_eq_some_iff.mp here
    refine ⟨holds, i, by simpa using inside, by simp [here], fun j less => ?_⟩
    simpa using before j less xs[j] (List.getElem?_eq_getElem (Nat.lt_trans less inside))

theorem flatMap_ite {β : Type} {p : α → Prop} [DecidablePred p] {f : α → List β}
    {xs : List α} : (xs.flatMap fun x => if p x then f x else []) = (xs.filter p).flatMap f := by
  induction xs with
  | nil => rfl
  | cons x xs ih =>
    rw [List.flatMap_cons, ih]
    by_cases here : p x
    · rw [if_pos here, List.filter_cons_of_pos (by simpa using here), List.flatMap_cons]
    · rw [if_neg here, List.filter_cons_of_neg (by simpa using here), List.nil_append]

/-! ## Related lists -/

theorem equalLists_iff {equal : α → α → Bool} {xs ys : List α} :
    equalLists equal xs ys = true ↔ List.Forall₂ (fun x y => equal x y = true) xs ys := by
  induction xs generalizing ys with
  | nil =>
    cases ys with
    | nil => simp [equalLists]
    | cons y ys => simp [equalLists]
  | cons x xs ih =>
    cases ys with
    | nil => simp [equalLists]
    | cons y ys => rw [equalLists, Bool.and_eq_true, ih, List.forall₂_cons]

theorem forall₂_congr_mem {β : Type} {R S : α → β → Prop} {xs : List α} {ys : List β}
    (same : ∀ x ∈ xs, ∀ y ∈ ys, R x y ↔ S x y) :
    List.Forall₂ R xs ys ↔ List.Forall₂ S xs ys := by
  induction xs generalizing ys with
  | nil => rw [List.forall₂_nil_left_iff, List.forall₂_nil_left_iff]
  | cons x xs ih =>
    cases ys with
    | nil => rw [List.forall₂_nil_right_iff, List.forall₂_nil_right_iff]
    | cons y ys =>
      have first := same x (List.mem_cons_self ..) y (List.mem_cons_self ..)
      have rest : List.Forall₂ R xs ys ↔ List.Forall₂ S xs ys := ih fun x here y there =>
        same x (List.mem_cons_of_mem _ here) y (List.mem_cons_of_mem _ there)
      rw [List.forall₂_cons, List.forall₂_cons, first, rest]

theorem forall₂_imp_mem {β : Type} {R S : α → β → Prop} {xs : List α} {ys : List β}
    (related : List.Forall₂ R xs ys) (imp : ∀ x ∈ xs, ∀ y ∈ ys, R x y → S x y) :
    List.Forall₂ S xs ys := by
  induction related with
  | nil => exact .nil
  | cons first _ ih =>
    refine .cons (imp _ (List.mem_cons_self ..) _ (List.mem_cons_self ..) first) (ih ?_)
    exact fun x here y there =>
      imp x (List.mem_cons_of_mem _ here) y (List.mem_cons_of_mem _ there)

/-- Each element of a list is related to one, so the list is related to a list. -/
theorem exists_forall₂ {β : Type} {R : α → β → Prop} {xs : List α}
    (each : ∀ x ∈ xs, ∃ y, R x y) : ∃ ys, List.Forall₂ R xs ys := by
  induction xs with
  | nil => exact ⟨[], .nil⟩
  | cons x xs ih =>
    obtain ⟨y, first⟩ := each x (List.mem_cons_self ..)
    obtain ⟨ys, rest⟩ := ih fun x member => each x (List.mem_cons_of_mem _ member)
    exact ⟨y :: ys, .cons first rest⟩

theorem exists_left_of_forall₂ {β : Type} {R : α → β → Prop} {xs : List α} {ys : List β}
    (related : List.Forall₂ R xs ys) {y : β} (member : y ∈ ys) : ∃ x ∈ xs, R x y := by
  induction related with
  | nil => cases member
  | cons first _ ih =>
    rcases List.mem_cons.mp member with rfl | member
    · exact ⟨_, List.mem_cons_self .., first⟩
    · obtain ⟨x, here, there⟩ := ih member
      exact ⟨x, List.mem_cons_of_mem _ here, there⟩

theorem exists_right_of_forall₂ {β : Type} {R : α → β → Prop} {xs : List α} {ys : List β}
    (related : List.Forall₂ R xs ys) {x : α} (member : x ∈ xs) : ∃ y ∈ ys, R x y :=
  exists_left_of_forall₂ (R := fun y x => R x y) related.flip member

theorem forall₂_and {β : Type} {R S : α → β → Prop} {xs : List α} {ys : List β}
    (left : List.Forall₂ R xs ys) (right : List.Forall₂ S xs ys) :
    List.Forall₂ (fun x y => R x y ∧ S x y) xs ys := by
  induction left with
  | nil => exact .nil
  | cons here _ ih =>
    cases right with
    | cons there right => exact .cons ⟨here, there⟩ (ih right)

/-- A relation of each element to those after it, in two related lists. -/
theorem pairwise_iff_of_forall₂ {β : Type} {T : α → β → Prop} {R : α → α → Prop}
    {S : β → β → Prop} {xs : List α} {ys : List β} (related : List.Forall₂ T xs ys)
    (same : ∀ a b x y, T a x → T b y → (R a b ↔ S x y)) : xs.Pairwise R ↔ ys.Pairwise S := by
  induction related with
  | nil => exact iff_of_true .nil .nil
  | @cons a x xs ys first related ih =>
    rw [List.pairwise_cons, List.pairwise_cons, ih]
    apply and_congr_left
    intro _
    constructor
    · intro all y member
      obtain ⟨b, there, second⟩ := exists_left_of_forall₂ related member
      exact (same a b x y first second).mp (all b there)
    · intro all b member
      obtain ⟨y, there, second⟩ := exists_right_of_forall₂ related member
      exact (same a b x y first second).mpr (all y there)

/-- Lists that are related in a chain, and each element with the ends of its own chain. -/
theorem forall₂_chain_iff {β γ : Type} {A : α → β → Prop} {B : β → γ → Prop} {C : α → γ → Prop}
    {xs : List α} :
    (∃ ys zs, List.Forall₂ A xs ys ∧ List.Forall₂ B ys zs ∧ List.Forall₂ C xs zs) ↔
      ∀ x ∈ xs, ∃ y z, A x y ∧ B y z ∧ C x z := by
  induction xs with
  | nil =>
    apply iff_of_true
    · exact ⟨[], [], .nil, .nil, .nil⟩
    · exact fun x member => absurd member List.not_mem_nil
  | cons x xs ih =>
    rw [List.forall_mem_cons, ← ih]
    constructor
    · rintro ⟨ys, zs, first, second, related⟩
      cases first with
      | cons here first =>
        cases second with
        | cons there second =>
          cases related with
          | cons same related =>
            exact ⟨⟨_, _, here, there, same⟩, _, _, first, second, related⟩
    · rintro ⟨⟨y, z, here, there, same⟩, ys, zs, first, second, related⟩
      exact ⟨_, _, .cons here first, .cons there second, .cons same related⟩

theorem forall₂_trans {β γ : Type} {R : α → β → Prop} {S : β → γ → Prop} {T : α → γ → Prop}
    (chain : ∀ x y z, R x y → S y z → T x z) {xs : List α} {ys : List β} {zs : List γ}
    (left : List.Forall₂ R xs ys) (right : List.Forall₂ S ys zs) : List.Forall₂ T xs zs := by
  induction left generalizing zs with
  | nil =>
    cases right
    exact .nil
  | cons here _ ih =>
    cases right with
    | cons there right => exact .cons (chain _ _ _ here there) (ih right)

theorem forall₂_forall {ι β : Type} [Nonempty ι] {R : ι → α → β → Prop} {xs : List α}
    {ys : List β} :
    (∀ i, List.Forall₂ (R i) xs ys) ↔ List.Forall₂ (fun x y => ∀ i, R i x y) xs ys := by
  simp only [List.forall₂_iff_get, forall_and, forall_const]
  constructor
  · rintro ⟨sizes, all⟩
    exact ⟨sizes, fun n here there i => all i n here there⟩
  · rintro ⟨sizes, all⟩
    exact ⟨sizes, fun i n here there => all n here there i⟩

theorem rel_forall {ι β : Type} [Nonempty ι] {R : ι → α → β → Prop} {x : Option α}
    {y : Option β} :
    (∀ i, Option.Rel (R i) x y) ↔ Option.Rel (fun x y => ∀ i, R i x y) x y := by
  constructor
  · intro all
    cases all (Classical.arbitrary ι) with
    | none => exact .none
    | some =>
      apply Option.Rel.some
      intro i
      cases all i with
      | some related => exact related
  · intro related i
    cases related with
    | none => exact .none
    | some related => exact .some (related i)

/-- The first element that is looked for, in two lists of related elements. -/
theorem find?_rel {β : Type} {R : α → β → Prop} {xs : List α} {ys : List β} {p : α → Bool}
    {q : β → Bool} (related : List.Forall₂ R xs ys) (same : ∀ x y, R x y → p x = q y) :
    Option.Rel R (xs.find? p) (ys.find? q) := by
  induction related with
  | nil => exact .none
  | @cons x y xs ys first _ ih =>
    rw [List.find?_cons, List.find?_cons, same x y first]
    cases q y with
    | true => exact .some first
    | false => exact ih

/-- An element that is not looked for can be left out. -/
theorem find?_erase [DecidableEq α] {xs : List α} {x : α} {p : α → Bool} (other : p x = false) :
    (xs.erase x).find? p = xs.find? p := by
  induction xs with
  | nil => rfl
  | cons y xs ih =>
    by_cases same : y = x
    · subst same
      simp [other]
    · rw [List.erase_cons_tail (by simpa using same), List.find?_cons, List.find?_cons, ih]

/-- The elements of a list, each with those before it. -/
theorem forall_initial_cons {P : List α → α → Prop} {x : α} {xs : List α} :
    (∀ front y, front ++ [y] <+: x :: xs → P front y) ↔
      P [] x ∧ ∀ front y, front ++ [y] <+: xs → P (x :: front) y := by
  constructor
  · intro all
    exact ⟨all [] x (List.cons_prefix_cons.mpr ⟨rfl, List.nil_prefix⟩), fun front y initial =>
      all (x :: front) y (List.cons_prefix_cons.mpr ⟨rfl, initial⟩)⟩
  · rintro ⟨first, later⟩ front y initial
    cases front with
    | nil =>
      obtain ⟨rfl, _⟩ := List.cons_prefix_cons.mp initial
      exact first
    | cons z front =>
      obtain ⟨rfl, initial'⟩ := List.cons_prefix_cons.mp initial
      exact later front y initial'

theorem forall_initial_nil {P : List α → α → Prop} :
    ∀ front y, front ++ [y] <+: [] → P front y := by
  intro front y initial
  simp at initial

/-! ## Elements after others -/

/-- Each element stands in the relation to those before it. The first list is before them all. -/
def EachAfter (R : List α → α → Prop) : List α → List α → Prop
  | _, [] => True
  | front, x :: xs => R front x ∧ EachAfter R (front ++ [x]) xs

section EachAfter

variable {R S : List α → α → Prop} {front xs ys : List α} {x : α}

theorem eachAfter_append :
    EachAfter R front (xs ++ ys) ↔ EachAfter R front xs ∧ EachAfter R (front ++ xs) ys := by
  induction xs generalizing front with
  | nil => simp [EachAfter]
  | cons x xs ih => simp [EachAfter, ih, and_assoc]

theorem EachAfter.imp (each : EachAfter R front xs) (weaker : ∀ front x, R front x → S front x) :
    EachAfter S front xs := by
  induction xs generalizing front with
  | nil => trivial
  | cons x xs ih => exact ⟨weaker _ _ each.1, ih each.2⟩

theorem EachAfter.and (left : EachAfter R front xs) (right : EachAfter S front xs) :
    EachAfter (fun front x => R front x ∧ S front x) front xs := by
  induction xs generalizing front with
  | nil => trivial
  | cons x xs ih => exact ⟨⟨left.1, right.1⟩, ih left.2 right.2⟩

theorem EachAfter.of_mem (each : EachAfter R front xs) (member : x ∈ xs) : ∃ front, R front x := by
  induction xs generalizing front with
  | nil => cases member
  | cons z xs ih =>
    rcases List.mem_cons.mp member with rfl | member
    · exact ⟨front, each.1⟩
    · exact ih each.2 member

theorem eachAfter_of_forall {P : α → Prop} (all : ∀ x ∈ xs, P x) :
    EachAfter (fun _ x => P x) front xs := by
  induction xs generalizing front with
  | nil => trivial
  | cons x xs ih =>
    exact ⟨all x (List.mem_cons_self ..), ih fun y member => all y (List.mem_cons_of_mem x member)⟩

/-- What the relation tells of an element is known of those before it. -/
theorem EachAfter.and_front {P : α → Prop} (each : EachAfter R front xs)
    (tells : ∀ front x, R front x → P x) (before : ∀ y ∈ front, P y) :
    EachAfter (fun front x => (∀ y ∈ front, P y) ∧ R front x) front xs := by
  induction xs generalizing front with
  | nil => trivial
  | cons x xs ih =>
    refine ⟨⟨before, each.1⟩, ih each.2 fun y member => ?_⟩
    rcases List.mem_append.mp member with member | member
    · exact before y member
    · rw [List.mem_singleton.mp member]
      exact tells front x each.1

/-- An element may be shown to stand in the relation when those before it do. -/
theorem eachAfter_of_step (step : ∀ front x back, xs = front ++ x :: back →
    EachAfter R [] front → R front x) : EachAfter R [] xs := by
  have go (back front : List α) (split : xs = front ++ back) (before : EachAfter R [] front) :
      EachAfter R front back := by
    induction back generalizing front with
    | nil => trivial
    | cons x back ih =>
      have here := step front x back split before
      refine ⟨here, ih (front ++ [x]) (by simp [split]) (eachAfter_append.mpr ⟨before, ?_⟩)⟩
      exact ⟨here, trivial⟩
  exact go xs [] rfl trivial

end EachAfter

section Guards

variable {β : Type} {p : α → Prop} [DecidablePred p] {xs : List α}

/-- A fold whose steps are defined for some elements only. -/
theorem foldlM_guard {f : β → α → Option β} {g : β → α → β}
    (steps : ∀ acc x, f acc x = if p x then some (g acc x) else none) (acc : β) :
    xs.foldlM f acc = if ∀ x ∈ xs, p x then some (xs.foldl g acc) else none := by
  induction xs generalizing acc with
  | nil => simp
  | cons x xs ih =>
    rw [List.foldlM_cons, steps]
    by_cases here : p x
    · rw [if_pos here, Option.bind_eq_bind, Option.bind_some, ih]
      simp only [List.forall_mem_cons, here, true_and, List.foldl_cons]
    · simp [here]

/-- The same of a map. -/
theorem mapM_guard {f : α → Option β} {g : α → β}
    (each : ∀ x ∈ xs, f x = if p x then some (g x) else none) :
    xs.mapM f = if ∀ x ∈ xs, p x then some (xs.map g) else none := by
  induction xs with
  | nil => simp
  | cons x xs ih =>
    rw [List.forall_mem_cons] at each
    rw [List.mapM_cons, each.1, ih each.2]
    by_cases here : p x
    · by_cases later : ∀ y ∈ xs, p y
      · rw [if_pos here, if_pos later, if_pos (List.forall_mem_cons.mpr ⟨here, later⟩)]
        rfl
      · have failed : ¬ ∀ y ∈ x :: xs, p y := fun all => later (List.forall_mem_cons.mp all).2
        rw [if_pos here, if_neg later, if_neg failed]
        rfl
    · have failed : ¬ ∀ y ∈ x :: xs, p y := fun all => here (List.forall_mem_cons.mp all).1
      rw [if_neg here, if_neg failed]
      rfl

end Guards

end VRJuggler
