import VRJuggler.Base.SortedMap

/-!
# Relations that may not be transitive

A relation that is reflexive and symmetric need not be transitive where something is related to
more than what is the same. What can be said is through which things it is transitive. Lists are
compared element by element, and maps key by key.
-/
namespace VRJuggler

variable {α : Type} {R S : α → α → Prop} {b : α} {bs : List α}

/-- What is related to `b` from both sides is related. -/
def Through (R : α → α → Prop) (b : α) : Prop := ∀ a c, R a b → R b c → R a c

/-- The relation that a comparison decides. -/
abbrev Decides (equals : α → α → Bool) (a b : α) : Prop := equals a b = true

/-- What `b` is related to by one relation, it is related to by the other. -/
def Tells (R S : α → α → Prop) (b : α) : Prop := ∀ c, R b c → S b c

/-! ## Parts -/

/-- What is compared by a key and a part is compared through its part. -/
theorem through_part {γ ψ : Type} {Q : ψ → ψ → Prop} (key : α → γ) (part : α → ψ) (set : ψ → α)
    (both : ∀ a c, R a c ↔ key a = key c ∧ Q (part a) (part c)) (keeps : ∀ x, key (set x) = key b)
    (sets : ∀ x, part (set x) = x) : Through R b ↔ Through Q (part b) := by
  constructor
  · intro through x y left right
    have before : R (set x) b := (both _ _).mpr ⟨keeps x, by rwa [sets]⟩
    have after : R b (set y) := (both _ _).mpr ⟨(keeps y).symm, by rwa [sets]⟩
    have all := ((both _ _).mp (through _ _ before after)).2
    rwa [sets, sets] at all
  · intro through a c left right
    obtain ⟨key_a, part_a⟩ := (both a b).mp left
    obtain ⟨key_c, part_c⟩ := (both b c).mp right
    exact (both a c).mpr ⟨key_a.trans key_c, through _ _ part_a part_c⟩

theorem through_prod {φ ψ : Type} {P : φ → φ → Prop} {Q : ψ → ψ → Prop} {x : φ} {y : ψ}
    (first : P x x) (second : Q y y) :
    Through (fun p q : φ × ψ => P p.1 q.1 ∧ Q p.2 q.2) (x, y) ↔ Through P x ∧ Through Q y := by
  constructor
  · intro through
    constructor
    · intro a c left right
      exact (through (a, y) (c, y) ⟨left, second⟩ ⟨right, second⟩).1
    · intro a c left right
      exact (through (x, a) (x, c) ⟨first, left⟩ ⟨first, right⟩).2
  · rintro ⟨left, right⟩ a c before after
    exact ⟨left _ _ before.1 after.1, right _ _ before.2 after.2⟩

/-! ## Lists -/

theorem forall₂_refl (refl : ∀ b ∈ bs, R b b) : List.Forall₂ R bs bs :=
  List.forall₂_same.mpr refl

theorem through_cons (first : R b b) (rest : ∀ b ∈ bs, R b b) :
    Through (List.Forall₂ R) (b :: bs) ↔ Through R b ∧ Through (List.Forall₂ R) bs := by
  constructor
  · intro through
    refine ⟨fun a c left right => ?_, fun as cs left right => ?_⟩
    · -- the rest is related to itself
      have same := forall₂_refl rest
      have all := through (a :: bs) (c :: bs) (.cons left same) (.cons right same)
      exact (List.forall₂_cons.mp all).1
    · have all := through (b :: as) (b :: cs) (.cons first left) (.cons first right)
      exact (List.forall₂_cons.mp all).2
  · rintro ⟨head, tail⟩ as cs left right
    cases left with
    | cons left lefts =>
      cases right with
      | cons right rights => exact .cons (head _ _ left right) (tail _ _ lefts rights)

/-- A list is compared through each of its elements. -/
theorem through_forall₂ (refl : ∀ b ∈ bs, R b b) :
    Through (List.Forall₂ R) bs ↔ ∀ b ∈ bs, Through R b := by
  induction bs with
  | nil =>
    refine iff_of_true (fun as cs left right => ?_) (by simp)
    rw [List.forall₂_nil_right_iff.mp left, List.forall₂_nil_left_iff.mp right]
    exact .nil
  | cons b bs ih =>
    have rest : ∀ b ∈ bs, R b b := fun d member => refl d (List.mem_cons_of_mem b member)
    rw [through_cons (refl b (List.mem_cons_self ..)) rest, ih rest, List.forall_mem_cons]

theorem tells_cons (first : R b b) (rest : ∀ b ∈ bs, R b b) :
    Tells (List.Forall₂ R) (List.Forall₂ S) (b :: bs) ↔
      Tells R S b ∧ Tells (List.Forall₂ R) (List.Forall₂ S) bs := by
  constructor
  · intro tells
    refine ⟨fun c right => ?_, fun cs right => ?_⟩
    · exact (List.forall₂_cons.mp (tells (c :: bs) (.cons right (forall₂_refl rest)))).1
    · exact (List.forall₂_cons.mp (tells (b :: cs) (.cons first right))).2
  · rintro ⟨head, tail⟩ cs right
    cases right with
    | cons right rights => exact .cons (head _ right) (tail _ rights)

theorem tells_forall₂ (refl : ∀ b ∈ bs, R b b) :
    Tells (List.Forall₂ R) (List.Forall₂ S) bs ↔ ∀ b ∈ bs, Tells R S b := by
  induction bs with
  | nil =>
    refine iff_of_true (fun cs right => ?_) (by simp)
    rw [List.forall₂_nil_left_iff.mp right]
    exact .nil
  | cons b bs ih =>
    have rest : ∀ b ∈ bs, R b b := fun d member => refl d (List.mem_cons_of_mem b member)
    rw [tells_cons (refl b (List.mem_cons_self ..)) rest, ih rest, List.forall_mem_cons]

/-! ## Maps -/

variable {κ ν : Type} [LinearOrder κ] {l m : List (κ × ν)} {k : κ} {v : ν}

/-- The two maps have the same keys, with related values. -/
def Related (R : ν → ν → Prop) (l m : List (κ × ν)) : Prop :=
  ∀ k, Option.Rel R (l.lookup k) (m.lookup k)

/-- Related maps, in which no key is there twice. -/
structure Matched (R : ν → ν → Prop) (l m : List (κ × ν)) : Prop where
  left : (l.map Prod.fst).Nodup
  right : (m.map Prod.fst).Nodup
  related : Related R l m

/-- The map with another value for the key. -/
def replaced (l : List (κ × ν)) (k : κ) (v : ν) : List (κ × ν) :=
  l.map fun p => (p.1, if p.1 = k then v else p.2)

theorem keys_replaced : (replaced l k v).map Prod.fst = l.map Prod.fst := by
  simp [replaced, Function.comp_def]

theorem lookup_replaced (j : κ) :
    (replaced l k v).lookup j = (l.lookup j).map fun w => if j = k then v else w := by
  induction l with
  | nil => rfl
  | cons p rest ih =>
    obtain ⟨i, w⟩ := p
    by_cases here : j = i
    · subst here
      simp [replaced]
    · simp only [replaced, List.map_cons] at ih ⊢
      rw [List.lookup_cons, List.lookup_cons, beq_eq_false_iff_ne.mpr here]
      exact ih

section

variable {R S : ν → ν → Prop}

theorem Related.lookup {w : ν} (related : Related R l m) (here : l.lookup k = some v)
    (there : m.lookup k = some w) : R v w := by
  have both := related k
  rw [here, there] at both
  cases both with
  | some both => exact both

theorem Related.exists_of_mem (related : Related R l m) (distinct : (l.map Prod.fst).Nodup)
    {p : κ × ν} (member : p ∈ l) : ∃ w, m.lookup p.1 = some w ∧ R p.2 w := by
  have both := related p.1
  rw [lookup_eq_some_of_mem distinct member] at both
  generalize m.lookup p.1 = found at both
  cases both with
  | some both => exact ⟨_, rfl, both⟩

theorem related_symm (symm : ∀ v w, R v w → S w v) (related : Related R l m) :
    Related S m l := by
  intro k
  have both := related k
  generalize l.lookup k = left, m.lookup k = right at both
  cases both with
  | none => exact .none
  | some both => exact .some (symm _ _ both)

/-- A value is related to the one in its place, and the others to themselves. -/
theorem related_replaced (distinct : (l.map Prod.fst).Nodup) (refl : ∀ p ∈ l, R p.2 p.2)
    {p : κ × ν} (member : p ∈ l) (there : R p.2 v) : Related R l (replaced l p.1 v) := by
  intro j
  rw [lookup_replaced]
  cases here : l.lookup j with
  | none => exact .none
  | some w =>
    apply Option.Rel.some
    by_cases same : j = p.1
    · -- this is the value that was replaced
      subst same
      rw [lookup_eq_some_of_mem distinct member] at here
      cases here
      simpa using there
    · simpa [same] using refl (j, w) (mem_of_lookup here)

theorem matched_replaced (distinct : (l.map Prod.fst).Nodup) (refl : ∀ p ∈ l, R p.2 p.2)
    {p : κ × ν} (member : p ∈ l) (there : R p.2 v) : Matched R l (replaced l p.1 v) where
  left := distinct
  right := by rw [keys_replaced]; exact distinct
  related := related_replaced distinct refl member there

theorem lookup_replaced_self (distinct : (l.map Prod.fst).Nodup) {p : κ × ν} (member : p ∈ l) :
    (replaced l p.1 v).lookup p.1 = some v := by
  rw [lookup_replaced, lookup_eq_some_of_mem distinct member, Option.map_some, if_pos rfl]

/-- Maps are compared through each of their values. -/
theorem through_matched (distinct : (l.map Prod.fst).Nodup) (refl : ∀ p ∈ l, R p.2 p.2) :
    Through (Matched R) l ↔ ∀ p ∈ l, Through R p.2 := by
  constructor
  · intro through p member v w left right
    have before : Matched R (replaced l p.1 v) l := by
      have back := matched_replaced (R := fun x y => R y x) distinct refl member left
      exact ⟨back.right, back.left, related_symm (fun _ _ here => here) back.related⟩
    have all := through _ _ before (matched_replaced distinct refl member right)
    exact all.related.lookup (lookup_replaced_self distinct member)
      (lookup_replaced_self distinct member)
  · intro each before after left right
    refine ⟨left.left, right.right, fun k => ?_⟩
    have first := left.related k
    have second := right.related k
    cases here : l.lookup k with
    | none =>
      rw [here] at first second
      generalize before.lookup k = x, after.lookup k = y at first second
      cases first
      cases second
      exact .none
    | some v =>
      rw [here] at first second
      generalize before.lookup k = x, after.lookup k = y at first second
      cases first with
      | some first =>
        cases second with
        | some second => exact .some (each (k, v) (mem_of_lookup here) _ _ first second)

theorem tells_matched (distinct : (l.map Prod.fst).Nodup) (refl : ∀ p ∈ l, R p.2 p.2) :
    Tells (Matched R) (Related S) l ↔ ∀ p ∈ l, Tells R S p.2 := by
  constructor
  · intro tells p member w right
    have all := tells _ (matched_replaced distinct refl member right)
    exact all.lookup (lookup_eq_some_of_mem distinct member)
      (lookup_replaced_self distinct member)
  · intro each after right k
    have here := right.related k
    cases found : l.lookup k with
    | none =>
      rw [found] at here
      generalize after.lookup k = y at here
      cases here
      exact .none
    | some v =>
      rw [found] at here
      generalize after.lookup k = y at here
      cases here with
      | some here => exact .some (each (k, v) (mem_of_lookup found) _ here)

end

end VRJuggler
