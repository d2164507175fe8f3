import Mathlib.Algebra.BigOperators.Group.Finset.Basic
import Mathlib.Algebra.BigOperators.Group.List.Basic
import Mathlib.Algebra.GroupWithZero.Nat
import Mathlib.Algebra.Order.BigOperators.Group.List
import Mathlib.Algebra.Order.Ring.Nat
import Mathlib.Data.List.Count

/-!
# Sums over lists and families

Sums of numbers that go with the elements of a list, in either order, and when two such sums are
equal; and sums over a finite family of which one member changes.
-/
namespace VRJuggler

variable {α β : Type} {xs : List α} {ys : List β}

theorem sum_comm (f : α → β → Nat) : (xs.map fun x => (ys.map fun y => f x y).sum).sum =
    (ys.map fun y => (xs.map fun x => f x y).sum).sum := by
  induction xs with
  | nil => exact List.sum_map_zero.symm
  | cons x xs ih =>
    rw [List.map_cons, List.sum_cons, ih, ← List.sum_map_add]
    rfl

/-- The sum of what is the same for all elements with `p`. -/
theorem sum_map_ite_const (p : α → Prop) [DecidablePred p] (n : Nat) :
    (xs.map fun x => if p x then n else 0).sum = xs.countP p * n := by
  rw [List.sum_map_ite, List.sum_map_zero, Nat.add_zero, List.map_const', List.sum_replicate,
    Nat.nsmul_eq_mul, List.countP_eq_length_filter]

/-- Sums of numbers that are not less are equal only if all numbers are. -/
theorem sum_map_eq_iff {f g : α → Nat} (below : ∀ x ∈ xs, g x ≤ f x) :
    (xs.map f).sum = (xs.map g).sum ↔ ∀ x ∈ xs, f x = g x := by
  induction xs with
  | nil => simp
  | cons x xs ih =>
    rw [List.forall_mem_cons] at below ⊢
    rw [← ih below.2, List.map_cons, List.map_cons, List.sum_cons, List.sum_cons]
    have rest : (xs.map g).sum ≤ (xs.map f).sum := List.sum_le_sum below.2
    have first := below.1
    omega

/-- Two families with weights, the second with a lesser weight and lesser numbers. With their
weights they are equal if the weights are, unless all is zero, and the numbers too. -/
theorem forall_mul_eq_iff {ι : Type} {m n : Nat} {f g : ι → Nat} (less : n ≤ m)
    (below : 0 < m → ∀ i, g i ≤ f i) : (∀ i, m * f i = n * g i) ↔
      ((∃ i, 0 < f i) → m = n) ∧ (0 < n → ∀ i, f i = g i) := by
  constructor
  · intro equal
    have weights : (∃ i, 0 < f i) → m = n := by
      rintro ⟨i, positive⟩
      rcases Nat.eq_zero_or_pos m with none' | some'
      · omega
      · have bound : m * f i ≤ n * f i := by
          rw [equal i]
          exact Nat.mul_le_mul_left n (below some' i)
        exact Nat.le_antisymm (Nat.le_of_mul_le_mul_right bound positive) less
    refine ⟨weights, fun some' i => ?_⟩
    have lower := below (Nat.lt_of_lt_of_le some' less) i
    rcases Nat.eq_zero_or_pos (f i) with zero | positive
    · omega
    · have here := equal i
      rw [weights ⟨i, positive⟩] at here
      exact Nat.eq_of_mul_eq_mul_left some' here
  · rintro ⟨weights, numbers⟩ i
    rcases Nat.eq_zero_or_pos n with none' | some'
    · rcases Nat.eq_zero_or_pos (f i) with zero | positive
      · rw [none', zero, Nat.zero_mul, Nat.mul_zero]
      · rw [weights ⟨i, positive⟩, none', Nat.zero_mul, Nat.zero_mul]
    · rw [numbers some' i]
      rcases Nat.eq_zero_or_pos (g i) with zero | positive
      · rw [zero, Nat.mul_zero, Nat.mul_zero]
      · rw [weights ⟨i, by rw [numbers some' i]; exact positive⟩]

section Families

variable {ι τ M : Type} [Fintype ι] [DecidableEq ι] [AddCommMonoid M] {g : ι → τ → M}

/-- Only the part of the member that changes is another one. -/
theorem sum_update_add (f : ι → τ) (i : ι) (x : τ) (g : ι → τ → M) :
    ∑ j, g j (Function.update f i x j) + g i (f i) = ∑ j, g j (f j) + g i x := by
  have others : ∑ j ∈ Finset.univ.erase i, g j (Function.update f i x j) =
      ∑ j ∈ Finset.univ.erase i, g j (f j) := by
    refine Finset.sum_congr rfl fun j member => ?_
    rw [Function.update_of_ne (Finset.ne_of_mem_erase member)]
  rw [← Finset.add_sum_erase _ _ (Finset.mem_univ i),
    ← Finset.add_sum_erase _ (fun j => g j (f j)) (Finset.mem_univ i), others,
    Function.update_self, add_right_comm, add_comm (g i x), add_right_comm]

/-- The sum stays when the part does. -/
theorem sum_update_of_eq {f : ι → τ} {i : ι} {x : τ} (same : g i x = g i (f i)) :
    ∑ j, g j (Function.update f i x j) = ∑ j, g j (f j) := by
  refine Finset.sum_congr rfl fun j _ => ?_
  by_cases here : j = i
  · subst here
    rw [Function.update_self, same]
  · rw [Function.update_of_ne here]

end Families

end VRJuggler
