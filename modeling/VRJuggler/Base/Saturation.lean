import Mathlib.Order.Bounds.Basic
import Mathlib.Data.Set.Insert

/-!
# Saturation

Items wait until they are ready, which depends on the items accepted before them. A worklist
takes any item that is ready, accepts it where it is of use and drops it otherwise, and new items
can come at any time. When no item that waits is ready, the accepted items are the least set that
is closed, whatever the order was.
-/
namespace VRJuggler.Saturation

variable {α : Type} (Ready : Set α → α → Prop) (Useful : α → Prop)

/-- Every useful item that is ready is there, and so are the first ones. -/
def Closed (first items S : Set α) : Prop :=
  first ⊆ S ∧ ∀ b ∈ items, Useful b → Ready S b → b ∈ S

/-- What a worklist has reached: an item waits no longer when it was ready. -/
structure Reached (first items : Set α) (pending : List α) (S : Set α) : Prop where
  first_subset : first ⊆ S
  least : ∀ T, Closed Ready Useful first items T → S ⊆ T
  pending_subset : ∀ b ∈ pending, b ∈ items
  handled : ∀ b ∈ items, b ∉ pending → Ready S b ∧ (Useful b → b ∈ S)

namespace Reached

variable {Ready Useful} {first items S T : Set α} {pending new : List α} {b : α}

theorem start : Reached Ready Useful first ∅ [] first where
  first_subset := subset_rfl
  least := fun _ closed => closed.1
  pending_subset := by simp
  handled := by simp

theorem subset_items (reached : Reached Ready Useful first items pending S) : S ⊆ first ∪ items :=
  reached.least _ ⟨Set.subset_union_left, fun _ member _ _ => Or.inr member⟩

variable (new) in
theorem add (reached : Reached Ready Useful first items pending S) :
    Reached Ready Useful first (items ∪ {b | b ∈ new}) (pending ++ new) S where
  first_subset := reached.first_subset
  least := by
    intro T closed
    exact reached.least T ⟨closed.1, fun b member => closed.2 b (Or.inl member)⟩
  pending_subset := by
    intro b member
    rcases List.mem_append.mp member with old | new
    · exact Or.inl (reached.pending_subset b old)
    · exact Or.inr new
  handled := by
    intro b member gone
    simp only [List.mem_append, not_or] at gone
    rcases member with old | new
    · exact reached.handled b old gone.1
    · exact absurd new gone.2

variable [DecidableEq α]

theorem mem_erase_of_mem {c : α} (gone : c ∉ pending.erase b) : c = b ∨ c ∉ pending := by
  by_cases same : c = b
  · exact .inl same
  · right
    rwa [List.mem_erase_of_ne same] at gone

theorem accept (mono : ∀ {S T : Set α} {b : α}, S ⊆ T → Ready S b → Ready T b)
    (reached : Reached Ready Useful first items pending S) (member : b ∈ pending)
    (ready : Ready S b) (useful : Useful b) :
    Reached Ready Useful first items (pending.erase b) (insert b S) where
  first_subset := reached.first_subset.trans (Set.subset_insert b S)
  least := by
    intro T closed
    have below := reached.least T closed
    have here : b ∈ T :=
      closed.2 b (reached.pending_subset b member) useful (mono below ready)
    exact Set.insert_subset here below
  pending_subset := fun c there => reached.pending_subset c (List.mem_of_mem_erase there)
  handled := by
    intro c there gone
    have more := Set.subset_insert b S
    rcases mem_erase_of_mem gone with rfl | gone
    · exact ⟨mono more ready, fun _ => Set.mem_insert c S⟩
    · obtain ⟨was, useful_c⟩ := reached.handled c there gone
      exact ⟨mono more was, fun useful => more (useful_c useful)⟩

theorem drop (reached : Reached Ready Useful first items pending S) (ready : Ready S b)
    (useless : ¬ Useful b) : Reached Ready Useful first items (pending.erase b) S where
  first_subset := reached.first_subset
  least := reached.least
  pending_subset := fun c there => reached.pending_subset c (List.mem_of_mem_erase there)
  handled := by
    intro c there gone
    rcases mem_erase_of_mem gone with rfl | gone
    · exact ⟨ready, fun useful => absurd useful useless⟩
    · exact reached.handled c there gone

omit [DecidableEq α] in
/-- At the end an item waits exactly when it is not ready. -/
theorem mem_pending_iff (reached : Reached Ready Useful first items pending S)
    (stuck : ∀ b ∈ pending, ¬ Ready S b) : b ∈ pending ↔ b ∈ items ∧ ¬ Ready S b := by
  constructor
  · intro member
    exact ⟨reached.pending_subset b member, stuck b member⟩
  · rintro ⟨member, unready⟩
    by_contra gone
    exact unready (reached.handled b member gone).1

omit [DecidableEq α] in
theorem isLeast (reached : Reached Ready Useful first items pending S)
    (stuck : ∀ b ∈ pending, ¬ Ready S b) : IsLeast {T | Closed Ready Useful first items T} S := by
  refine ⟨⟨reached.first_subset, fun b member useful ready => ?_⟩, fun T => reached.least T⟩
  have gone : b ∉ pending := fun waits => stuck b waits ready
  exact (reached.handled b member gone).2 useful

end Reached

end VRJuggler.Saturation
