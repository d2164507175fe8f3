import Mathlib.Data.List.Basic

/-!
# What a queue still decides

Two kinds of items, `p` and `q`, undo each other: the last item of either kind decides.
Items may be taken from anywhere in the queue. `Owed` says that in the end the decision is
for `p`, where `done` says that it is so already.
-/
namespace VRJuggler

variable {α : Type} {p q : α → Prop} {done done' : Prop} {xs ys zs : List α}

/-- An item with `p` stands there, and none with `q` behind it. -/
def Unanswered (p q : α → Prop) : List α → Prop
  | [] => False
  | x :: xs => Unanswered p q xs ∨ (p x ∧ ∀ y ∈ xs, ¬ q y)

instance decidableUnanswered [DecidablePred p] [DecidablePred q] :
    ∀ xs : List α, Decidable (Unanswered p q xs)
  | [] => isFalse id
  | x :: xs =>
    have := decidableUnanswered xs
    inferInstanceAs (Decidable (Unanswered p q xs ∨ (p x ∧ ∀ y ∈ xs, ¬ q y)))

def Owed (p q : α → Prop) (done : Prop) (xs : List α) : Prop :=
  Unanswered p q xs ∨ (done ∧ ∀ x ∈ xs, ¬ q x)

theorem unanswered_append :
    Unanswered p q (xs ++ ys) ↔ Unanswered p q ys ∨ (Unanswered p q xs ∧ ∀ y ∈ ys, ¬ q y) := by
  induction xs with
  | nil => simp [Unanswered]
  | cons x xs ih =>
    simp only [List.cons_append, Unanswered, ih, List.mem_append]
    constructor
    · rintro ((behind | ⟨before, none⟩) | ⟨here, none⟩)
      · exact Or.inl behind
      · exact Or.inr ⟨Or.inl before, none⟩
      · exact Or.inr ⟨Or.inr ⟨here, fun y member => none y (Or.inl member)⟩,
          fun y member => none y (Or.inr member)⟩
    · rintro (behind | ⟨before | ⟨here, first⟩, none⟩)
      · exact Or.inl (Or.inl behind)
      · exact Or.inl (Or.inr ⟨before, none⟩)
      · exact Or.inr ⟨here, fun y member => member.elim (first y) (none y)⟩

theorem exists_of_unanswered (unanswered : Unanswered p q xs) : ∃ x ∈ xs, p x := by
  induction xs with
  | nil => exact unanswered.elim
  | cons x xs ih =>
    rcases unanswered with later | ⟨here, -⟩
    · obtain ⟨y, member, holds⟩ := ih later
      exact ⟨y, List.mem_cons_of_mem _ member, holds⟩
    · exact ⟨x, List.mem_cons_self .., here⟩

theorem unanswered_of_mem {x : α} (member : x ∈ xs) (holds : p x) (none : ∀ y ∈ xs, ¬ q y) :
    Unanswered p q xs := by
  induction xs with
  | nil => cases member
  | cons y xs ih =>
    have later : ∀ z ∈ xs, ¬ q z := fun z there => none z (List.mem_cons_of_mem _ there)
    rcases List.mem_cons.mp member with rfl | there
    · exact Or.inr ⟨holds, later⟩
    · exact Or.inl (ih there later)

theorem Unanswered.mono {p' q' : α → Prop} (unanswered : Unanswered p q xs)
    (more : ∀ x, p x → p' x) (fewer : ∀ x, q' x → q x) : Unanswered p' q' xs := by
  induction xs with
  | nil => exact unanswered
  | cons x xs ih =>
    rcases unanswered with later | ⟨here, none⟩
    · exact Or.inl (ih later)
    · exact Or.inr ⟨more x here, fun y member again => none y member (fewer y again)⟩

variable (p q ys) in
/-- An item is decided for, or answered behind. -/
theorem unanswered_or_answered {x : α} (holds : p x) :
    Unanswered p q (x :: ys) ∨ ∃ y ∈ ys, q y := by
  by_cases answered : ∃ y ∈ ys, q y
  · exact Or.inr answered
  · exact Or.inl (Or.inr ⟨holds, fun y member again => answered ⟨y, member, again⟩⟩)

theorem owed_append :
    Owed p q done (xs ++ ys) ↔ Unanswered p q ys ∨ (Owed p q done xs ∧ ∀ y ∈ ys, ¬ q y) := by
  simp only [Owed, unanswered_append, List.mem_append, or_imp, forall_and]
  constructor
  · rintro ((behind | ⟨before, none⟩) | ⟨was, first, none⟩)
    · exact Or.inl behind
    · exact Or.inr ⟨Or.inl before, none⟩
    · exact Or.inr ⟨Or.inr ⟨was, first⟩, none⟩
  · rintro (behind | ⟨before | ⟨was, first⟩, none⟩)
    · exact Or.inl (Or.inl behind)
    · exact Or.inl (Or.inr ⟨before, none⟩)
    · exact Or.inr ⟨was, first, none⟩

/-- More items come. -/
theorem Owed.append_of_owed {before : Prop} {made : List α}
    (owed : Owed p q before made → Owed p q done xs) (all : Owed p q before (made ++ ys)) :
    Owed p q done (xs ++ ys) := by
  rcases owed_append.mp all with behind | ⟨first, none⟩
  · exact owed_append.mpr (Or.inl behind)
  · exact owed_append.mpr (Or.inr ⟨owed first, none⟩)

/-- An item is taken: one with `p` overtakes none with `q`, and after it `p` has its way. -/
theorem Owed.take {x : α} (owed : Owed p q done (xs ++ x :: ys))
    (takes : p x → (∀ y ∈ xs, ¬ q y) ∧ done') (keeps : ¬ q x → done → done') :
    Owed p q done' (xs ++ ys) := by
  rcases owed_append.mp owed with (behind | ⟨here, none⟩) | ⟨before | ⟨was, first⟩, none⟩
  · exact owed_append.mpr (Or.inl behind)
  · obtain ⟨first, now⟩ := takes here
    exact owed_append.mpr (Or.inr ⟨Or.inr ⟨now, first⟩, none⟩)
  · exact owed_append.mpr
      (Or.inr ⟨Or.inl before, fun y member => none y (List.mem_cons_of_mem _ member)⟩)
  · refine owed_append.mpr (Or.inr ⟨Or.inr ⟨keeps (none x (List.mem_cons_self ..)) was, first⟩, ?_⟩)
    exact fun y member => none y (List.mem_cons_of_mem _ member)

/-- Items are put in between: none with `q`, or some that decide as it was. -/
theorem Owed.insert (owed : Owed p q done (xs ++ ys))
    (same : (∀ z ∈ zs, ¬ q z) ∨ (∀ x ∈ xs, ¬ p x) ∧ (done → Unanswered p q zs)) :
    Owed p q done (xs ++ zs ++ ys) := by
  rcases owed_append.mp owed with behind | ⟨before, none⟩
  · exact owed_append.mpr (Or.inl behind)
  · refine owed_append.mpr (Or.inr ⟨owed_append.mpr ?_, none⟩)
    rcases same with neutral | ⟨absent, decides⟩
    · exact Or.inr ⟨before, neutral⟩
    · rcases before with waits | ⟨was, -⟩
      · obtain ⟨x, member, holds⟩ := exists_of_unanswered waits
        exact absurd holds (absent x member)
      · exact Or.inl (decides was)

end VRJuggler
