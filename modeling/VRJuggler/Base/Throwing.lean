import VRJuggler.Base.Hierarchy
import VRJuggler.Base.Lists

/-!
# Calls that may throw

A call returns a value or throws, if the stack is deep enough for it. Each rule tells what a
composed call does from what its parts do.
-/
namespace VRJuggler

variable {ε α β : Type}

/-- `none`: the stack is exhausted. -/
abbrev Throwing (ε α : Type) := ExceptT ε Option α

namespace Throwing

/-- The exception is replaced by another one. -/
def rethrow (f : ε → ε) (x : Throwing ε α) : Throwing ε α :=
  ExceptT.mk (x.run.map (Except.mapError f))

/-- A value that may be missing. -/
def orThrow (e : ε) : Option α → Throwing ε α
  | some a => pure a
  | none => throw e

@[simp] theorem orThrow_some (e : ε) (a : α) : orThrow e (some a) = pure a := rfl

/-! ## One call -/

theorem mk_ok_bind (a : α) (f : α → Throwing ε β) :
    (ExceptT.mk (some (.ok a)) : Throwing ε α) >>= f = f a := rfl

theorem bind_eq_ok {x : Throwing ε α} {f : α → Throwing ε β} {b : β} :
    x >>= f = some (.ok b) ↔ ∃ a, x = some (.ok a) ∧ f a = some (.ok b) := by
  constructor
  · intro ok
    match x, ok with
    | some (.ok a), ok => exact ⟨a, rfl, ok⟩
  · rintro ⟨a, rfl, ok⟩
    exact ok

theorem lift_eq_ok {x : Option α} {a : α} :
    (ExceptT.lift x : Throwing ε α) = some (.ok a) ↔ x = some a := by
  cases x with
  | none =>
    constructor
    · intro ok
      cases ok
    · intro none
      cases none
  | some b =>
    constructor
    · intro ok
      cases ok
      rfl
    · intro same
      cases same
      rfl

theorem rethrow_eq_ok {x : Throwing ε α} {f : ε → ε} {a : α} :
    rethrow f x = some (.ok a) ↔ x = some (.ok a) := by
  match x with
  | none => exact Iff.rfl
  | some (.ok _) => exact Iff.rfl
  | some (.error _) =>
    constructor
    · intro ok
      cases Option.some.inj ok
    · intro ok
      cases ok

theorem orThrow_eq_ok {e : ε} {x : Option α} {a : α} :
    orThrow e x = some (.ok a) ↔ x = some a := by
  cases x with
  | none =>
    constructor
    · intro ok
      cases Option.some.inj ok
    · intro none
      cases none
  | some b =>
    constructor
    · intro ok
      cases Option.some.inj ok
      rfl
    · intro same
      cases same
      rfl

/-- The results of a loop, one for each element. -/
theorem mapM_eq_ok {f : α → Throwing ε β} {xs : List α} {ys : List β} :
    xs.mapM f = some (.ok ys) ↔ List.Forall₂ (fun x y => f x = some (.ok y)) xs ys := by
  induction xs generalizing ys with
  | nil =>
    rw [List.mapM_nil, List.forall₂_nil_left_iff]
    constructor
    · intro ok
      cases Option.some.inj ok
      rfl
    · rintro rfl
      rfl
  | cons x xs ih =>
    rw [List.mapM_cons, bind_eq_ok]
    constructor
    · rintro ⟨y, first, rest⟩
      obtain ⟨zs, later, done⟩ := bind_eq_ok.mp rest
      cases Option.some.inj done
      exact .cons first (ih.mp later)
    · intro all
      cases all with
      | cons first later => exact ⟨_, first, bind_eq_ok.mpr ⟨_, ih.mpr later, rfl⟩⟩

end Throwing

/-! ## Calls without a stack -/

section Except

variable {γ : Type}

@[simp] theorem except_ok_bind (a : α) (f : α → Except ε β) : Except.ok a >>= f = f a := rfl

theorem except_bind_eq_ok {x : Except ε α} {f : α → Except ε β} {b : β} :
    x >>= f = .ok b ↔ ∃ a, x = .ok a ∧ f a = .ok b := by
  cases x with
  | error e =>
    constructor
    · intro ok
      cases ok
    · rintro ⟨a, ok, -⟩
      cases ok
  | ok a =>
    constructor
    · exact fun ok => ⟨a, rfl, ok⟩
    · rintro ⟨a', same, ok⟩
      cases same
      exact ok

theorem except_mapM_eq_ok {f : α → Except ε β} {xs : List α} {ys : List β} :
    xs.mapM f = .ok ys ↔ List.Forall₂ (fun x y => f x = .ok y) xs ys := by
  induction xs generalizing ys with
  | nil =>
    rw [List.mapM_nil, List.forall₂_nil_left_iff]
    constructor
    · intro ok
      cases ok
      rfl
    · rintro rfl
      rfl
  | cons x xs ih =>
    rw [List.mapM_cons, except_bind_eq_ok]
    constructor
    · rintro ⟨y, first, rest⟩
      obtain ⟨zs, later, done⟩ := except_bind_eq_ok.mp rest
      cases done
      exact .cons first (ih.mp later)
    · intro all
      cases all with
      | cons first later => exact ⟨_, first, except_bind_eq_ok.mpr ⟨_, ih.mpr later, rfl⟩⟩

/-- Two loops, one over the results of the other, do what they should just when they do so for
each element. -/
theorem except_mapM_mapM {f : α → Except ε β} {g : β → Except ε γ} {R : α → γ → Prop}
    {xs : List α} :
    (∃ ys zs, xs.mapM f = .ok ys ∧ ys.mapM g = .ok zs ∧ List.Forall₂ R xs zs) ↔
      ∀ x ∈ xs, ∃ y z, f x = .ok y ∧ g y = .ok z ∧ R x z := by
  simp only [except_mapM_eq_ok]
  exact forall₂_chain_iff

end Except

namespace Throwing

/-! ## Deep stacks -/

/-- With a stack that is deep enough, the call ends so. -/
def Ends (call : Nat → Throwing ε α) (r : Except ε α) : Prop := Returns call r

namespace Ends

variable {x : Nat → Throwing ε α} {f : Nat → α → Throwing ε β} {a : α} {r : Except ε β}

theorem unique {s : Except ε α} {t : Except ε α} (left : Ends x s) (right : Ends x t) : s = t :=
  Returns.unique left right

theorem pure (a : α) : Ends (fun _ => (Pure.pure a : Throwing ε α)) (.ok a) := .of_some _

theorem throw (e : ε) : Ends (fun _ => (MonadExcept.throw e : Throwing ε α)) (.error e) :=
  .of_some _

/-- One step does not change how the call ends. -/
theorem succ_iff {y : Nat → Throwing ε α} (same : ∀ depth, y (depth + 1) = x depth)
    {r : Except ε α} : Ends y r ↔ Ends x r := by
  constructor
  · rintro ⟨deep, ends⟩
    refine ⟨deep, fun depth enough => ?_⟩
    rw [← ends (depth + 1) (Nat.le_succ_of_le enough), same]
  · exact Returns.congr same

theorem ok_bind (first : Ends x (.ok a)) (second : Ends (f · a) r) :
    Ends (fun depth => x depth >>= f depth) r := by
  obtain ⟨m, first⟩ := first
  obtain ⟨n, second⟩ := second
  refine ⟨max m n, fun depth enough => ?_⟩
  have here := first depth (Nat.le_trans (Nat.le_max_left m n) enough)
  have there := second depth (Nat.le_trans (Nat.le_max_right m n) enough)
  simp only [here]
  exact there

/-- The value is changed after the call. -/
theorem map (ends : Ends x (.ok a)) (g : α → β) :
    Ends (fun depth => x depth >>= fun b => Pure.pure (g b)) (.ok (g a)) :=
  ends.ok_bind (pure (g a))

theorem rethrow_ok {g : ε → ε} (ends : Ends x (.ok a)) :
    Ends (fun depth => rethrow g (x depth)) (.ok a) :=
  Returns.map ends (Except.mapError g)

/-- What a call returns or throws that calls nothing else. -/
theorem of_except (r : Except ε α) : Ends (fun _ => ExceptT.mk (some r)) r := .of_some _

/-- What a call without exceptions returns. -/
theorem lift {call : Nat → Option α} (returns : Returns call a) :
    Ends (fun depth => (ExceptT.lift (call depth) : Throwing ε α)) (.ok a) :=
  Returns.map returns Except.ok

theorem mapM {call : Nat → α → Throwing ε β} {xs : List α} {ys : List β}
    (each : List.Forall₂ (fun x y => Ends (call · x) (.ok y)) xs ys) :
    Ends (fun depth => xs.mapM (call depth)) (.ok ys) := by
  induction each with
  | nil => exact .of_some _
  | cons first _ ih =>
    simp only [List.mapM_cons]
    apply ok_bind first
    apply ok_bind ih
    exact .of_some _

end Ends

end Throwing

end VRJuggler
