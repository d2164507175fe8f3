import Mathlib.Tactic.TypeStar

/-!
# Calls that change a state and may throw

What a call has changed stays changed when it throws. A call behaves when it does what it should
or throws and leaves the state as it was; of the state only what is looked at matters for what it
should do.
-/
namespace VRJuggler.Stateful

variable {ε σ ο β γ : Type} {view : σ → ο} {x : EStateM ε σ β} {f : β → EStateM ε σ γ} {s t : σ}

/-- The call throws and changes nothing. -/
def Refuses (x : EStateM ε σ β) (s : σ) : Prop := ∃ e, x.run s = .error e s

/-- The call returns and leaves this to be looked at. -/
def Leaves (view : σ → ο) (x : EStateM ε σ β) (s : σ) (b : β) (o : ο) : Prop :=
  ∃ t, x.run s = .ok b t ∧ view t = o

/-- The call returns and does what it should, or throws and changes nothing. -/
def Behaves (view : σ → ο) (x : EStateM ε σ β) (s : σ) (should : β → ο → Prop) : Prop :=
  match x.run s with
  | .ok b t => should b (view t)
  | .error _ t => t = s

/-- The state that a call leaves, whether it returns or throws. -/
def after (x : EStateM ε σ β) (s : σ) : σ :=
  match x.run s with
  | .ok _ t => t
  | .error _ t => t

/-! ## One call after another -/

theorem run_bind_ok {b : β} (first : x.run s = .ok b t) : (x >>= f).run s = (f b).run t := by
  rw [EStateM.run_bind, first]

theorem run_bind_error {e : ε} (first : x.run s = .error e t) :
    (x >>= f).run s = .error e t := by
  rw [EStateM.run_bind, first]

/-- What both calls preserve, whatever the first one returns. -/
theorem after_bind (inv : σ → Prop) (first : inv (after x s))
    (second : ∀ b t, inv t → inv (after (f b) t)) : inv (after (x >>= f) s) := by
  unfold after at first ⊢
  cases ran : x.run s with
  | ok b t =>
    rw [ran] at first
    rw [run_bind_ok ran]
    exact second b t first
  | error e t =>
    rw [ran] at first
    rw [run_bind_error ran]
    exact first

theorem Refuses.bind (first : Refuses x s) : Refuses (x >>= f) s := by
  obtain ⟨e, first⟩ := first
  exact ⟨e, by rw [EStateM.run_bind, first]⟩

/-- The first call has only read. -/
theorem Refuses.of_ok {b : β} (first : x.run s = .ok b s) (later : Refuses (f b) s) :
    Refuses (x >>= f) s := by
  obtain ⟨e, later⟩ := later
  exact ⟨e, by rw [run_bind_ok first, later]⟩

theorem Leaves.of_ok {b : β} {c : γ} {o : ο} (first : x.run s = .ok b t)
    (later : Leaves view (f b) t c o) : Leaves view (x >>= f) s c o := by
  obtain ⟨u, later, same⟩ := later
  exact ⟨u, by rw [run_bind_ok first, later], same⟩

/-- What comes after the call changes nothing that is looked at. -/
theorem Leaves.bind {b : β} {c : γ} {o : ο} (first : Leaves view x s b o)
    (later : ∀ t, view t = o → Leaves view (f b) t c o) : Leaves view (x >>= f) s c o := by
  obtain ⟨t, first, same⟩ := first
  exact .of_ok first (later t same)

theorem refuses_throw (e : ε) (s : σ) : Refuses (throw e : EStateM ε σ β) s := ⟨e, rfl⟩

theorem leaves_pure (b : β) (s : σ) : Leaves view (pure b : EStateM ε σ β) s b (view s) :=
  ⟨s, rfl, rfl⟩

/-- A result that is looked at as what was left before. -/
theorem leaves_pure_of_eq {o : ο} (b : β) (same : view s = o) :
    Leaves view (pure b : EStateM ε σ β) s b o :=
  ⟨s, rfl, same⟩

/-! ## Calls that behave -/

section Behaves

variable {should : β → ο → Prop} {should' : γ → ο → Prop}

theorem behaves_of_refuses (refuses : Refuses x s) : Behaves view x s should := by
  obtain ⟨e, refuses⟩ := refuses
  simp [Behaves, refuses]

theorem behaves_iff_of_leaves {b : β} {o : ο} (leaves : Leaves view x s b o) :
    Behaves view x s should ↔ should b o := by
  obtain ⟨t, returned, rfl⟩ := leaves
  simp [Behaves, returned]

theorem behaves_iff_of_error {e : ε} (thrown : x.run s = .error e t) :
    Behaves view x s should ↔ t = s := by
  simp [Behaves, thrown]

theorem behaves_bind_of_ok {b : β} (first : x.run s = .ok b s) :
    Behaves view (x >>= f) s should' ↔ Behaves view (f b) s should' := by
  simp only [Behaves, run_bind_ok first]

/-- What comes after the call changes nothing that is looked at. -/
theorem behaves_bind_iff {g : β → γ} (later : ∀ b t, Leaves view (f b) t (g b) (view t)) :
    Behaves view (x >>= f) s should' ↔ Behaves view x s fun b => should' (g b) := by
  unfold Behaves
  cases first : x.run s with
  | ok b t =>
    obtain ⟨u, returned, same⟩ := later b t
    rw [run_bind_ok first, returned]
    simp only [same]
  | error e t =>
    rw [EStateM.run_bind, first]

end Behaves

end VRJuggler.Stateful
