import Mathlib.Data.List.Basic

/-!
# Runs of a partial step function

A system is a state type, a type of operations and a step function that is
`none` where an operation is not possible or has no defined effect. This module
holds what every system of the development uses: runs, conditions on the steps
of a run, and the induction rules that carry an invariant along it.
-/
namespace VRJuggler

variable {σ ω : Type}

/-- Perform the operations in turn; `none` as soon as one of them is undefined. -/
def run (step : σ → ω → Option σ) : σ → List ω → Option σ
  | s, [] => some s
  | s, o :: os => (step s o).bind fun t => run step t os

/-- Every operation that the run performs is made from a state in which `ok`
allows it. -/
def Meets (step : σ → ω → Option σ) (ok : σ → ω → Prop) : σ → List ω → Prop
  | _, [] => True
  | s, o :: os => ∀ t, step s o = some t → ok s o ∧ Meets step ok t os

/-- The same of every operation that the run tries, also of one that is undefined. -/
def Attempts (step : σ → ω → Option σ) (ok : σ → ω → Prop) : σ → List ω → Prop
  | _, [] => True
  | s, o :: os => ok s o ∧ ∀ t, step s o = some t → Attempts step ok t os

variable {step : σ → ω → Option σ}

@[simp] theorem run_nil (s : σ) : run step s [] = some s := rfl

theorem run_cons (s : σ) (o : ω) (os : List ω) :
    run step s (o :: os) = (step s o).bind fun t => run step t os := rfl

theorem run_cons_eq_some {s u : σ} {o : ω} {os : List ω} :
    run step s (o :: os) = some u ↔ ∃ t, step s o = some t ∧ run step t os = some u := by
  rw [run_cons, Option.bind_eq_some_iff]

theorem run_append (s : σ) (xs ys : List ω) :
    run step s (xs ++ ys) = (run step s xs).bind fun t => run step t ys := by
  induction xs generalizing s with
  | nil => rfl
  | cons x xs ih =>
    rw [List.cons_append, run_cons, run_cons]
    cases step s x with
    | none => rfl
    | some t => exact ih t

theorem meets_cons {ok : σ → ω → Prop} {s t : σ} {o : ω} {os : List ω}
    (stepped : step s o = some t) : Meets step ok s (o :: os) ↔ ok s o ∧ Meets step ok t os := by
  constructor
  · intro meets
    exact meets t stepped
  · rintro ⟨allowed, meets⟩ u hu
    obtain rfl := Option.some.inj (stepped.symm.trans hu)
    exact ⟨allowed, meets⟩

/-- A condition on the steps of a run, and on one more. -/
theorem meets_snoc {ok : σ → ω → Prop} {s t : σ} {os : List ω} {o : ω}
    (meets : Meets step ok s os) (reached : run step s os = some t) (last : ok t o) :
    Meets step ok s (os ++ [o]) := by
  induction os generalizing s with
  | nil =>
    obtain rfl := Option.some.inj reached
    exact fun _ _ => ⟨last, trivial⟩
  | cons x os ih =>
    obtain ⟨u, first, rest⟩ := run_cons_eq_some.mp reached
    intro v hv
    obtain ⟨allowed, meets⟩ := meets v hv
    obtain rfl := Option.some.inj (first.symm.trans hv)
    exact ⟨allowed, ih meets rest⟩

/-- A condition that every step meets. -/
theorem meets_of_forall {ok : σ → ω → Prop} (all : ∀ s o, ok s o) (s : σ) (os : List ω) :
    Meets step ok s os := by
  induction os generalizing s with
  | nil => trivial
  | cons o os ih =>
    intro t _
    exact ⟨all s o, ih t⟩

/-- What the condition on a step implies, the run meets as well. -/
theorem meets_imp {ok weaker : σ → ω → Prop} (weakens : ∀ s o, ok s o → weaker s o) {s : σ}
    {os : List ω} (meets : Meets step ok s os) : Meets step weaker s os := by
  induction os generalizing s with
  | nil => trivial
  | cons o os ih =>
    intro t stepped
    obtain ⟨allowed, later⟩ := meets t stepped
    exact ⟨weakens s o allowed, ih later⟩

/-- Two conditions on the steps of a run. -/
theorem meets_and {p q : σ → ω → Prop} {s : σ} {os : List ω} :
    Meets step (fun s o => p s o ∧ q s o) s os ↔ Meets step p s os ∧ Meets step q s os := by
  constructor
  · intro both
    exact ⟨meets_imp (fun _ _ both => both.1) both, meets_imp (fun _ _ both => both.2) both⟩
  · rintro ⟨first, second⟩
    induction os generalizing s with
    | nil => trivial
    | cons o os ih =>
      intro t stepped
      obtain ⟨left, first⟩ := first t stepped
      obtain ⟨right, second⟩ := second t stepped
      exact ⟨⟨left, right⟩, ih first second⟩

/-- A condition on the steps of a run is one on those of its first part. -/
theorem meets_of_front {ok : σ → ω → Prop} {s : σ} {front os : List ω}
    (meets : Meets step ok s os) (part : front <+: os) : Meets step ok s front := by
  induction front generalizing s os with
  | nil => trivial
  | cons x front ih =>
    obtain ⟨rest, rfl⟩ := part
    intro t stepped
    obtain ⟨allowed, meets⟩ := meets t stepped
    exact ⟨allowed, ih meets (List.prefix_append _ _)⟩

/-- What one step preserves, a whole run preserves. -/
theorem run_invariant (inv : σ → Prop)
    (keeps : ∀ s o t, inv s → step s o = some t → inv t)
    {s t : σ} {os : List ω} (start : inv s) (reached : run step s os = some t) : inv t := by
  induction os generalizing s with
  | nil => exact Option.some.inj reached ▸ start
  | cons o os ih =>
    obtain ⟨u, first, rest⟩ := run_cons_eq_some.mp reached
    exact ih (keeps s o u start first) rest

/-- The same for runs whose steps all meet a condition. -/
theorem run_invariant_of_meets (inv : σ → Prop) (ok : σ → ω → Prop)
    (keeps : ∀ s o t, inv s → ok s o → step s o = some t → inv t)
    {s t : σ} {os : List ω} (start : inv s) (meets : Meets step ok s os)
    (reached : run step s os = some t) : inv t := by
  induction os generalizing s with
  | nil => exact Option.some.inj reached ▸ start
  | cons o os ih =>
    obtain ⟨u, first, rest⟩ := run_cons_eq_some.mp reached
    obtain ⟨allowed, meets⟩ := meets u first
    exact ih (keeps s o u start allowed first) meets rest

/-- An invariant that speaks of the operations made so far. -/
theorem run_history_of_meets (inv : σ → List ω → Prop) (ok : σ → ω → Prop)
    (keeps : ∀ s o t past, inv s past → ok s o → step s o = some t → inv t (past ++ [o]))
    {s t : σ} {past os : List ω} (start : inv s past) (meets : Meets step ok s os)
    (reached : run step s os = some t) : inv t (past ++ os) := by
  induction os generalizing s past with
  | nil => exact Option.some.inj reached ▸ (List.append_nil past).symm ▸ start
  | cons o os ih =>
    obtain ⟨u, first, rest⟩ := run_cons_eq_some.mp reached
    obtain ⟨allowed, meets⟩ := meets u first
    rw [List.append_cons]
    exact ih (keeps s o u past start allowed first) meets rest

instance decidableMeets (ok : σ → ω → Prop) [∀ s o, Decidable (ok s o)] :
    ∀ (s : σ) (os : List ω), Decidable (Meets step ok s os)
  | _, [] => isTrue trivial
  | s, o :: os =>
    match first : step s o with
    | none => isTrue fun _ stepped => nomatch first.symm.trans stepped
    | some t =>
      have := decidableMeets ok t os
      decidable_of_iff (ok s o ∧ Meets step ok t os)
        ⟨fun both _ stepped => Option.some.inj (first.symm.trans stepped) ▸ both,
          fun all => all t first⟩

/-- When an allowed step keeps `good`, a step that is not allowed leads to
`bad`, and nothing leads out of `bad`, a run ends well exactly when all its
steps were allowed. -/
theorem run_good_iff_meets (good bad : σ → Prop) (ok : σ → ω → Prop)
    (keeps : ∀ s o t, good s → ok s o → step s o = some t → good t)
    (breaks : ∀ s o t, good s → ¬ ok s o → step s o = some t → bad t)
    (stays : ∀ s o t, bad s → step s o = some t → bad t)
    (apart : ∀ s, bad s → ¬ good s)
    {s t : σ} {os : List ω} (start : good s) (reached : run step s os = some t) :
    good t ↔ Meets step ok s os := by
  constructor
  · intro ended
    induction os generalizing s with
    | nil => trivial
    | cons o os ih =>
      obtain ⟨u, first, rest⟩ := run_cons_eq_some.mp reached
      intro v hv
      obtain rfl : u = v := Option.some.inj (first.symm.trans hv)
      by_cases allowed : ok s o
      · exact ⟨allowed, ih (keeps s o u start allowed first) rest⟩
      · have worse : bad t := run_invariant bad stays (breaks s o u start allowed first) rest
        exact absurd ended (apart t worse)
  · intro meets
    exact run_invariant_of_meets good ok keeps start meets reached

/-- When a step from a good state leads to a good state just when it is allowed, all
states of a run are good just when all its steps are allowed. What else is needed of the
states may be kept by the steps between good states only. -/
theorem run_always_iff_meets (inv good : σ → Prop) (ok : σ → ω → Prop)
    (keeps : ∀ s o t, inv s → good s → step s o = some t →
      (good t ↔ ok s o) ∧ (good t → inv t))
    {s t : σ} {os : List ω} (kept : inv s) (start : good s) (reached : run step s os = some t) :
    (∀ front u, front <+: os → run step s front = some u → good u) ↔ Meets step ok s os := by
  induction os generalizing s with
  | nil =>
    constructor
    · exact fun _ => trivial
    · intro _ front u part here
      obtain rfl := List.prefix_nil.mp part
      exact Option.some.inj here ▸ start
  | cons o os ih =>
    obtain ⟨u, first, rest⟩ := run_cons_eq_some.mp reached
    obtain ⟨allowedIff, after⟩ := keeps s o u kept start first
    rw [meets_cons first]
    constructor
    · intro always
      have next : good u := always [o] u (List.prefix_append _ _) (by rw [run_cons, first]; rfl)
      refine ⟨allowedIff.mp next, (ih (after next) next rest).mp fun front v part here => ?_⟩
      refine always (o :: front) v (List.cons_prefix_cons.mpr ⟨rfl, part⟩) ?_
      rwa [run_cons, first]
    · rintro ⟨allowed, meets⟩ front v part here
      have next : good u := allowedIff.mpr allowed
      cases front with
      | nil => exact Option.some.inj here ▸ start
      | cons x front =>
        obtain ⟨rfl, shorter⟩ := List.cons_prefix_cons.mp part
        rw [run_cons, first] at here
        exact (ih (after next) next rest).mpr meets front v shorter here

/-- Where two conditions on a step agree in all states that a run can be in while its
steps meet the first, a run meets the first just when it meets the second. -/
theorem meets_iff_meets (inv : σ → Prop) {good ok : σ → ω → Prop}
    (same : ∀ s o t, inv s → step s o = some t → (good s o ↔ ok s o))
    (keeps : ∀ s o t, inv s → good s o → step s o = some t → inv t)
    {s : σ} {os : List ω} (start : inv s) : Meets step good s os ↔ Meets step ok s os := by
  induction os generalizing s with
  | nil => exact Iff.rfl
  | cons o os ih =>
    constructor
    · intro meets t stepped
      obtain ⟨fine, later⟩ := meets t stepped
      exact ⟨(same s o t start stepped).mp fine, (ih (keeps s o t start fine stepped)).mp later⟩
    · intro meets t stepped
      obtain ⟨allowed, later⟩ := meets t stepped
      have fine := (same s o t start stepped).mpr allowed
      exact ⟨fine, (ih (keeps s o t start fine stepped)).mpr later⟩

/-- A step that a run performs is allowed when all its steps are. -/
theorem allowed_of_meets {ok : σ → ω → Prop} {s u v : σ} {front os : List ω} {o : ω}
    (meets : Meets step ok s os) (part : front ++ [o] <+: os)
    (here : run step s front = some u) (stepped : step u o = some v) : ok u o := by
  induction front generalizing s os with
  | nil =>
    obtain ⟨os, rfl⟩ := part
    obtain rfl := Option.some.inj here
    exact (meets v stepped).1
  | cons x front ih =>
    obtain ⟨w, first, rest⟩ := run_cons_eq_some.mp here
    obtain ⟨os, rfl⟩ := part
    exact ih (meets w first).2 (List.prefix_append _ _) rest

/-- A condition on the steps of a run, step by step. -/
theorem meets_iff_forall {ok : σ → ω → Prop} {s : σ} {os : List ω} :
    Meets step ok s os ↔ ∀ front o t u, front ++ [o] <+: os → run step s front = some t →
      step t o = some u → ok t o := by
  constructor
  · intro meets front o t u part here stepped
    exact allowed_of_meets meets part here stepped
  · intro all
    induction os generalizing s with
    | nil => trivial
    | cons o os ih =>
      intro t stepped
      refine ⟨all [] o s t (List.prefix_append _ _) rfl stepped, ih ?_⟩
      intro front x u v part here last
      refine all (o :: front) x u v (List.cons_prefix_cons.mpr ⟨rfl, part⟩) ?_ last
      exact run_cons_eq_some.mpr ⟨t, stepped, here⟩

/-- Two systems whose steps are related, in which is possible and where it leads, have related
runs. -/
theorem run_rel {τ : Type} {step' : τ → ω → Option τ} {R : σ → τ → Prop}
    (steps : ∀ s t o, R s t → Option.Rel R (step s o) (step' t o)) {s : σ} {t : τ}
    (related : R s t) (os : List ω) : Option.Rel R (run step s os) (run step' t os) := by
  induction os generalizing s t with
  | nil => exact .some related
  | cons o os ih =>
    have first := steps s t o related
    rw [run_cons, run_cons]
    generalize step s o = after, step' t o = after' at first
    cases first with
    | some next => exact ih next
    | none => exact .none

/-- Then conditions that agree in related states are met by the same runs. -/
theorem attempts_rel {τ : Type} {step' : τ → ω → Option τ} {R : σ → τ → Prop}
    {ok : σ → ω → Prop} {ok' : τ → ω → Prop}
    (steps : ∀ s t o, R s t → Option.Rel R (step s o) (step' t o))
    (same : ∀ s t o, R s t → (ok s o ↔ ok' t o)) {s : σ} {t : τ} (related : R s t)
    (os : List ω) : Attempts step ok s os ↔ Attempts step' ok' t os := by
  induction os generalizing s t with
  | nil => exact Iff.rfl
  | cons o os ih =>
    have first := steps s t o related
    simp only [Attempts, same s t o related]
    refine and_congr_right fun _ => ?_
    generalize step s o = after, step' t o = after' at first
    cases first with
    | some next => simpa using ih next
    | none => simp

/-- Two conditions that agree as long as the first is met are met by the same runs. -/
theorem attempts_iff_attempts (inv : σ → Prop) {good ok : σ → ω → Prop}
    (same : ∀ s o, inv s → (good s o ↔ ok s o))
    (keeps : ∀ s o t, inv s → good s o → step s o = some t → inv t) {s : σ} (start : inv s)
    (os : List ω) : Attempts step good s os ↔ Attempts step ok s os := by
  induction os generalizing s with
  | nil => exact Iff.rfl
  | cons o os ih =>
    constructor
    · rintro ⟨fine, later⟩
      refine ⟨(same s o start).mp fine, fun t stepped => ?_⟩
      exact (ih (keeps s o t start fine stepped)).mp (later t stepped)
    · rintro ⟨allowed, later⟩
      have fine := (same s o start).mpr allowed
      exact ⟨fine, fun t stepped => (ih (keeps s o t start fine stepped)).mpr (later t stepped)⟩

theorem attempts_append {ok : σ → ω → Prop} {s : σ} {xs ys : List ω} :
    Attempts step ok s (xs ++ ys) ↔ Attempts step ok s xs ∧
      ∀ t, run step s xs = some t → Attempts step ok t ys := by
  induction xs generalizing s with
  | nil => simp [Attempts]
  | cons x xs ih =>
    rw [List.cons_append]
    simp only [Attempts, ih, run_cons]
    cases step s x <;> simp [and_assoc]

/-! ## What is followed beside the state -/

section Followed

variable {τ : Type} {watch : τ → ω → Option τ} (seen : τ → σ)

/-- What is followed beside the state of a system does not change which steps are possible
and which conditions they meet. -/
theorem meets_watch {ok : σ → ω → Prop}
    (same : ∀ s o, (watch s o).map seen = step (seen s) o) {s : τ} {os : List ω} :
    Meets watch (fun s => ok (seen s)) s os ↔ Meets step ok (seen s) os := by
  induction os generalizing s with
  | nil => exact Iff.rfl
  | cons o os ih =>
    constructor
    · intro meets t stepped
      obtain ⟨u, watched, rfl⟩ := Option.map_eq_some_iff.mp ((same s o).trans stepped)
      obtain ⟨allowed, later⟩ := meets u watched
      exact ⟨allowed, ih.mp later⟩
    · intro meets u watched
      obtain ⟨allowed, later⟩ := meets (seen u)
        ((same s o).symm.trans (Option.map_eq_some_iff.mpr ⟨u, watched, rfl⟩))
      exact ⟨allowed, ih.mpr later⟩

end Followed

end VRJuggler
