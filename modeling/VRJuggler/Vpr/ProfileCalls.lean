import VRJuggler.Vpr.ProfileTree

/-!
# Profiles of calls

What a profile is for, without a tree: for each path the number of the calls made there and of
those that still run, and the path where the thread is. Nested calls leave everything but the
numbers of calls as it was, unless one of them starts the root by its own name.
-/
namespace VRJuggler.Vpr

variable {ν : Type} [DecidableEq ν]

/-! ## Profiles without a tree -/

/-- The path that a call starts: a call of the same name stays on its node. -/
def enter (root name : ν) (path : List ν) : List ν :=
  if name = path.headD root then path else name :: path

/-- The numbers at every path, and the path of the current node. -/
structure Profile (ν : Type) where
  current : Option (List ν)
  totalCalls : List ν → BitVec 32
  counter : List ν → Int

namespace Profile

variable (root : ν) (a : Profile ν)

def start (name : ν) : Option (Profile ν) :=
  match a.current with
  | none => none
  | some path =>
    let path := enter root name path
    if a.counter path = maxInt then none
    else some {
      current := some path
      totalCalls := Function.update a.totalCalls path (a.totalCalls path + 1)
      counter := Function.update a.counter path (a.counter path + 1) }

/-- When the counter is zero the call goes back to the parent, which the root does not have. -/
def stop : Option (Profile ν) :=
  match a.current with
  | none => none
  | some path =>
    if a.counter path = - maxInt - 1 then none
    else some { a with
      current := if a.counter path - 1 = 0 then path.tail? else some path
      counter := Function.update a.counter path (a.counter path - 1) }

def step : ProfileCall ν → Option (Profile ν)
  | .startProfile name _ _ => a.start root name
  | .stopProfile _ => a.stop

end Profile

/-! ## Nested calls -/

/-- Calls one after the other, with those that are made inside the first. -/
inductive Calls (ν : Type) where
  | none
  | call (name : ν) (queueSize : Nat) (started : BitVec 64) (inside : Calls ν)
      (stopped : BitVec 64) (after : Calls ν)

namespace Calls

/-- The properly nested sequence of starts and stops. -/
def word : Calls ν → List (ProfileCall ν)
  | none => []
  | call name queueSize started inside stopped after =>
    .startProfile name queueSize started :: (inside.word ++ .stopProfile stopped :: after.word)

/-- How many of the calls, made from the path, are calls on the path `q`. -/
def callsAt (root : ν) (q : List ν) (path : List ν) : Calls ν → Nat
  | none => 0
  | call name _ _ inside _ after =>
    (if q = enter root name path then 1 else 0) +
      inside.callsAt root q (enter root name path) + after.callsAt root q path

end Calls

namespace Profile

/-- The current node is not started by its own name while it has no sample; that goes wrong when
the sample stops. The other bound is that of the counter. -/
def Safe (root : ν) (a : Profile ν) : ProfileCall ν → Prop
  | .startProfile name _ _ => ∀ path, a.current = some path → name = path.headD root →
      a.counter path ≠ 0 ∧ a.counter path ≠ maxInt
  | .stopProfile _ => True

/-- Samples are running on the way to the current node, and nowhere else but at the root. -/
def Placed (a : Profile ν) : Prop :=
  (∀ q, - maxInt - 1 ≤ a.counter q) ∧
    ∀ path, a.current = some path → ∀ q, q ≠ [] →
      (q <:+ path → 1 ≤ a.counter q) ∧ (¬ q <:+ path → a.counter q = 0)

variable {root : ν} {a a' : Profile ν}

omit [DecidableEq ν] in
/-- A child is not on the way to its parent. -/
theorem not_cons_suffix {name : ν} {path : List ν} : ¬ (name :: path) <:+ path :=
  fun suffix => Nat.not_succ_le_self path.length suffix.length_le

/-- What a start does. -/
theorem start_eq_some {name : ν} : a.start root name = some a' ↔
    ∃ path, a.current = some path ∧ a.counter (enter root name path) ≠ maxInt ∧ a' = {
      current := some (enter root name path)
      totalCalls := Function.update a.totalCalls (enter root name path)
        (a.totalCalls (enter root name path) + 1)
      counter := Function.update a.counter (enter root name path)
        (a.counter (enter root name path) + 1) } := by
  unfold start
  cases a.current with
  | none => simp
  | some path =>
    by_cases full : a.counter (enter root name path) = maxInt
    · simp [full]
    · simp only [if_neg full, Option.some.injEq]
      constructor
      · rintro rfl
        exact ⟨path, rfl, full, rfl⟩
      · rintro ⟨_, rfl, _, rfl⟩
        rfl

/-- What a stop does. -/
theorem stop_eq_some : a.stop = some a' ↔
    ∃ path, a.current = some path ∧ a.counter path ≠ - maxInt - 1 ∧ a' = { a with
      current := if a.counter path - 1 = 0 then path.tail? else some path
      counter := Function.update a.counter path (a.counter path - 1) } := by
  unfold stop
  cases a.current with
  | none => simp
  | some path =>
    by_cases least : a.counter path = - maxInt - 1
    · simp [least]
    · simp only [if_neg least, Option.some.injEq]
      constructor
      · rintro rfl
        exact ⟨path, rfl, least, rfl⟩
      · rintro ⟨_, rfl, _, rfl⟩
        rfl

theorem placed_start {name : ν} (placed : a.Placed) (started : a.start root name = some a') :
    a'.Placed := by
  obtain ⟨path, here, _, rfl⟩ := start_eq_some.mp started
  obtain ⟨least, running⟩ := placed
  have running := running path here
  constructor
  · intro q
    have old := least q
    by_cases same : q = enter root name path
    · subst same
      simp only [Function.update_self]
      omega
    · simpa only [Function.update_of_ne same] using old
  · rintro _ ⟨⟩ q below
    by_cases same : q = enter root name path
    · subst same
      simp only [Function.update_self]
      refine ⟨fun _ => ?_, fun outside => absurd List.suffix_rfl outside⟩
      -- the node has samples already, or none if it was not the current node
      by_cases inside : enter root name path <:+ path
      · have some' := (running _ below).1 inside
        omega
      · have none' := (running _ below).2 inside
        omega
    · simp only [Function.update_of_ne same]
      have up : q <:+ enter root name path ↔ q <:+ path := by
        unfold enter at same ⊢
        split at same
        · simp [*]
        · rw [if_neg ‹_›, List.suffix_cons_iff]
          simp [same]
      rw [up]
      exact running q below

theorem placed_stop (placed : a.Placed) (stopped : a.stop = some a') : a'.Placed := by
  obtain ⟨path, here, room, rfl⟩ := stop_eq_some.mp stopped
  obtain ⟨least, running⟩ := placed
  have running := running path here
  constructor
  · intro q
    have old := least q
    by_cases same : q = path
    · subst same
      simp only [Function.update_self]
      omega
    · simpa only [Function.update_of_ne same] using old
  · intro path' there q below
    dsimp only at there ⊢
    by_cases back : a.counter path - 1 = 0
    · rw [if_pos back] at there
      obtain ⟨name, rfl⟩ : ∃ name, path = name :: path' := by
        cases path with
        | nil => cases there
        | cons name rest => exact ⟨name, by rw [Option.some.inj there]⟩
      by_cases same : q = name :: path'
      · subst same
        have outside : ¬ (name :: path') <:+ path' := not_cons_suffix
        simp [outside, back]
      · simp only [Function.update_of_ne same]
        have up := running q below
        rwa [List.suffix_cons_iff, or_iff_right same] at up
    · rw [if_neg back] at there
      obtain rfl := Option.some.inj there
      by_cases same : q = path
      · subst same
        have some' := (running q below).1 List.suffix_rfl
        simp only [Function.update_self]
        exact ⟨fun _ => by omega, fun outside => absurd List.suffix_rfl outside⟩
      · simpa only [Function.update_of_ne same] using running q below

/-- What one call preserves. -/
theorem placed_step (c : ProfileCall ν) (placed : a.Placed) (stepped : a.step root c = some a') :
    a'.Placed := by
  cases c with
  | startProfile name queueSize now => exact placed_start placed stepped
  | stopProfile now => exact placed_stop placed stepped

/-- Without a current node nothing is possible. -/
theorem run_lost {calls : List (ProfileCall ν)} (lost : a.current = none)
    (reached : run (step root) a calls = some a') : a'.current = none := by
  cases calls with
  | nil => exact Option.some.inj reached ▸ lost
  | cons c calls =>
    obtain ⟨b, first, _⟩ := run_cons_eq_some.mp reached
    cases c <;> simp [step, start, stop, lost] at first

/-- The numbers that the calls should leave. -/
def Followed (root : ν) (path : List ν) (calls : Calls ν) (a a' : Profile ν) : Prop :=
  a'.current = a.current ∧ a'.counter = a.counter ∧
    ∀ q, a'.totalCalls q = a.totalCalls q + BitVec.ofNat 32 (calls.callsAt root q path)

/-- A call that is safe is started, and its path is one that the thread comes back from. -/
theorem start_of_safe {name : ν} {queueSize : Nat} {now : BitVec 64} {path : List ν}
    (placed : a.Placed) (here : a.current = some path)
    (safe : a.Safe root (.startProfile name queueSize now)) :
    a.counter (enter root name path) ≠ maxInt ∧
      (if a.counter (enter root name path) = 0 then (enter root name path).tail?
        else some (enter root name path)) = some path := by
  have running := placed.2 path here
  unfold enter
  by_cases own : name = path.headD root
  · obtain ⟨some', room⟩ := safe path here own
    rw [if_pos own]
    exact ⟨room, if_neg some'⟩
  · -- a child of the current node has no sample yet
    have outside : ¬ (name :: path) <:+ path := not_cons_suffix
    have zero := (running (name :: path) (List.cons_ne_nil _ _)).2 outside
    rw [if_neg own, zero]
    exact ⟨by decide, rfl⟩

/-- A call that is not safe is one of the root by its own name, unless it is undefined. -/
theorem unsafe_start {name : ν} {queueSize : Nat} {now : BitVec 64} {path : List ν}
    (placed : a.Placed) (here : a.current = some path)
    (notSafe : ¬ a.Safe root (.startProfile name queueSize now))
    (room : a.counter (enter root name path) ≠ maxInt) :
    enter root name path = [] ∧ path = [] ∧ a.counter [] = 0 := by
  simp only [Safe, not_forall] at notSafe
  obtain ⟨path', here', own, wrong⟩ := notSafe
  obtain rfl := Option.some.inj (here.symm.trans here')
  have stays : enter root name path = path := if_pos own
  rw [stays] at room ⊢
  have zero : a.counter path = 0 := by
    by_contra some'
    exact wrong ⟨some', room⟩
  have top : path = [] := by
    by_contra below
    have some' := (placed.2 path here path below).1 List.suffix_rfl
    omega
  subst top
  exact ⟨rfl, rfl, zero⟩

/-- The stop after the calls inside takes the counter back to what it was. -/
theorem stop_of_followed {name : ν} {a₁ a₂ : Profile ν} {path : List ν} {inside : Calls ν}
    (placed : a.Placed) (here : a.current = some path) (started : a.start root name = some a₁)
    (followed : Followed root (enter root name path) inside a₁ a₂) :
    ∃ a₃, a₂.stop = some a₃ ∧ a₃.counter = a.counter ∧
      a₃.current = (if a.counter (enter root name path) = 0 then (enter root name path).tail?
        else some (enter root name path)) ∧
      ∀ q, a₃.totalCalls q = a.totalCalls q + BitVec.ofNat 32
        ((if q = enter root name path then 1 else 0) +
          inside.callsAt root q (enter root name path)) := by
  obtain ⟨path', here', _, rfl⟩ := start_eq_some.mp started
  obtain rfl := Option.some.inj (here.symm.trans here')
  obtain ⟨current, counter, totals⟩ := followed
  dsimp only at current counter totals
  have least := placed.1 (enter root name path)
  have now' : a₂.counter (enter root name path) = a.counter (enter root name path) + 1 := by
    rw [counter, Function.update_self]
  refine ⟨_, stop_eq_some.mpr ⟨_, current, by omega, rfl⟩, ?_, ?_, ?_⟩
  · dsimp only
    rw [now', counter, Function.update_idem, Int.add_sub_cancel, Function.update_eq_self]
  · dsimp only
    rw [now', Int.add_sub_cancel]
  · intro q
    dsimp only
    rw [totals, BitVec.ofNat_add, ← BitVec.add_assoc]
    by_cases same : q = enter root name path
    · rw [same, Function.update_self, if_pos rfl]
      rfl
    · simp only [Function.update_of_ne same, if_neg same, BitVec.ofNat_eq_ofNat, BitVec.add_zero]

/-- Calls that are all safe are followed; after one that is not, the thread ends without a
current node if it can go on at all. -/
theorem followed_or_lost (calls : Calls ν) {path : List ν} (placed : a.Placed)
    (here : a.current = some path) :
    (Attempts (step root) (Safe root) a calls.word →
      ∃ a', run (step root) a calls.word = some a' ∧ Followed root path calls a a') ∧
    (¬ Attempts (step root) (Safe root) a calls.word →
      ∀ a', run (step root) a calls.word = some a' → a'.current = none) := by
  induction calls generalizing a path with
  | none =>
    refine ⟨fun _ => ⟨a, rfl, rfl, rfl, fun q => ?_⟩, fun no => absurd trivial no⟩
    simp [Calls.callsAt]
  | call name queueSize started inside stopped after insideIh afterIh =>
    constructor
    · -- the start is followed, then what is inside, the stop and what comes after
      rintro ⟨safe, rest⟩
      obtain ⟨room, returns⟩ := start_of_safe placed here safe
      have first := start_eq_some.mpr ⟨path, here, room, rfl⟩
      have placed₁ := placed_start placed first
      obtain ⟨inner, outer⟩ := attempts_append.mp (rest _ first)
      obtain ⟨a₂, ran, followed⟩ := (insideIh placed₁ rfl).1 inner
      obtain ⟨a₃, back, counter, current, totals⟩ := stop_of_followed placed here first followed
      rw [returns] at current
      have placed₃ : a₃.Placed := placed_stop (run_invariant Placed
        (fun _ c _ placed => placed_step c placed) placed₁ ran) back
      obtain ⟨a₄, ran', followed'⟩ := (afterIh placed₃ current).1 ((outer a₂ ran).2 a₃ back)
      refine ⟨a₄, ?_, followed'.1.trans (current.trans here.symm), followed'.2.1.trans counter,
        fun q => ?_⟩
      · rw [Calls.word, run_cons_eq_some]
        refine ⟨_, first, ?_⟩
        rw [run_append, ran, Option.bind_some, run_cons_eq_some]
        exact ⟨a₃, back, ran'⟩
      · rw [followed'.2.2 q, totals q, BitVec.add_assoc, ← BitVec.ofNat_add]
        rfl
    · -- the steps of the run, as it went
      intro notAll a' reached
      obtain ⟨a₁, first, rest⟩ := run_cons_eq_some.mp reached
      rw [run_append, Option.bind_eq_some_iff] at rest
      obtain ⟨a₂, ran, rest⟩ := rest
      obtain ⟨a₃, back, ran'⟩ := run_cons_eq_some.mp rest
      obtain ⟨_, here', room, same⟩ := start_eq_some.mp first
      obtain rfl := Option.some.inj (here.symm.trans here')
      have placed₁ := placed_start placed first
      have placed₃ : a₃.Placed := placed_stop (run_invariant Placed
        (fun _ c _ placed => placed_step c placed) placed₁ ran) back
      have current₁ : a₁.current = some (enter root name path) := by rw [same]
      -- the stop is made on a node, so the calls inside were all safe
      have inner : Attempts (step root) (Safe root) a₁ inside.word := by
        by_contra lost
        have nowhere := (insideIh placed₁ current₁).2 lost a₂ ran
        obtain ⟨_, there, _⟩ := stop_eq_some.mp back
        cases nowhere.symm.trans there
      obtain ⟨b, ran₂, followed⟩ := (insideIh placed₁ current₁).1 inner
      obtain rfl := Option.some.inj (ran.symm.trans ran₂)
      obtain ⟨b, back', counter, current, _⟩ := stop_of_followed placed here first followed
      obtain rfl := Option.some.inj (back.symm.trans back')
      by_cases safe : a.Safe root (.startProfile name queueSize started)
      · have returns := (start_of_safe placed here safe).2
        rw [returns] at current
        refine (afterIh placed₃ current).2 (fun later => notAll ⟨safe, ?_⟩) a' ran'
        intro b first'
        obtain rfl := Option.some.inj (first.symm.trans first')
        refine attempts_append.mpr ⟨inner, fun b ran'' => ⟨trivial, fun c back' => ?_⟩⟩
        obtain rfl := Option.some.inj (ran.symm.trans ran'')
        obtain rfl := Option.some.inj (back.symm.trans back')
        exact later
      · -- the sample of the root is over, and its parent is null
        obtain ⟨top, _, zero⟩ := unsafe_start placed here safe room
        rw [top, if_pos zero] at current
        exact run_lost current ran'

end Profile

end VRJuggler.Vpr
