import Mathlib.Data.Finite.Defs
import Mathlib.Data.Set.Card
import Mathlib.Data.Set.Finite.Basic
import Mathlib.Logic.Relation
import Mathlib.Order.WellFounded

/-!
# Hierarchies of named things

Things refer to others by name, and a name need not stand for anything. A recursive function
that goes up such a hierarchy takes the depth of the stack that is left to it; where no thing
is its own ancestor, some depth is enough.
-/
namespace VRJuggler

/-! ## Calls with a bounded stack -/

section Calls

variable {β γ : Type}

/-- With a stack that is deep enough, the call returns this value. -/
def Returns (call : Nat → Option β) (b : β) : Prop :=
  ∃ deep, ∀ depth, deep ≤ depth → call depth = some b

/-- The call returns at all. -/
def Terminates (call : Nat → Option β) : Prop := ∃ b, Returns call b

namespace Returns

variable {call : Nat → Option β} {b b' : β}

theorem of_some (b : β) : Returns (fun _ => some b) b := ⟨0, fun _ _ => rfl⟩

theorem unique (left : Returns call b) (right : Returns call b') : b = b' := by
  obtain ⟨m, left⟩ := left
  obtain ⟨n, right⟩ := right
  have here := left (max m n) (Nat.le_max_left m n)
  rw [right (max m n) (Nat.le_max_right m n)] at here
  exact (Option.some.inj here).symm

/-- Two calls that agree on deep stacks. -/
theorem congr {call' : Nat → Option β} (same : ∀ depth, call' (depth + 1) = call depth)
    (returns : Returns call b) : Returns call' b := by
  obtain ⟨deep, returns⟩ := returns
  refine ⟨deep + 1, fun depth enough => ?_⟩
  cases depth with
  | zero => exact absurd enough (Nat.not_succ_le_zero deep)
  | succ depth => rw [same, returns depth (Nat.le_of_succ_le_succ enough)]

/-- A call that a deeper stack does not change. -/
theorem of_mono (mono : ∀ depth b, call depth = some b → call (depth + 1) = some b)
    (deep : Nat) (here : call deep = some b) : Returns call b := by
  refine ⟨deep, fun depth enough => ?_⟩
  induction enough with
  | refl => exact here
  | step _ ih => exact mono _ _ ih

/-- A call that returns the value on all stacks that are deeper by some depth. -/
theorem of_add (deep : Nat) (here : ∀ depth, call (depth + deep) = some b) : Returns call b := by
  refine ⟨deep, fun depth enough => ?_⟩
  obtain ⟨more, rfl⟩ := Nat.exists_eq_add_of_le' enough
  exact here more

theorem map (returns : Returns call b) (f : β → γ) :
    Returns (fun depth => (call depth).map f) (f b) := by
  obtain ⟨deep, returns⟩ := returns
  refine ⟨deep, fun depth enough => ?_⟩
  show (call depth).map f = some (f b)
  rw [returns depth enough, Option.map_some]

/-- One call after the other. -/
theorem bind {next : β → Nat → Option γ} {c : γ} (first : Returns call b)
    (second : Returns (next b) c) :
    Returns (fun depth => (call depth).bind fun x => next x depth) c := by
  obtain ⟨m, first⟩ := first
  obtain ⟨n, second⟩ := second
  refine ⟨max m n, fun depth enough => ?_⟩
  show (call depth).bind _ = some c
  rw [first depth (Nat.le_trans (Nat.le_max_left m n) enough), Option.bind_some,
    second depth (Nat.le_trans (Nat.le_max_right m n) enough)]

/-- The second of two calls, when the first one returns. -/
theorem of_bind {next : β → Nat → Option γ} {c : γ} (first : Returns call b)
    (both : Returns (fun depth => (call depth).bind fun x => next x depth) c) :
    Returns (next b) c := by
  obtain ⟨m, first⟩ := first
  obtain ⟨n, both⟩ := both
  refine ⟨max m n, fun depth enough => ?_⟩
  have here := both depth (Nat.le_trans (Nat.le_max_right m n) enough)
  simp only [first depth (Nat.le_trans (Nat.le_max_left m n) enough), Option.bind_some] at here
  exact here

/-- Calls for all things of a list. -/
theorem mapM {δ : Type} {call : Nat → δ → Option β} {values : δ → β} {es : List δ}
    (each : ∀ e ∈ es, Returns (call · e) (values e)) :
    Returns (fun depth => es.mapM (call depth)) (es.map values) := by
  induction es with
  | nil => exact ⟨0, fun depth _ => by simp⟩
  | cons e rest ih =>
    obtain ⟨m, here⟩ := each e (List.mem_cons_self ..)
    obtain ⟨n, later⟩ := ih fun f member => each f (List.mem_cons_of_mem e member)
    refine ⟨max m n, fun depth enough => ?_⟩
    have first := here depth (Nat.le_trans (Nat.le_max_left m n) enough)
    have others := later depth (Nat.le_trans (Nat.le_max_right m n) enough)
    simp only at first others
    simp [List.mapM_cons, first, others]

/-- A recursive call that goes on with lesser things returns for each of them, and its values
satisfy the equation of the recursion. -/
theorem exists_of_wellFounded {δ : Type} [Nonempty β] {lesser : δ → δ → Prop}
    (wellFounded : WellFounded lesser) {call : Nat → δ → Option β} (combine : (δ → β) → δ → β)
    (step : ∀ values d, (∀ e, lesser e d → Returns (call · e) (values e)) →
      Returns (call · d) (combine values d)) :
    ∃ values : δ → β, (∀ d, Returns (call · d) (values d)) ∧
      ∀ d, values d = combine values d := by
  have each (d : δ) : ∃ b, Returns (call · d) b := by
    induction d using wellFounded.induction with
    | _ d ih =>
      -- a value for each lesser thing, and any for the others
      have some (e : δ) : ∃ b, lesser e d → Returns (call · e) b := by
        by_cases below : lesser e d
        · obtain ⟨b, returns⟩ := ih e below
          exact ⟨b, fun _ => returns⟩
        · exact ⟨Classical.arbitrary β, fun holds => absurd holds below⟩
      choose values lower using some
      exact ⟨_, step values d lower⟩
  choose values returns using each
  refine ⟨values, returns, fun d => ?_⟩
  exact (returns d).unique (step values d fun e _ => returns e)

/-- A call that returns, returns with some stack. -/
theorem exists_some (returns : Returns call b) : ∃ depth, call depth = some b := by
  obtain ⟨deep, returns⟩ := returns
  exact ⟨deep, returns deep (Nat.le_refl deep)⟩

end Returns

/-- A call that returns nothing on any stack. -/
theorem not_terminates_of_none {call : Nat → Option β} (never : ∀ depth, call depth = none) :
    ¬ Terminates call := by
  rintro ⟨b, deep, returns⟩
  have here := returns deep (Nat.le_refl deep)
  simp [never] at here

end Calls

/-! ## Ranks -/

/-- Where nothing is below itself and finitely many things are below others, each thing has a
rank above those below it, and the ranks have a bound. -/
theorem exists_rank {τ : Type} {below : τ → τ → Prop} {things : List τ}
    (finite : ∀ m n, below m n → m ∈ things)
    (acyclic : ∀ n, ¬ Relation.TransGen below n n) :
    ∃ (rank : τ → Nat) (bound : Nat),
      (∀ m n, below m n → rank m < rank n) ∧ ∀ n, rank n ≤ bound := by
  let down (n : τ) : Set τ := {m | Relation.TransGen below m n}
  have inside (n : τ) : down n ⊆ {m | m ∈ things} := by
    intro m lower
    obtain ⟨k, first, -⟩ := Relation.TransGen.head'_iff.mp lower
    exact finite m k first
  have all : {m | m ∈ things}.Finite := List.finite_toSet things
  refine ⟨fun n => (down n).ncard, {m | m ∈ things}.ncard, fun m n first => ?_, fun n =>
    Set.ncard_le_ncard (inside n) all⟩
  -- `m` itself is below `n`, and not below `m`
  apply Set.ncard_lt_ncard ?_ (all.subset (inside n))
  constructor
  · exact fun k lower => lower.tail first
  · exact fun same => acyclic m (same (.single first))

/-! ## Names and parents -/

structure Hierarchy (τ δ : Type) where
  parents : δ → List τ
  get : τ → Option δ

namespace Hierarchy

variable {τ δ : Type} (h : Hierarchy τ δ)

/-- A parent of a thing that its name stands for. -/
def Parent (e d : δ) : Prop := ∃ p ∈ h.parents d, h.get p = some e

/-- The name is that of a parent, or of a parent's ancestor. -/
inductive Derives : δ → τ → Prop where
  | named {d : δ} {p : τ} (member : p ∈ h.parents d) : Derives d p
  | inherited {d e : δ} {p t : τ} (member : p ∈ h.parents d) (found : h.get p = some e)
    (derives : Derives e t) : Derives d t

/-- No thing is its own ancestor. -/
def Acyclic : Prop := ∀ p e, h.get p = some e → ¬ h.Derives e p

variable {h}

/-- What a parent derives from is inherited, and its name too. -/
theorem Derives.trans {d e : δ} {p t : τ} (derives : h.Derives d p) (found : h.get p = some e)
    (more : h.Derives e t) : h.Derives d t := by
  induction derives with
  | named member => exact .inherited member found more
  | inherited member here _ ih => exact .inherited member here (ih found)

/-- A hierarchy is without cycles when the names of parents have a lower rank. -/
theorem acyclic_of_rank (rank : τ → Nat)
    (lower : ∀ p e, h.get p = some e → ∀ q ∈ h.parents e, (h.get q).isSome →
      rank q < rank p) : h.Acyclic := by
  have below {e : δ} {t : τ} (derives : h.Derives e t) (n : Nat)
      (bound : ∀ q ∈ h.parents e, (h.get q).isSome → rank q < n) (known : (h.get t).isSome) :
      rank t < n := by
    induction derives generalizing n with
    | named member => exact bound _ member known
    | inherited member found _ ih =>
      have through := bound _ member (by rw [found]; rfl)
      exact Nat.lt_trans (ih _ (lower _ _ found) known) through
  intro p e found derives
  have known : (h.get p).isSome := by rw [found]; rfl
  exact absurd (below derives (rank p) (lower p e found) known) (Nat.lt_irrefl _)

/-- Nothing from a thing upwards is its own ancestor. -/
def NoLoop (h : Hierarchy τ δ) (d : δ) : Prop :=
  ∀ e, Relation.ReflTransGen h.Parent e d → ¬ Relation.TransGen h.Parent e e

/-- Where finitely many names stand for something, going up from a thing ends just when it comes
to no loop. -/
theorem acc_iff_noLoop {names : List τ} (finite : ∀ p, (h.get p).isSome → p ∈ names) {d : δ} :
    Acc h.Parent d ↔ h.NoLoop d := by
  constructor
  · intro ends e up loop
    have above : Acc (Relation.TransGen h.Parent) e := by
      rcases Relation.reflTransGen_iff_eq_or_transGen.mp up with rfl | strictly
      · exact ends.transGen
      · exact ends.transGen.inv strictly
    induction above with
    | intro e _ ih => exact ih e loop up loop
  · intro none'
    -- the things from `d` upwards are finitely many
    let Up := {e | Relation.ReflTransGen h.Parent e d}
    let Above (e f : Up) : Prop := Relation.TransGen h.Parent e.1 f.1
    have : Finite Up := by
      apply (Set.Finite.insert d (List.finite_toSet (names.filterMap h.get))).subset
      intro e up
      rcases Relation.ReflTransGen.cases_head up with rfl | ⟨f, ⟨p, -, found⟩, -⟩
      · exact Set.mem_insert ..
      · have known : (h.get p).isSome := by rw [found]; rfl
        exact Set.mem_insert_of_mem _ (List.mem_filterMap.mpr ⟨p, finite p known, found⟩)
    have : IsTrans Up Above := ⟨fun _ _ _ => Relation.TransGen.trans⟩
    have : Std.Irrefl Above := ⟨fun e => none' e.1 e.2⟩
    have above : WellFounded Above := Finite.wellFounded_of_trans_of_irrefl Above
    have each (e : Up) : Acc h.Parent e.1 := by
      induction e using above.induction with
      | _ e ih =>
        constructor
        intro f parent
        exact ih ⟨f, .head parent e.2⟩ (.single parent)
    exact each ⟨d, .refl⟩

/-- What a name that is derived from stands for is an ancestor. -/
theorem Derives.transGen {d e : δ} {p : τ} (derives : h.Derives d p) (found : h.get p = some e) :
    Relation.TransGen h.Parent e d := by
  induction derives with
  | named member => exact .single ⟨_, member, found⟩
  | inherited member here _ ih => exact (ih found).tail ⟨_, member, here⟩

theorem derives_of_transGen {d e : δ} (up : Relation.TransGen h.Parent e d) :
    ∃ p, h.get p = some e ∧ h.Derives d p := by
  induction up with
  | single parent =>
    obtain ⟨p, member, found⟩ := parent
    exact ⟨p, found, .named member⟩
  | tail _ parent ih =>
    obtain ⟨p, found, derives⟩ := ih
    obtain ⟨q, member, here⟩ := parent
    exact ⟨p, found, .inherited member here derives⟩

theorem acyclic_iff_noLoop : h.Acyclic ↔ ∀ d, h.NoLoop d := by
  constructor
  · intro acyclic d e _ loop
    obtain ⟨p, found, derives⟩ := derives_of_transGen loop
    exact acyclic p e found derives
  · intro none' p e found derives
    exact none' e e .refl (derives.transGen found)

/-- Where finitely many names stand for something and nothing is its own ancestor, going up
ends. -/
theorem wellFounded_parent (acyclic : h.Acyclic) {names : List τ}
    (finite : ∀ p, (h.get p).isSome → p ∈ names) : WellFounded h.Parent :=
  ⟨fun d => (acc_iff_noLoop finite).mpr (acyclic_iff_noLoop.mp acyclic d)⟩

end Hierarchy

end VRJuggler
