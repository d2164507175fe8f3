import Mathlib.Data.Finset.Card
import Mathlib.Data.Set.Finite.Basic
import Mathlib.Logic.Function.Basic
import Mathlib.Logic.Relation
import VRJuggler.Base.Hierarchy

/-!
# Updates in depth first

Things have data that they compute from the data of others. The update of a marked thing takes the
mark away, updates what the thing reads, and only then computes; at other things it only peeks, as
they are. Where things read each other in a circle, one of them reads what is not up to date; the
data of a thing on no circle that does not peek are computed from the last data of all that it
reads, in whatever order the updates are asked for.
-/
namespace VRJuggler

/-- What a thing reads, in this order, what it peeks at, and what it makes of its own data and
those of others. -/
structure Updates (ν α : Type) where
  reads : ν → List ν
  peeks : ν → List ν
  compute : ν → α → (ν → α) → α
  compute_congr : ∀ n own f g, (∀ r ∈ reads n ++ peeks n, f r = g r) →
    compute n own f = compute n own g

/-- The marks and the data of all things, and the things updated so far, the last one at the
end. -/
structure Marks (ν α : Type) where
  marked : ν → Bool
  data : ν → α
  done : List ν

variable {ν α : Type} [DecidableEq ν]

namespace Marks

def unmark (s : Marks ν α) (n : ν) : Marks ν α :=
  { s with marked := Function.update s.marked n false }

def finish (s : Marks ν α) (n : ν) (a : α) : Marks ν α :=
  { s with data := Function.update s.data n a, done := s.done ++ [n] }

@[simp] theorem data_unmark (s : Marks ν α) (n : ν) : (s.unmark n).data = s.data := rfl

end Marks

namespace Updates

variable (u : Updates ν α)

/-- One update, with the depth of the stack that is left. -/
def visit : Nat → Marks ν α → ν → Option (Marks ν α)
  | 0, _, _ => none
  | depth + 1, s, n =>
    if s.marked n then
      ((u.reads n).foldlM (visit depth) (s.unmark n)).map fun s' =>
        s'.finish n (u.compute n (s.data n) s'.data)
    else some s

def visitAll (depth : Nat) (s : Marks ν α) (roots : List ν) : Option (Marks ν α) :=
  roots.foldlM (u.visit depth) s

def Reads (n r : ν) : Prop := r ∈ u.reads n

/-- The thing is computed from its own data by way of others. -/
def OnCircle (n : ν) : Prop := Relation.TransGen u.Reads n n

/-- A step to a thing that was marked at first. -/
def MarkedRead (s₀ : Marks ν α) (n r : ν) : Prop := u.Reads n r ∧ s₀.marked r = true

/-- The thing is come to from one of the roots, by marked things only. -/
def Reached (s₀ : Marks ν α) (roots : List ν) (m : ν) : Prop :=
  ∃ n ∈ roots, s₀.marked n = true ∧ Relation.ReflTransGen (u.MarkedRead s₀) n m

/-- The update of the thing was begun and has not ended. -/
def InProgress (s₀ s : Marks ν α) (p : ν) : Prop :=
  s₀.marked p = true ∧ s.marked p = false ∧ p ∉ s.done

/-- The data that are seen when these things are done. -/
def seen (s₀ s : Marks ν α) (earlier : List ν) (r : ν) : α :=
  if r ∈ earlier then s.data r else s₀.data r

/-- Part of the way from `s₀`. -/
structure Running (s₀ s : Marks ν α) : Prop where
  fewer : ∀ m, s.marked m = true → s₀.marked m = true
  marked : ∀ m ∈ s.done, s₀.marked m = true ∧ s.marked m = false
  nodup : s.done.Nodup
  kept : ∀ m, m ∉ s.done → s.data m = s₀.data m
  reads : ∀ m ∈ s.done, ∀ r ∈ u.reads m, s.marked r = false
  before : ∀ earlier m later, s.done = earlier ++ m :: later → ∀ r ∈ u.reads m,
    r ∈ earlier ∨ s₀.marked r = false ∨ Relation.TransGen u.Reads r m
  computed : ∀ earlier m later, s.done = earlier ++ m :: later →
    s.data m = u.compute m (s₀.data m) (seen s₀ s earlier)

/-- The whole way from `s₀`, when updates of these roots were asked for. -/
structure Updated (s₀ : Marks ν α) (roots : List ν) (s : Marks ν α) : Prop where
  nodup : s.done.Nodup
  done_iff : ∀ m, m ∈ s.done ↔ u.Reached s₀ roots m
  marked_iff : ∀ m, s.marked m = true ↔ s₀.marked m = true ∧ ¬ u.Reached s₀ roots m
  kept : ∀ m, ¬ u.Reached s₀ roots m → s.data m = s₀.data m
  before : ∀ earlier m later, s.done = earlier ++ m :: later → ∀ r ∈ u.reads m,
    r ∈ earlier ∨ s₀.marked r = false ∨ Relation.TransGen u.Reads r m
  computed : ∀ earlier m later, s.done = earlier ++ m :: later →
    s.data m = u.compute m (s₀.data m) (seen s₀ s earlier)

variable {u}

/-! ## Marks -/

theorem Marks.marked_unmark {s : Marks ν α} {n m : ν} :
    (s.unmark n).marked m = true ↔ s.marked m = true ∧ m ≠ n := by
  by_cases same : m = n
  · simp [Marks.unmark, same]
  · simp [Marks.unmark, same]

/-! ## Ends -/

/-- A stack as deep as there are marks is enough, and marks are only taken away. -/
theorem visit_some (depth : Nat) : ∀ (s : Marks ν α) (n : ν) (marks : Finset ν),
    (∀ m, s.marked m = true → m ∈ marks) → marks.card < depth →
      ∃ s', u.visit depth s n = some s' ∧ ∀ m, s'.marked m = true → s.marked m = true := by
  induction depth with
  | zero => intro s n marks _ few; exact absurd few (Nat.not_lt_zero _)
  | succ depth ih =>
    intro s n marks covers few
    by_cases here : s.marked n = true
    · -- one mark less for all that `n` reads
      have fewer : (marks.erase n).card < depth := by
        have := Finset.card_erase_lt_of_mem (covers n here)
        omega
      have each (rs : List ν) : ∀ t : Marks ν α, (∀ m, t.marked m = true → m ∈ marks.erase n) →
          ∃ t', rs.foldlM (u.visit depth) t = some t' ∧
            ∀ m, t'.marked m = true → t.marked m = true := by
        induction rs with
        | nil => exact fun t _ => ⟨t, rfl, fun _ h => h⟩
        | cons r rest later =>
          intro t inside
          obtain ⟨t₁, first, less⟩ := ih t r _ inside fewer
          obtain ⟨t₂, others, least⟩ := later t₁ fun m marked => inside m (less m marked)
          refine ⟨t₂, ?_, fun m marked => less m (least m marked)⟩
          simp [List.foldlM_cons, first, others]
      obtain ⟨s₂, folded, less⟩ := each (u.reads n) (s.unmark n) fun m marked => by
        obtain ⟨marked, other⟩ := Marks.marked_unmark.mp marked
        exact Finset.mem_erase.mpr ⟨other, covers m marked⟩
      refine ⟨_, by simp [visit, here, folded]; rfl, fun m marked => ?_⟩
      exact (Marks.marked_unmark.mp (less m marked)).1
    · exact ⟨s, by simp [visit, here], fun _ h => h⟩

theorem visitAll_some {s : Marks ν α} {marks : Finset ν}
    (covers : ∀ m, s.marked m = true → m ∈ marks) {depth : Nat} (few : marks.card < depth)
    (roots : List ν) : ∃ s', u.visitAll depth s roots = some s' := by
  induction roots generalizing s with
  | nil => exact ⟨s, rfl⟩
  | cons n rest ih =>
    obtain ⟨s₁, first, less⟩ := visit_some (u := u) depth s n marks covers few
    obtain ⟨s₂, others⟩ := ih fun m marked => covers m (less m marked)
    exact ⟨s₂, by simpa [visitAll, List.foldlM_cons, first] using others⟩

/-- A deeper stack changes nothing. -/
theorem visitAll_mono_of {depth : Nat}
    (each : ∀ (s : Marks ν α) n s', u.visit depth s n = some s' → u.visit (depth + 1) s n = some s')
    (roots : List ν) (s s' : Marks ν α) (visited : u.visitAll depth s roots = some s') :
    u.visitAll (depth + 1) s roots = some s' := by
  induction roots generalizing s with
  | nil => exact visited
  | cons n rest ih =>
    simp only [visitAll, List.foldlM_cons] at visited ih ⊢
    obtain ⟨s₁, first, others⟩ := Option.bind_eq_some_iff.mp visited
    exact Option.bind_eq_some_iff.mpr ⟨s₁, each s n s₁ first, ih s₁ others⟩

theorem visit_mono (depth : Nat) : ∀ (s : Marks ν α) n s',
    u.visit depth s n = some s' → u.visit (depth + 1) s n = some s' := by
  induction depth with
  | zero => intro s n s' visited; simp [visit] at visited
  | succ depth ih =>
    intro s n s' visited
    rw [visit] at visited ⊢
    by_cases here : s.marked n = true
    · simp only [here, if_true, Option.map_eq_some_iff] at visited ⊢
      obtain ⟨s₂, folded, last⟩ := visited
      exact ⟨s₂, visitAll_mono_of ih (u.reads n) _ s₂ folded, last⟩
    · simpa [here] using visited

theorem visitAll_mono (depth : Nat) (roots : List ν) (s s' : Marks ν α)
    (visited : u.visitAll depth s roots = some s') : u.visitAll (depth + 1) s roots = some s' :=
  visitAll_mono_of (visit_mono depth) roots s s' visited

/-! ## One update -/

theorem Running.start {s₀ : Marks ν α} (none' : s₀.done = []) : u.Running s₀ s₀ where
  fewer := fun _ h => h
  marked := by simp [none']
  nodup := by simp [none']
  kept := fun _ _ => rfl
  reads := by simp [none']
  before := by simp [none']
  computed := by simp [none']

/-- The thing whose update begins comes to those in progress. -/
theorem inProgress_unmark {s₀ s : Marks ν α} (running : u.Running s₀ s) {n : ν}
    (here : s.marked n = true) (p : ν) :
    InProgress s₀ (s.unmark n) p ↔ InProgress s₀ s p ∨ p = n := by
  by_cases same : p = n
  · subst same
    have before := running.fewer p here
    have fresh : p ∉ s.done := fun done => by simp [(running.marked p done).2] at here
    simp [InProgress, Marks.unmark, before, fresh]
  · simp [InProgress, Marks.unmark, same]

theorem Running.unmark {s₀ s : Marks ν α} (running : u.Running s₀ s) (n : ν) :
    u.Running s₀ (s.unmark n) := by
  have still {m : ν} (gone : s.marked m = false) : (s.unmark n).marked m = false := by
    rw [← Bool.not_eq_true, Marks.marked_unmark]
    simp [gone]
  exact {
    fewer := fun m marked => running.fewer m (Marks.marked_unmark.mp marked).1
    marked := fun m done => ⟨(running.marked m done).1, still (running.marked m done).2⟩
    nodup := running.nodup
    kept := running.kept
    reads := fun m done r member => still (running.reads m done r member)
    before := running.before
    computed := running.computed }

omit [DecidableEq ν] in
/-- In a list that was made longer, a place is the last one or one of before. -/
theorem snoc_eq_append_cons {xs earlier later : List ν} {n m : ν}
    (parts : xs ++ [n] = earlier ++ m :: later) :
    (m = n ∧ earlier = xs) ∨ ∃ later', xs = earlier ++ m :: later' := by
  rcases List.eq_nil_or_concat later with rfl | ⟨front, last, rfl⟩
  · obtain ⟨same, here⟩ := List.append_inj' parts rfl
    exact .inl ⟨(List.singleton_inj.mp here).symm, same.symm⟩
  · right
    rw [List.concat_eq_append, ← List.cons_append, ← List.append_assoc] at parts
    exact ⟨front, (List.append_inj' parts rfl).1⟩

/-- The thing whose update ends has read what it reads, and whoever still is in progress comes
to it. -/
theorem Running.finish {s₀ s : Marks ν α} (running : u.Running s₀ s) {n : ν}
    (begun : InProgress s₀ s n) (read : ∀ r ∈ u.reads n, s.marked r = false)
    (above : ∀ p, InProgress s₀ s p → p = n ∨ Relation.TransGen u.Reads p n) :
    u.Running s₀ (s.finish n (u.compute n (s₀.data n) s.data)) := by
  obtain ⟨before, gone, fresh⟩ := begun
  have others {m : ν} (other : m ≠ n) :
      (s.finish n (u.compute n (s₀.data n) s.data)).data m = s.data m := by
    simp [Marks.finish, other]
  have done_iff (m : ν) : m ∈ (s.finish n (u.compute n (s₀.data n) s.data)).done ↔
      m ∈ s.done ∨ m = n := by simp [Marks.finish]
  constructor
  case fewer => exact running.fewer
  case marked =>
    intro m done
    rcases (done_iff m).mp done with done | rfl
    · exact running.marked m done
    · exact ⟨before, gone⟩
  case nodup =>
    refine List.nodup_append.mpr ⟨running.nodup, List.nodup_singleton n, ?_⟩
    intro m done k member same
    rw [List.mem_singleton] at member
    exact fresh (by rwa [← member, ← same])
  case kept =>
    intro m open'
    have apart : m ∉ s.done ∧ m ≠ n := by
      constructor
      · exact fun done => open' ((done_iff m).mpr (.inl done))
      · exact fun same => open' ((done_iff m).mpr (.inr same))
    rw [others apart.2, running.kept m apart.1]
  case reads =>
    intro m done r member
    rcases (done_iff m).mp done with done | rfl
    · exact running.reads m done r member
    · exact read r member
  case before =>
    intro earlier m later parts r member
    rcases snoc_eq_append_cons parts with ⟨rfl, rfl⟩ | ⟨later', parts⟩
    · by_cases finished : r ∈ s.done
      · exact .inl finished
      · cases known : s₀.marked r with
        | false => exact .inr (.inl rfl)
        | true =>
          rcases above r ⟨known, read r member, finished⟩ with rfl | up
          · exact .inr (.inr (.single member))
          · exact .inr (.inr up)
    · exact running.before earlier m later' parts r member
  case computed =>
    intro earlier m later whole
    rcases snoc_eq_append_cons whole with ⟨rfl, rfl⟩ | ⟨later', parts⟩
    · -- what is not done has the data of the start
      have now : seen s₀ (s.finish m (u.compute m (s₀.data m) s.data)) s.done = s.data := by
        funext r
        by_cases finished : r ∈ s.done
        · have other : r ≠ m := fun same => fresh (by rwa [← same])
          rw [seen, if_pos finished, others other]
        · rw [seen, if_neg finished, running.kept r finished]
      rw [now]
      simp [Marks.finish]
    · have older {r : ν} (member : r ∈ earlier ∨ r = m) : r ≠ n := by
        rintro rfl
        apply fresh
        rw [parts]
        rcases member with first | same
        · exact List.mem_append_left _ first
        · simp [same]
      have same : seen s₀ (s.finish n (u.compute n (s₀.data n) s.data)) earlier =
          seen s₀ s earlier := by
        funext r
        by_cases member : r ∈ earlier
        · rw [seen, seen, if_pos member, if_pos member, others (older (.inl member))]
        · rw [seen, seen, if_neg member, if_neg member]
      rw [others (older (.inr rfl)), running.computed earlier m later' parts, same]

/-- What is done stays done, in its place. -/
theorem prefix_of_fold {depth : Nat}
    (each : ∀ (s : Marks ν α) n s', u.visit depth s n = some s' → s.done <+: s'.done)
    (rs : List ν) (s s' : Marks ν α) (folded : rs.foldlM (u.visit depth) s = some s') :
    s.done <+: s'.done := by
  induction rs generalizing s with
  | nil =>
    obtain rfl : s = s' := by simpa using folded
    exact List.prefix_rfl
  | cons n rest ih =>
    rw [List.foldlM_cons] at folded
    obtain ⟨s₁, first, others⟩ := Option.bind_eq_some_iff.mp folded
    exact (each s n s₁ first).trans (ih s₁ others)

theorem prefix_of_visit (depth : Nat) : ∀ (s : Marks ν α) n s', u.visit depth s n = some s' →
    s.done <+: s'.done := by
  induction depth with
  | zero => intro s n s' visited; simp [visit] at visited
  | succ depth ih =>
    intro s n s' visited
    rw [visit] at visited
    split at visited
    · obtain ⟨s₂, folded, rfl⟩ := Option.map_eq_some_iff.mp visited
      have front : s.done <+: s₂.done := prefix_of_fold ih (u.reads n) (s.unmark n) s₂ folded
      exact front.trans (List.prefix_append ..)
    · rw [Option.some.inj visited]

/-- What one update leads to. -/
structure Visited (u : Updates ν α) (s₀ s : Marks ν α) (n : ν) (s' : Marks ν α) : Prop where
  running : u.Running s₀ s'
  inProgress : ∀ p, InProgress s₀ s' p ↔ InProgress s₀ s p
  unmarked : s'.marked n = false
  fewer : ∀ m, s'.marked m = true → s.marked m = true
  reached : ∀ m ∈ s'.done, m ∈ s.done ∨
    s₀.marked n = true ∧ Relation.ReflTransGen (u.MarkedRead s₀) n m

/-- One update after the other. -/
theorem visited_fold {s₀ : Marks ν α} {depth : Nat}
    (each : ∀ s n s', u.Running s₀ s →
      (∀ p, InProgress s₀ s p → Relation.TransGen u.Reads p n) →
      u.visit depth s n = some s' → Visited u s₀ s n s') (rs : List ν) :
    ∀ s s', u.Running s₀ s → (∀ p, InProgress s₀ s p → ∀ r ∈ rs, Relation.TransGen u.Reads p r) →
      rs.foldlM (u.visit depth) s = some s' →
      u.Running s₀ s' ∧ (∀ p, InProgress s₀ s' p ↔ InProgress s₀ s p) ∧
        (∀ r ∈ rs, s'.marked r = false) ∧ (∀ m, s'.marked m = true → s.marked m = true) ∧
        ∀ m ∈ s'.done, m ∈ s.done ∨ u.Reached s₀ rs m := by
  induction rs with
  | nil =>
    intro s s' running _ folded
    obtain rfl : s = s' := by simpa using folded
    exact ⟨running, fun _ => Iff.rfl, nofun, fun _ h => h, fun _ h => .inl h⟩
  | cons r rest ih =>
    intro s s' running above folded
    rw [List.foldlM_cons] at folded
    obtain ⟨s₁, first, others⟩ := Option.bind_eq_some_iff.mp folded
    have here := each s r s₁ running (fun p open' => above p open' r (List.mem_cons_self ..)) first
    obtain ⟨runs, same, unmarked, fewer, reached⟩ := ih s₁ s' here.running (by
      intro p open' q member
      exact above p ((here.inProgress p).mp open') q (List.mem_cons_of_mem r member)) others
    refine ⟨runs, fun p => (same p).trans (here.inProgress p), ?_,
      fun m marked => here.fewer m (fewer m marked), ?_⟩
    · intro q member
      rcases List.mem_cons.mp member with rfl | member
      · rw [← Bool.not_eq_true]
        intro marked
        have before := fewer q marked
        rw [here.unmarked] at before
        exact Bool.false_ne_true before
      · exact unmarked q member
    · intro m done
      rcases reached m done with done | ⟨q, member, marked, way⟩
      · rcases here.reached m done with done | ⟨marked, way⟩
        · exact .inl done
        · exact .inr ⟨r, List.mem_cons_self .., marked, way⟩
      · exact .inr ⟨q, List.mem_cons_of_mem r member, marked, way⟩

theorem visited_visit {s₀ : Marks ν α} (depth : Nat) : ∀ s n s', u.Running s₀ s →
    (∀ p, InProgress s₀ s p → Relation.TransGen u.Reads p n) →
    u.visit depth s n = some s' → Visited u s₀ s n s' := by
  induction depth with
  | zero => intro s n s' _ _ visited; simp [visit] at visited
  | succ depth ih =>
    intro s n s' running above visited
    by_cases here : s.marked n = true
    · have before := running.fewer n here
      have fresh : n ∉ s.done := fun done => by simp [(running.marked n done).2] at here
      simp only [visit, here, if_true, Option.map_eq_some_iff] at visited
      obtain ⟨s₂, folded, rfl⟩ := visited
      rw [running.kept n fresh]
      have now := inProgress_unmark running here
      obtain ⟨runs, same, unmarked, fewer, reached⟩ :=
        visited_fold ih (u.reads n) (s.unmark n) s₂ (running.unmark n) (by
          intro p open' r member
          rcases (now p).mp open' with open' | rfl
          · exact (above p open').tail member
          · exact .single member) folded
      have begun : InProgress s₀ s₂ n := (same n).mpr ((now n).mpr (.inr rfl))
      have ended := runs.finish begun unmarked fun p open' =>
        ((now p).mp ((same p).mp open')).elim (fun open' => .inr (above p open')) .inl
      refine ⟨ended, fun p => ?_, begun.2.1, fun m marked =>
        (Marks.marked_unmark.mp (fewer m marked)).1, fun m done => ?_⟩
      · -- in progress are those before, for `n` itself has ended
        have apart : InProgress s₀ s p → p ≠ n := by
          rintro ⟨-, gone, -⟩ rfl
          simp [here] at gone
        have still := (same p).trans (now p)
        simp only [InProgress, Marks.finish, List.mem_append, List.mem_singleton, not_or]
          at still apart ⊢
        constructor
        · rintro ⟨known, gone, fresh, other⟩
          exact (still.mp ⟨known, gone, fresh⟩).resolve_right other
        · intro open'
          obtain ⟨known, gone, fresh⟩ := still.mpr (.inl open')
          exact ⟨known, gone, fresh, apart open'⟩
      · rcases List.mem_append.mp done with done | last
        · rcases reached m done with done | ⟨r, member, marked, way⟩
          · exact .inl done
          · exact .inr ⟨before, .head ⟨member, marked⟩ way⟩
        · rw [List.mem_singleton.mp last]
          exact .inr ⟨before, .refl⟩
    · -- nothing is done for a thing without a mark
      obtain rfl : s = s' := by simpa [visit, here] using visited
      exact ⟨running, fun _ => Iff.rfl, Bool.eq_false_of_not_eq_true here, fun _ h => h,
        fun _ h => .inl h⟩

/-! ## All updates -/

/-- The things come to from the roots are updated, each once and with the last data of what it
reads; everything else is as before. -/
theorem updated_visitAll {s₀ s : Marks ν α} (none' : s₀.done = []) {depth : Nat} {roots : List ν}
    (visited : u.visitAll depth s₀ roots = some s) : u.Updated s₀ roots s := by
  have quiet (p : ν) : ¬ InProgress s₀ s₀ p := by
    rintro ⟨marked, unmarked, -⟩
    simp [marked] at unmarked
  obtain ⟨running, same, unmarked, fewer, reached⟩ :=
    visited_fold (visited_visit depth) roots s₀ s (Running.start none')
      (fun p open' => absurd open' (quiet p)) visited
  -- what has lost its mark is done
  have ended {m : ν} (known : s₀.marked m = true) (gone : s.marked m = false) : m ∈ s.done := by
    by_contra fresh
    exact quiet m ((same m).mp ⟨known, gone, fresh⟩)
  have done_iff (m : ν) : m ∈ s.done ↔ u.Reached s₀ roots m := by
    constructor
    · intro done
      exact (reached m done).resolve_left (by simp [none'])
    · rintro ⟨n, member, marked, way⟩
      induction way with
      | refl => exact ended marked (unmarked n member)
      | tail _ read ih => exact ended read.2 (running.reads _ ih _ read.1)
  constructor
  case nodup => exact running.nodup
  case done_iff => exact done_iff
  case marked_iff =>
    intro m
    rw [← done_iff]
    constructor
    · intro marked
      refine ⟨fewer m marked, fun done => ?_⟩
      simp [(running.marked m done).2] at marked
    · rintro ⟨known, fresh⟩
      by_contra gone
      exact fresh (ended known (Bool.eq_false_of_not_eq_true gone))
  case kept => exact fun m away => running.kept m (mt (done_iff m).mp away)
  case before => exact running.before
  case computed => exact running.computed

/-- With finitely many marks, the updates end. -/
theorem returns_visitAll {s₀ : Marks ν α} (none' : s₀.done = []) {marks : Finset ν}
    (covers : ∀ m, s₀.marked m = true → m ∈ marks) (roots : List ν) :
    ∃ s, Returns (fun depth => u.visitAll depth s₀ roots) s ∧ u.Updated s₀ roots s := by
  obtain ⟨s, ends⟩ := visitAll_some (u := u) covers (Nat.lt_succ_self _) roots
  exact ⟨s, Returns.of_mono (fun depth => visitAll_mono depth roots s₀) _ ends,
    updated_visitAll none' ends⟩

omit [DecidableEq ν] in
/-- What was unmarked at the start is not come to. -/
theorem not_reached_of_unmarked {s₀ : Marks ν α} {roots : List ν} {r : ν}
    (unmarked : s₀.marked r = false) : ¬ u.Reached s₀ roots r := by
  rintro ⟨q, -, known, walk⟩
  rcases Relation.ReflTransGen.cases_tail walk with rfl | ⟨b, -, last⟩
  · simp [known] at unmarked
  · simp [last.2] at unmarked

/-- What an updated thing reads has no mark at the end. -/
theorem Updated.unmarked_reads {s₀ s : Marks ν α} {roots : List ν}
    (updated : u.Updated s₀ roots s) {n r : ν} (here : u.Reached s₀ roots n)
    (member : r ∈ u.reads n) : s.marked r = false := by
  rw [← Bool.not_eq_true, updated.marked_iff]
  rintro ⟨marked, away⟩
  obtain ⟨q, root, known, way⟩ := here
  exact away ⟨q, root, known, way.tail ⟨member, marked⟩⟩

/-- Away from circles, a thing that does not peek has computed its data from the last data of what
it reads. -/
theorem Updated.fresh {s₀ s : Marks ν α} {roots : List ν} (updated : u.Updated s₀ roots s) {n : ν}
    (here : u.Reached s₀ roots n) (straight : ¬ u.OnCircle n) (noPeek : u.peeks n = []) :
    s.data n = u.compute n (s₀.data n) s.data := by
  obtain ⟨earlier, later, parts⟩ := List.append_of_mem ((updated.done_iff n).mpr here)
  rw [updated.computed earlier n later parts]
  apply u.compute_congr
  intro r member
  rw [noPeek, List.append_nil] at member
  rcases updated.before earlier n later parts r member with done | unmarked | up
  · rw [seen, if_pos done]
  · -- what had no mark keeps its data
    have kept := updated.kept r (not_reached_of_unmarked unmarked)
    rw [seen, kept, ite_self]
  · exact absurd (up.head member) straight

/-- A thing that reads nothing, and is not come to from the roots before it, is done after what is
come to from them. -/
theorem done_in_turn {s₀ s : Marks ν α} (none' : s₀.done = []) {depth : Nat} {front back : List ν}
    {n : ν} (visited : u.visitAll depth s₀ (front ++ n :: back) = some s)
    (marked : s₀.marked n = true) (apart : ¬ u.Reached s₀ front n) (leaf : u.reads n = []) :
    ∃ earlier later, s.done = earlier ++ n :: later ∧
      ∀ r, r ∈ earlier ↔ u.Reached s₀ front r := by
  rw [visitAll, List.foldlM_append] at visited
  obtain ⟨s₁, first, visited⟩ := Option.bind_eq_some_iff.mp visited
  rw [List.foldlM_cons] at visited
  obtain ⟨s₂, turn, rest⟩ := Option.bind_eq_some_iff.mp visited
  have before := updated_visitAll none' first
  have still : s₁.marked n = true := (before.marked_iff n).mpr ⟨marked, apart⟩
  -- the update of `n` ends at once
  have now : s₂.done = s₁.done ++ [n] := by
    cases depth with
    | zero => simp [visit] at turn
    | succ depth =>
      simp only [visit, still, leaf, if_true, List.foldlM_nil, Option.pure_def, Option.map_some,
        Option.some.injEq] at turn
      rw [← turn]
      rfl
  obtain ⟨later, more⟩ := prefix_of_fold (prefix_of_visit depth) back s₂ s rest
  exact ⟨s₁.done, later, by rw [← more, now, List.append_assoc]; rfl, before.done_iff⟩

omit [DecidableEq ν] in
theorem reached_congr {s₀ s₀' : Marks ν α} {roots roots' : List ν}
    (marked : s₀.marked = s₀'.marked) (alike : ∀ m, m ∈ roots ↔ m ∈ roots') (m : ν) :
    u.Reached s₀ roots m ↔ u.Reached s₀' roots' m := by
  have same : u.MarkedRead s₀ = u.MarkedRead s₀' := by
    funext a b
    simp [MarkedRead, marked]
  simp only [Reached, alike, same, marked]

/-- The order in which updates are asked for makes no difference for a thing from which no circle
and nothing that peeks is come to. -/
theorem Updated.agree {s₀ s₀' s s' : Marks ν α} {roots roots' : List ν}
    (updated : u.Updated s₀ roots s) (updated' : u.Updated s₀' roots' s')
    (alike : ∀ m, m ∈ roots ↔ m ∈ roots') (marks : List ν)
    (covers : ∀ m, s₀.marked m = true → m ∈ marks) (marked : s₀.marked = s₀'.marked) {n : ν}
    (data : ∀ m, Relation.ReflTransGen u.Reads n m → s₀.data m = s₀'.data m)
    (straight : ∀ m, Relation.ReflTransGen u.Reads n m → ¬ u.OnCircle m ∧ u.peeks m = []) :
    s.data n = s'.data n := by
  have reached := reached_congr (u := u) marked alike
  -- below `n`, the things that were marked have a rank
  let below (a b : ν) : Prop := Relation.ReflTransGen u.Reads n b ∧ u.MarkedRead s₀ b a
  have up {a b : ν} (lower : Relation.TransGen below a b) :
      Relation.ReflTransGen u.Reads n b ∧ Relation.TransGen u.Reads b a := by
    induction lower with
    | single first => exact ⟨first.1, .single first.2.1⟩
    | tail _ last ih => exact ⟨last.1, .head last.2.1 ih.2⟩
  have inside (a b : ν) (first : below a b) : a ∈ marks := covers a first.2.2
  obtain ⟨rank, -, lower, -⟩ := exists_rank inside fun a lower =>
    (straight a ((up lower).1)).1 (up lower).2
  have each (k : Nat) : ∀ m, Relation.ReflTransGen u.Reads n m → rank m = k →
      s.data m = s'.data m := by
    induction k using Nat.strong_induction_on with
    | _ k ih =>
      rintro m way rfl
      obtain ⟨noCircle, noPeek⟩ := straight m way
      by_cases here : u.Reached s₀ roots m
      · rw [updated.fresh here noCircle noPeek,
          updated'.fresh ((reached m).mp here) noCircle noPeek, data m way]
        apply u.compute_congr
        intro r member
        rw [noPeek, List.append_nil] at member
        cases known : s₀.marked r with
        | true => exact ih (rank r) (lower r m ⟨way, member, known⟩) r (way.tail member) rfl
        | false =>
          have known' : s₀'.marked r = false := by rw [← marked, known]
          rw [updated.kept r (not_reached_of_unmarked known),
            updated'.kept r (not_reached_of_unmarked known'), data r (way.tail member)]
      · rw [updated.kept m here, updated'.kept m (mt (reached m).mpr here), data m way]
  exact each (rank n) n .refl rfl

end Updates

end VRJuggler
