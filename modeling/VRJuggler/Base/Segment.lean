import Mathlib.Data.List.Induction

/-!
# Segments of a stream with end markers

A stream of items, some of which close a segment. `segment isEnd k xs` is the
`k`-th segment of `xs`, counted from zero: what follows the `k`-th end marker, up
to and including the next one.
-/
namespace VRJuggler

variable {α : Type} (isEnd : α → Bool)

def segment : Nat → List α → List α
  | _, [] => []
  | 0, x :: xs => if isEnd x then [x] else x :: segment 0 xs
  | k + 1, x :: xs => segment (if isEnd x then k else k + 1) xs

/-- How many segments of the stream are closed. -/
def closed (xs : List α) : Nat := xs.countP isEnd

@[simp] theorem closed_nil : closed isEnd [] = 0 := rfl

@[simp] theorem closed_append (xs ys : List α) :
    closed isEnd (xs ++ ys) = closed isEnd xs + closed isEnd ys := List.countP_append

@[simp] theorem closed_singleton (x : α) :
    closed isEnd [x] = if isEnd x then 1 else 0 := by
  simp [closed, List.countP_singleton]

theorem closed_cons (x : α) (xs : List α) :
    closed isEnd (x :: xs) = closed isEnd xs + if isEnd x then 1 else 0 := List.countP_cons

theorem segment_nil (k : Nat) : segment isEnd k [] = [] := by cases k <;> rfl

variable {isEnd} in
/-- A beginning of a stream that ends with an end marker is known by the number of them. -/
theorem prefix_unique {xs ys zs : List α} {x y : α} (first : xs ++ [x] <+: zs)
    (second : ys ++ [y] <+: zs) (endsFirst : isEnd x) (endsSecond : isEnd y)
    (same : closed isEnd xs = closed isEnd ys) : xs ++ [x] = ys ++ [y] := by
  have shorter : ∀ {xs ys : List α} {x y : α}, isEnd x → closed isEnd xs = closed isEnd ys →
      xs ++ [x] <+: ys ++ [y] → xs ++ [x] = ys ++ [y] := by
    intro xs ys x y ends same before
    rcases List.prefix_concat_iff.mp before with equal | inside
    · exact equal
    · -- otherwise `ys` has one end marker more than `xs`
      obtain ⟨rest, rfl⟩ := inside
      simp only [closed_append, closed_singleton, ends, if_true] at same
      omega
  rcases List.prefix_or_prefix_of_prefix first second with before | before
  · exact shorter endsFirst same before
  · exact (shorter endsSecond same.symm before).symm

/-- A closed segment no longer changes. -/
theorem segment_append (k : Nat) (xs ys : List α) (done : k < closed isEnd xs) :
    segment isEnd k (xs ++ ys) = segment isEnd k xs := by
  induction xs generalizing k with
  | nil => simp at done
  | cons x xs ih =>
    rw [closed_cons] at done
    cases k with
    | zero =>
      simp only [List.cons_append, segment]
      split
      next => rfl
      next no => rw [ih 0 (by simpa [no] using done)]
    | succ k =>
      simp only [List.cons_append, segment]
      split
      next yes => exact ih k (by simp only [yes, if_true] at done; omega)
      next no => exact ih (k + 1) (by simpa [no] using done)

/-- A new item belongs to the segment that is open. -/
theorem segment_snoc (k : Nat) (xs : List α) (x : α) :
    segment isEnd k (xs ++ [x]) =
      segment isEnd k xs ++ if k = closed isEnd xs then [x] else [] := by
  induction xs generalizing k with
  | nil => cases k <;> simp [segment]
  | cons y ys ih =>
    rw [closed_cons]
    cases k with
    | zero =>
      simp only [List.cons_append, segment]
      split
      next => simp
      next => simp [ih]
    | succ k =>
      simp only [List.cons_append, segment]
      split
      next => simp [ih]
      next => simp [ih]

/-- The open segment is a beginning of what it becomes. -/
theorem segment_prefix (k : Nat) (xs ys : List α) :
    segment isEnd k xs <+: segment isEnd k (xs ++ ys) := by
  induction ys using List.reverseRecOn with
  | nil => simp
  | append_singleton ys y ih =>
    rw [← List.append_assoc, segment_snoc]
    exact ih.trans (List.prefix_append _ _)

/-- A log of items, each with the number of the segment it was booked under. -/
def booked (log : List (Nat × α)) (k : Nat) : List α :=
  (log.filter fun entry => entry.1 == k).map Prod.snd

theorem booked_snoc (log : List (Nat × α)) (j k : Nat) (x : α) :
    booked (log ++ [(j, x)]) k = booked log k ++ if j = k then [x] else [] := by
  simp only [booked, List.filter_append, List.map_append]
  by_cases same : j = k
  · simp [same]
  · simp [same]

/-- Nothing is booked under a number that no entry has. -/
theorem booked_eq_nil {log : List (Nat × α)} {k : Nat} (none : ∀ entry ∈ log, entry.1 ≠ k) :
    booked log k = [] := by
  rw [booked, List.map_eq_nil_iff, List.filter_eq_nil_iff]
  intro entry member
  simpa using none entry member

/-- Each item of the log is booked under the segment it belongs to. -/
def WellBooked (log : List (Nat × α)) : Prop :=
  ∀ k, booked log k = segment isEnd k (log.map Prod.snd)

theorem wellBooked_nil : WellBooked isEnd ([] : List (Nat × α)) :=
  fun k => (segment_nil isEnd k).symm

theorem WellBooked.snoc {log : List (Nat × α)} (well : WellBooked isEnd log) (k : Nat) (x : α)
    (current : closed isEnd (log.map Prod.snd) = k) : WellBooked isEnd (log ++ [(k, x)]) := by
  intro j
  rw [booked_snoc, well j, List.map_append, List.map_singleton, segment_snoc, current]
  simp only [eq_comm]

end VRJuggler
