import VRJuggler.Base.Separators
import VRJuggler.Base.Throwing

/-!
# Positions in text

A text is a list of characters. What comes first is looked for from an index on, and parts are
taken between two indices, which must be in order and inside the text. A pattern is found at the
first place where it stands.
-/
namespace VRJuggler.Text

variable {α : Type} [DecidableEq α] {front part rest text : List α} {x : α}

inductive Thrown where
  | indexOutOfBounds
  deriving DecidableEq

/-- The first index of a character from this one on, or -1. -/
def indexOf (text : List α) (x : α) (start : Nat) : Int :=
  match (text.drop start).findIdx? (· == x) with
  | some i => start + i
  | none => -1

omit [DecidableEq α] in
/-- What is between two indices. -/
def substring (text : List α) (beginIndex endIndex : Int) : Except Thrown (List α) :=
  if 0 ≤ beginIndex ∧ beginIndex ≤ endIndex ∧ endIndex ≤ text.length then
    .ok ((text.drop beginIndex.toNat).take (endIndex.toNat - beginIndex.toNat))
  else .error .indexOutOfBounds

theorem indexOf_append (plain : x ∉ part) :
    indexOf (front ++ (part ++ x :: rest)) x front.length = (front.length + part.length : Nat) := by
  have member : x ∈ part ++ x :: rest := by simp
  rw [indexOf, List.drop_left, findIdx?_separator member, component_append plain]
  rfl

theorem indexOf_eq_neg_one {start : Nat} (plain : x ∉ text.drop start) :
    indexOf text x start = -1 := by
  rw [indexOf, findIdx?_plain plain]

theorem indexOf_of_mem (member : x ∈ text) : indexOf text x 0 = (component x text).length := by
  have plain : x ∉ component x text := plain_component
  have all := @indexOf_append _ _ [] _ (behind x text) _ plain
  rw [List.nil_append, component_append_behind member] at all
  simpa using all

theorem indexOf_first (plain : x ∉ part) : indexOf (part ++ x :: rest) x 0 = part.length := by
  rw [indexOf_of_mem (by simp), component_append plain]

omit [DecidableEq α] in
/-- The indices must be in order. -/
theorem substring_of_lt {beginIndex endIndex : Int} (disorder : endIndex < beginIndex) :
    substring text beginIndex endIndex = .error .indexOutOfBounds := if_neg (by omega)

omit [DecidableEq α] in
theorem substring_append : substring (front ++ (part ++ rest)) front.length
    (front.length + part.length : Nat) = .ok part := by
  have inside : front.length + part.length ≤ (front ++ (part ++ rest)).length := by
    simp only [List.length_append]
    omega
  rw [substring, if_pos (by omega), Int.toNat_natCast, Int.toNat_natCast, List.drop_left,
    Nat.add_sub_cancel_left, List.take_left]

omit [DecidableEq α] in
theorem substring_last : substring (front ++ part) front.length (front ++ part).length =
    .ok part := by
  have all : substring (front ++ (part ++ [])) front.length
      (front.length + part.length : Nat) = .ok part := substring_append
  rwa [List.append_nil, ← List.length_append] at all

/-! ## Patterns -/

/-- The first place where the pattern stands. -/
def find (pattern : List α) : List α → Option Nat
  | [] => if pattern = [] then some 0 else none
  | x :: text => if pattern <+: x :: text then some 0 else (find pattern text).map (· + 1)

omit [DecidableEq α] in
/-- The pattern does not begin inside the first part. -/
def Skips (pattern : List α) : List α → List α → Prop
  | [], _ => True
  | x :: part, rest => ¬ pattern <+: x :: (part ++ rest) ∧ Skips pattern part rest

variable {pattern part' : List α} {y : α}

theorem find_skips (skips : Skips pattern part rest) :
    find pattern (part ++ rest) = (find pattern rest).map (· + part.length) := by
  induction part with
  | nil => simp
  | cons x part ih =>
    rw [List.cons_append, find, if_neg skips.1, ih skips.2, Option.map_map]
    rfl

theorem find_here (here : pattern <+: text) : find pattern text = some 0 := by
  cases text with
  | nil => rw [find, if_pos (List.prefix_nil.mp here)]
  | cons x text => rw [find, if_pos here]

section Skips

omit [DecidableEq α]

theorem skips_append : Skips pattern (part ++ part') rest ↔
    Skips pattern part (part' ++ rest) ∧ Skips pattern part' rest := by
  induction part with
  | nil => simp [Skips]
  | cons x part ih => simp [Skips, ih, and_assoc]

theorem skips_of_not_mem (plain : x ∉ part) (pattern rest : List α) :
    Skips (x :: pattern) part rest := by
  induction part with
  | nil => trivial
  | cons z part ih =>
    constructor
    · intro here
      exact plain (by simp [(List.cons_prefix_cons.mp here).1])
    · exact ih fun member => plain (List.mem_cons_of_mem z member)

/-- Of what comes behind, a pattern of two sees the first element only. -/
theorem skips_congr {rest' : List α} (skips : Skips [x, y] part rest)
    (other : rest'.head? ≠ some y) : Skips [x, y] part rest' := by
  induction part with
  | nil => trivial
  | cons z part ih =>
    refine ⟨fun here => ?_, ih skips.2⟩
    cases part with
    | nil =>
      cases rest' with
      | nil => simp at here
      | cons w rest' => exact other (by simp_all [List.cons_prefix_cons])
    | cons w part => exact skips.1 (by simp_all [List.cons_prefix_cons])

/-- Whatever comes behind, the pattern does not begin inside. -/
def Never (pattern part : List α) : Prop := ∀ rest, Skips pattern part rest

theorem never_append (left : Never pattern part) (right : Never pattern part') :
    Never pattern (part ++ part') :=
  fun rest => skips_append.mpr ⟨left _, right rest⟩

theorem never_of_not_mem (plain : x ∉ part) (pattern : List α) : Never (x :: pattern) part :=
  skips_of_not_mem plain pattern

theorem never_flatMap {β : Type} {f : β → List α} {xs : List β}
    (each : ∀ b ∈ xs, Never pattern (f b)) : Never pattern (xs.flatMap f) := by
  induction xs with
  | nil => exact fun _ => trivial
  | cons b xs ih =>
    rw [List.flatMap_cons]
    exact never_append (each b (List.mem_cons_self ..))
      (ih fun b' member => each b' (List.mem_cons_of_mem b member))

/-- Behind an element that is not of the pattern, nothing can complete it. -/
theorem never_concat {z : α} (nowhere : ¬ [x, y] <:+: part) (first : z ≠ x) (second : z ≠ y) :
    Never [x, y] (part ++ [z]) := by
  intro rest
  induction part with
  | nil => exact ⟨fun here => first (List.cons_prefix_cons.mp here).1.symm, trivial⟩
  | cons w part ih =>
    refine ⟨fun here => ?_, ih fun there => nowhere (List.infix_cons there)⟩
    obtain ⟨rfl, next⟩ := List.cons_prefix_cons.mp here
    cases part with
    | nil => exact second (List.cons_prefix_cons.mp next).1.symm
    | cons w' part =>
      obtain ⟨rfl, _⟩ := List.cons_prefix_cons.mp next
      exact nowhere ⟨[], part, rfl⟩

end Skips

/-- The first place of one character. -/
theorem find_of_mem (member : x ∈ text) : find [x] text = some (component x text).length := by
  have first : find [x] (x :: behind x text) = some 0 := find_here (by simp)
  have skips : Skips [x] (component x text) (x :: behind x text) :=
    skips_of_not_mem plain_component [] _
  have all := find_skips skips
  rwa [component_append_behind member, first, Option.map_some, Nat.zero_add] at all

theorem find_of_not_mem (plain : x ∉ text) : find [x] text = none := by
  have all := find_skips (skips_of_not_mem plain [] [])
  rwa [List.append_nil, find, if_neg (List.cons_ne_nil _ _), Option.map_none] at all

theorem not_infix_of_find (nowhere : find pattern text = none) : ¬ pattern <:+: text := by
  induction text with
  | nil =>
    rw [List.infix_nil]
    rintro rfl
    simp [find] at nowhere
  | cons x text ih =>
    rw [find] at nowhere
    split at nowhere
    · cases nowhere
    · rename_i other
      rw [List.infix_cons_iff, not_or]
      exact ⟨other, ih (Option.map_eq_none_iff.mp nowhere)⟩

/-- The pattern is nowhere, or somewhere first. -/
theorem find_cases (nonempty : pattern ≠ []) (text : List α) :
    find pattern text = none ∨
      ∃ part rest, text = part ++ (pattern ++ rest) ∧ Skips pattern part (pattern ++ rest) := by
  induction text with
  | nil => exact .inl (by rw [find, if_neg nonempty])
  | cons x text ih =>
    by_cases here : pattern <+: x :: text
    · obtain ⟨rest, same⟩ := here
      exact .inr ⟨[], rest, same.symm, trivial⟩
    · rcases ih with nowhere | ⟨part, rest, rfl, skips⟩
      · exact .inl (by rw [find, if_neg here, nowhere, Option.map_none])
      · exact .inr ⟨x :: part, rest, rfl, here, skips⟩

end VRJuggler.Text
