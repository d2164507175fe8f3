import VRJuggler.Vpr.FileUtils

/-!
# Delimiters that lead astray

In an environment where the values tell the lengths of the names, what comes out shows what was
looked up. There the expansion comes out right only if no delimiter leads the loops astray.
-/
namespace VRJuggler.Vpr

open References Throwing

/-- A value begins with more marks the longer its name is, and more than `size`. -/
def Marked (getenv : List Char → Option (List Char)) (size : Nat) : Prop :=
  ∀ name, ∃ c rest, valueIn getenv name =
    List.replicate (name.length + size + 1) 'x' ++ c :: rest ∧ c ≠ 'x' ∧ '$' ∉ c :: rest

variable {getenv : List Char → Option (List Char)} {size : Nat} {front back : List Piece}
  {p : Piece}

namespace Marked

variable (marked : Marked getenv size)

include marked

theorem plain (name : List Char) : '$' ∉ valueIn getenv name := by
  obtain ⟨c, rest, value, _, plain⟩ := marked name
  simp_all [List.mem_replicate]

/-- What is put in shows that no longer name was looked up. -/
theorem length_le {done name name' rest : List Char}
    (shown : done ++ valueIn getenv name' <+: done ++ (valueIn getenv name ++ rest)) :
    name'.length ≤ name.length := by
  by_contra longer
  obtain ⟨c, more, value, other, _⟩ := marked name
  obtain ⟨c', more', value', _, _⟩ := marked name'
  obtain ⟨d, excess⟩ := Nat.exists_eq_add_of_lt (Nat.lt_of_not_le longer)
  have split : name'.length + size + 1 = (name.length + size + 1) + (d + 1) := by omega
  rw [List.prefix_append_right_inj, value, value', split, List.replicate_add, List.append_assoc,
    List.append_assoc, List.prefix_append_right_inj, List.replicate_succ, List.cons_append,
    List.cons_append, List.cons_prefix_cons] at shown
  exact other shown.1.symm

theorem exists_head (name : List Char) : ∃ v, valueIn getenv name = 'x' :: v := by
  obtain ⟨c, rest, value, _⟩ := marked name
  exact ⟨List.replicate (name.length + size) 'x' ++ c :: rest, value⟩

/-- With a value inside, the name is long. -/
theorem size_lt {w front rest : List Char} (plain : ')' ∉ front) :
    size < (component ')' (front ++ (valueIn getenv w ++ rest))).length := by
  obtain ⟨c, more, value, _⟩ := marked w
  have marks : ')' ∉ List.replicate (w.length + size + 1) 'x' := by simp [List.mem_replicate]
  rw [component_append_plain plain, value, List.append_assoc, component_append_plain marks]
  simp
  omega

/-- The value that is put in first stays where it is. -/
theorem first_kept {k : Kind} {p q r : List Char}
    (first : Text.Skips ['$', k.opening] p ('$' :: k.opening :: q))
    (ends : Ends (pass getenv k · (p ++ '$' :: k.opening :: q)) (.ok r)) :
    p ++ valueIn getenv (asked k p q) <+: r := by
  obtain ⟨v, value⟩ := marked.exists_head (asked k p q)
  have plain := marked.plain (asked k p q)
  rw [value] at plain ⊢
  exact Vpr.first_kept first value (by cases k <;> decide) plain ends

end Marked

/-- No closing delimiter of braces is before a reference in braces. -/
theorem Marked.not_mem (marked : Marked getenv size) {name : List Char}
    (clear : EachAfter (Clear (valueIn getenv)) [] front)
    (ends : Ends (replaceEnvVars getenv · (textOf (front ++ .reference .brace name :: back)))
      (.ok ((front ++ .reference .brace name :: back).flatMap
        (Piece.expanded (valueIn getenv))))) :
    '}' ∉ front.flatMap (afterBraces (valueIn getenv)) := by
  intro before
  obtain ⟨r, first, second⟩ := exists_passes ends
  rw [textOf_append, textOf_reference, first_pass marked.plain clear] at first
  have settled := never_flatMap_afterBraces marked.plain clear
  -- the first loop takes all the rest for the name
  obtain ⟨rest, rfl⟩ := marked.first_kept (k := .brace) (settled _) first
  rw [asked_of_mem (k := .brace) before, List.append_assoc, second_pass marked.plain clear,
    ← List.append_assoc] at second
  -- and the second one leaves what was put in
  obtain ⟨fuel, here⟩ := Returns.exists_some second
  have shown := pass_keeps (Text.never_append
    (Text.never_of_not_mem (plain_flatMap_expanded marked.plain clear) _)
    (Text.never_of_not_mem (marked.plain _) _)) here
  rw [List.flatMap_append, List.flatMap_cons] at shown
  have shorter := marked.length_le shown
  simp at shorter

/-- No opening delimiter of braces is in the name of a reference in parentheses. -/
theorem Marked.not_infix (marked : Marked getenv size) {name : List Char}
    (short : name.length ≤ size) (proper : ')' ∉ name)
    (clear : EachAfter (Clear (valueIn getenv)) [] front)
    (before : ')' ∉ front.flatMap (Piece.expanded (valueIn getenv)))
    (ends : Ends (replaceEnvVars getenv · (textOf (front ++ .reference .paren name :: back)))
      (.ok ((front ++ .reference .paren name :: back).flatMap
        (Piece.expanded (valueIn getenv))))) :
    ¬ ['$', '{'] <:+: name := by
  intro inside
  obtain ⟨r, first, second⟩ := exists_passes ends
  rw [textOf_append, textOf_reference, first_pass marked.plain clear] at first
  have settled := never_flatMap_afterBraces marked.plain clear
  rcases Text.find_cases (List.cons_ne_nil '$' ['{']) name with nowhere | found
  · exact Text.not_infix_of_find nowhere inside
  · obtain ⟨n, n', rfl, skips⟩ := found
    have skips' : Text.Skips ['$', '{']
        (front.flatMap (afterBraces (valueIn getenv)) ++ '$' :: '(' :: n)
        ('$' :: '{' :: (n' ++ ')' :: textOf back)) := by
      refine Text.skips_append.mpr ⟨settled _, ?_, ?_, Text.skips_congr skips (by simp)⟩
      · simp
      · simp
    -- the first loop changes the name from there on
    obtain ⟨rest, rfl⟩ := marked.first_kept (k := .brace) skips'
      (by simpa [Kind.opening, Kind.closing] using first)
    rw [List.append_assoc, List.append_assoc, second_pass marked.plain clear] at second
    have plain := Text.skips_of_not_mem (plain_flatMap_expanded marked.plain clear) ['(']
    -- and the second one looks up a longer name
    have shown := marked.first_kept (k := .paren) (plain _) second
    rw [asked_of_not_mem (k := .paren) before, List.flatMap_append, List.flatMap_cons] at shown
    have shorter := marked.length_le shown
    refine absurd (Nat.lt_of_lt_of_le (marked.size_lt fun member => ?_) shorter)
      (Nat.not_lt_of_le short)
    exact proper (List.mem_append_left _ member)

end VRJuggler.Vpr
