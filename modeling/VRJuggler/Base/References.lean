import VRJuggler.Base.Lists
import VRJuggler.Base.Separators

/-!
# References to variables in text

A reference is a name between delimiters, in braces or in parentheses behind a dollar sign. It
is closed if its closing delimiter comes somewhere behind; the first one ends the name.
-/
namespace VRJuggler.References

inductive Kind where
  | brace
  | paren
  deriving DecidableEq

def Kind.opening : Kind → Char
  | .brace => '{'
  | .paren => '('

def Kind.closing : Kind → Char
  | .brace => '}'
  | .paren => ')'

theorem Kind.opening_inj {k k' : Kind} (same : k.opening = k'.opening) : k = k' := by
  cases k <;> cases k' <;> first | rfl | exact absurd same (by decide)

theorem Kind.closing_ne_dollar (k : Kind) : k.closing ≠ '$' := by cases k <;> decide

theorem Kind.closing_ne_opening (k k' : Kind) : k.closing ≠ k'.opening := by
  cases k <;> cases k' <;> decide

/-- The value of a variable. A variable that is not set has an empty one. -/
def valueIn (environment : List Char → Option (List Char)) (name : List Char) : List Char :=
  (environment name).getD []

/-! ## Expansion -/

/-- The text begins with a closed reference. -/
def StartsReference (text : List Char) : Prop :=
  ∃ (k : Kind) (rest : List Char), text = '$' :: k.opening :: rest ∧ k.closing ∈ rest

/-- Each closed reference is replaced by the value of the variable, and everything else stays. -/
inductive Expands (value : List Char → List Char) : List Char → List Char → Prop where
  | nil : Expands value [] []
  | reference {k : Kind} {name rest result : List Char} (plain : k.closing ∉ name)
    (later : Expands value rest result) :
    Expands value ('$' :: k.opening :: (name ++ k.closing :: rest)) (value name ++ result)
  | other {c : Char} {rest result : List Char} (none : ¬ StartsReference (c :: rest))
    (later : Expands value rest result) : Expands value (c :: rest) (c :: result)

variable {value : List Char → List Char} {result result' : List Char}

/-- Every text can be expanded. -/
theorem exists_expands (value : List Char → List Char) (text : List Char) :
    ∃ result, Expands value text result := by
  induction size : text.length using Nat.strongRecOn generalizing text with
  | _ n ih =>
    cases text with
    | nil => exact ⟨[], .nil⟩
    | cons c rest =>
      by_cases starts : StartsReference (c :: rest)
      · obtain ⟨k, rest', same, member⟩ := starts
        have shorter := length_behind member
        rw [same] at size ⊢
        obtain ⟨result, later⟩ := ih (behind k.closing rest').length
          (by simp only [List.length_cons] at size; omega) _ rfl
        rw [← component_append_behind member]
        exact ⟨_, Expands.reference plain_component later⟩
      · obtain ⟨result, later⟩ := ih rest.length
          (by simp only [List.length_cons] at size; omega) rest rfl
        exact ⟨_, .other starts later⟩

/-- The name and the rest behind a closing delimiter are determined. -/
theorem split_unique {k : Kind} {name name' rest rest' : List Char} (plain : k.closing ∉ name)
    (plain' : k.closing ∉ name')
    (same : name ++ k.closing :: rest = name' ++ k.closing :: rest') :
    name = name' ∧ rest = rest' := by
  constructor
  · have here : component k.closing (name ++ k.closing :: rest) = name := component_append plain
    rw [← here, same, component_append plain']
  · have later : behind k.closing (name ++ k.closing :: rest) = rest := behind_append plain
    rw [← later, same, behind_append plain']

/-- There is one expansion. -/
theorem Expands.unique {text : List Char} (left : Expands value text result)
    (right : Expands value text result') : result = result' := by
  induction left generalizing result' with
  | nil =>
    cases right
    rfl
  | @reference k name rest result plain _ ih =>
    generalize same : '$' :: k.opening :: (name ++ k.closing :: rest) = text' at right
    cases right with
    | nil => cases same
    | @reference k' name' rest' result' plain' later =>
      injection same with _ same
      injection same with opening same
      obtain rfl := Kind.opening_inj opening
      obtain ⟨rfl, rfl⟩ := split_unique plain plain' same
      rw [ih later]
    | other none later => exact absurd ⟨k, _, same.symm, by simp⟩ none
  | @other c rest result none _ ih =>
    generalize same : c :: rest = text' at right
    cases right with
    | nil => cases same
    | @reference k' name' rest' result' plain' later =>
      exact absurd ⟨k', _, same, by simp⟩ none
    | other none' later =>
      injection same with first same
      subst first same
      rw [ih later]

/-! ## Pieces -/

/-- A text in which all references are closed consists of characters and references. -/
inductive Piece where
  | plain (c : Char)
  | reference (k : Kind) (name : List Char)
  deriving DecidableEq

namespace Piece

def text : Piece → List Char
  | plain c => [c]
  | reference k name => '$' :: k.opening :: (name ++ [k.closing])

/-- What stands for the piece in the expansion. -/
def expanded (value : List Char → List Char) : Piece → List Char
  | plain c => [c]
  | reference _ name => value name

/-- No other dollar sign, and the name ends at the first closing delimiter. -/
def Proper : Piece → Prop
  | plain c => c ≠ '$'
  | reference k name => k.closing ∉ name

end Piece

/-- The text that the pieces make. -/
def textOf (pieces : List Piece) : List Char := pieces.flatMap Piece.text

@[simp] theorem textOf_nil : textOf [] = [] := rfl

@[simp] theorem textOf_plain (c : Char) (pieces : List Piece) :
    textOf (.plain c :: pieces) = c :: textOf pieces := rfl

@[simp] theorem textOf_reference (k : Kind) (name : List Char) (pieces : List Piece) :
    textOf (.reference k name :: pieces) =
      '$' :: k.opening :: (name ++ k.closing :: textOf pieces) := by
  simp [textOf, Piece.text]

@[simp] theorem textOf_append (front back : List Piece) :
    textOf (front ++ back) = textOf front ++ textOf back := List.flatMap_append

/-- A text as single characters. -/
theorem textOf_map_plain (text : List Char) : textOf (text.map Piece.plain) = text := by
  induction text with
  | nil => rfl
  | cons c text ih => rw [List.map_cons, textOf_plain, ih]

theorem flatMap_map_plain (text : List Char) :
    (text.map Piece.plain).flatMap (Piece.expanded value) = text := by
  induction text with
  | nil => rfl
  | cons c text ih => rw [List.map_cons, List.flatMap_cons, ih]; rfl

theorem expands_textOf {pieces : List Piece} (proper : ∀ p ∈ pieces, p.Proper) :
    Expands value (textOf pieces) (pieces.flatMap (Piece.expanded value)) := by
  induction pieces with
  | nil => exact .nil
  | cons p pieces ih =>
    have later := ih fun q member => proper q (List.mem_cons_of_mem p member)
    have here := proper p (List.mem_cons_self ..)
    cases p with
    | plain c =>
      rw [textOf_plain]
      apply Expands.other ?_ later
      rintro ⟨k, rest, same, _⟩
      exact here (List.cons.inj same).1
    | reference k name =>
      rw [textOf_reference]
      exact .reference here later

/-- A text consists of pieces in one way only. -/
theorem textOf_inj {pieces pieces' : List Piece} (proper : ∀ p ∈ pieces, p.Proper)
    (proper' : ∀ p ∈ pieces', p.Proper) (same : textOf pieces = textOf pieces') :
    pieces = pieces' := by
  induction pieces generalizing pieces' with
  | nil =>
    rcases pieces' with _ | ⟨_ | _, _⟩
    · rfl
    · simp at same
    · simp at same
  | cons p pieces ih =>
    have later (q : Piece) (member : q ∈ pieces) := proper q (List.mem_cons_of_mem p member)
    have here := proper p (List.mem_cons_self ..)
    cases pieces' with
    | nil => cases p <;> simp at same
    | cons p' pieces' =>
      have later' (q : Piece) (member : q ∈ pieces') := proper' q (List.mem_cons_of_mem p' member)
      have here' := proper' p' (List.mem_cons_self ..)
      cases p with
      | plain c =>
        cases p' with
        | plain c' =>
          rw [textOf_plain, textOf_plain] at same
          injection same with first rest
          rw [first, ih later later' rest]
        | reference k' name' =>
          rw [textOf_plain, textOf_reference] at same
          exact absurd (List.cons.inj same).1 here
      | reference k name =>
        cases p' with
        | plain c' =>
          rw [textOf_plain, textOf_reference] at same
          exact absurd (List.cons.inj same).1.symm here'
        | reference k' name' =>
          rw [textOf_reference, textOf_reference] at same
          injection same with _ same
          injection same with opening same
          obtain rfl := Kind.opening_inj opening
          obtain ⟨rfl, rest⟩ := split_unique here here' same
          rw [ih later later' rest]

end VRJuggler.References
