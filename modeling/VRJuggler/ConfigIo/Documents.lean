import Mathlib.Data.String.Basic
import Mathlib.Data.Char
import VRJuggler.Base.Throwing

/-!
# XML documents

What the writers and parsers use of an XML element: its name, its attributes, the text directly
in it and its child elements. A document that is written and read again keeps these, except for
white space in texts, which is normalised when they are written.
-/
namespace VRJuggler.ConfigIo

/-! ## Elements -/

structure Element where
  namespace_ : String
  name : String
  attributes : List (String × String)
  text : String
  children : List Element

namespace Element

def getAttributeValue (e : Element) (name : String) : Option String := e.attributes.lookup name

/-- Whether the element has this name in the namespace. -/
def isNamed (namespace_ name : String) (e : Element) : Bool :=
  e.namespace_ = namespace_ && e.name = name

def getChildren (e : Element) (name namespace_ : String) : List Element :=
  e.children.filter (isNamed namespace_ name)

def getChild (e : Element) (name namespace_ : String) : Option Element :=
  e.children.find? (isNamed namespace_ name)

end Element

/-! ## White space -/

/-- `Text.normalizeString` up to the last blank. The flag says whether the last character was
white. -/
def squeeze : Bool → List Char → List Char
  | _, [] => []
  | white, c :: rest =>
    if c = ' ' ∨ c = '\t' ∨ c = '\n' ∨ c = '\r' then
      if white then squeeze true rest else ' ' :: squeeze true rest
    else c :: squeeze false rest

/-- `TextMode.NORMALIZE` -/
def normalize (text : String) : String :=
  let n := squeeze true text.toList
  String.ofList (if n.getLast? = some ' ' then n.dropLast else n)

/-- `String.trim` -/
def trim (text : String) : String :=
  String.ofList ((text.toList.dropWhile (· ≤ ' ')).reverse.dropWhile (· ≤ ' ')).reverse

/-- Without leading, trailing or repeated white space. -/
def Tidy (text : String) : Prop := normalize text = text ∧ trim text = text

instance (text : String) : Decidable (Tidy text) := inferInstanceAs (Decidable (_ ∧ _))

/-- A text without white space is tidy. -/
theorem tidy_of_visible {text : String} (visible : ∀ c ∈ text.toList, ' ' < c) : Tidy text := by
  have whole : ∀ (white : Bool) (cs : List Char), (∀ c ∈ cs, ' ' < c) → squeeze white cs = cs := by
    intro white cs all
    induction cs generalizing white with
    | nil => rfl
    | cons c rest ih =>
      have first := all c (List.mem_cons_self ..)
      have shown : ¬ (c = ' ' ∨ c = '\t' ∨ c = '\n' ∨ c = '\r') := by
        rintro (rfl | rfl | rfl | rfl)
        all_goals exact absurd first (by decide)
      rw [squeeze, if_neg shown, ih false fun d member => all d (List.mem_cons_of_mem _ member)]
  have stays : ∀ cs : List Char, (∀ c ∈ cs, ' ' < c) → cs.dropWhile (· ≤ ' ') = cs := by
    intro cs all
    cases cs with
    | nil => rfl
    | cons c rest =>
      have first : ¬ c ≤ ' ' := not_le.mpr (all c (List.mem_cons_self ..))
      rw [List.dropWhile_cons_of_neg (by simpa using first)]
  constructor
  · rw [normalize, whole true _ visible, if_neg, String.ofList_toList]
    intro last
    exact absurd (visible ' ' (List.mem_of_getLast? last)) (lt_irrefl _)
  · have back : ∀ c ∈ text.toList.reverse, ' ' < c := fun c member =>
      visible c (List.mem_reverse.mp member)
    rw [trim, stays _ visible, stays _ back, List.reverse_reverse, String.ofList_toList]

/-! ## Numbers -/

/-- The values of `int`. -/
def Int32 (n : Int) : Prop := -2147483648 ≤ n ∧ n < 2147483648

instance (n : Int) : Decidable (Int32 n) := inferInstanceAs (Decidable (_ ∧ _))

def parseDigits (digits : List Char) : Option Nat :=
  if digits ≠ [] ∧ digits.all Char.isDigit then some (Nat.ofDigitChars 10 digits 0) else none

/-- `Integer.parseInt`; `none`: a `NumberFormatException`. -/
def parseInt (text : String) : Option Int :=
  let n := match text.toList with
    | '-' :: digits => (parseDigits digits).map fun n : Nat => -Int.ofNat n
    | '+' :: digits => (parseDigits digits).map Int.ofNat
    | digits => (parseDigits digits).map Int.ofNat
  n.filter fun n => decide (Int32 n)

theorem parseDigits_toDigits (n : Nat) : parseDigits (Nat.toDigits 10 n) = some n := by
  have digits : (Nat.toDigits 10 n).all Char.isDigit = true := by
    rw [List.all_eq_true]
    intro c member
    exact Nat.isDigit_of_mem_toDigits (by decide) (by decide) member
  rw [parseDigits, if_pos ⟨Nat.toDigits_ne_nil, digits⟩, Nat.ofDigitChars_ten_toDigits]

/-- The first character of a number without sign is a digit. -/
theorem toDigits_eq_cons (n : Nat) :
    ∃ c rest, Nat.toDigits 10 n = c :: rest ∧ c ≠ '-' ∧ c ≠ '+' := by
  obtain ⟨c, rest, parts⟩ := List.exists_cons_of_ne_nil (Nat.toDigits_ne_nil (n := n) (b := 10))
  have digit : c.isDigit = true := by
    have member : c ∈ Nat.toDigits 10 n := by
      rw [parts]
      exact List.mem_cons_self ..
    exact Nat.isDigit_of_mem_toDigits (by decide) (by decide) member
  refine ⟨c, rest, parts, ?_, ?_⟩
  · rintro rfl
    exact absurd digit (by decide)
  · rintro rfl
    exact absurd digit (by decide)

/-- `Integer.toString` and `Integer.parseInt` are inverse. -/
theorem parseInt_repr {n : Int} (fits : Int32 n) : parseInt n.repr = some n := by
  rw [parseInt]
  by_cases sign : 0 ≤ n
  · obtain ⟨m, rfl⟩ := Int.eq_ofNat_of_zero_le sign
    have text : (Int.repr m).toList = Nat.toDigits 10 m := by
      rw [Int.repr_eq_if, if_pos sign, Int.toNat_natCast, Nat.toList_repr]
    have parsed := parseDigits_toDigits m
    obtain ⟨c, rest, parts, minus, plus⟩ := toDigits_eq_cons m
    rw [text]
    rw [parts] at parsed ⊢
    split
    · next digits same => exact absurd (List.cons.inj same).1 minus
    · next digits same => exact absurd (List.cons.inj same).1 plus
    · rw [parsed, Option.map_some, Option.filter_some]
      exact if_pos (decide_eq_true fits)
  · have text : n.repr.toList = '-' :: Nat.toDigits 10 (-n).toNat := by
      rw [Int.repr_eq_if, if_neg sign, String.toList_append, Nat.toList_repr]
      rfl
    have value : -Int.ofNat (-n).toNat = n := by
      rw [Int.ofNat_eq_natCast]
      omega
    rw [text]
    simp only [parseDigits_toDigits, Option.map_some, value]
    rw [Option.filter_some, if_pos (decide_eq_true fits)]

theorem tidy_repr (n : Int) : Tidy n.repr := by
  apply tidy_of_visible
  have digits (m : Nat) : ∀ c ∈ m.repr.toList, ' ' < c := by
    intro c member
    rw [Nat.toList_repr] at member
    have digit := Nat.isDigit_of_mem_toDigits (by decide) (by decide) member
    rw [Char.isDigit, Bool.and_eq_true, decide_eq_true_eq] at digit
    exact lt_of_lt_of_le (by decide) digit.1
  rw [Int.repr_eq_if]
  split
  · exact digits _
  · intro c member
    rw [String.toList_append] at member
    rcases List.mem_append.mp member with minus | digit
    · obtain rfl : c = '-' := by simpa using minus
      decide
    · exact digits _ c digit

/-- `Float.toString` and the constructor of `Float`. -/
structure FloatText where
  toText : Nat → String
  parse : String → Option Nat
  parse_toText : ∀ bits, parse (toText bits) = some bits
  tidy : ∀ bits, Tidy (toText bits)

/-! ## Exceptions -/

inductive Thrown where
  /-- A `ParseException`. -/
  | parse (message : String)
  | nullPointer
  | indexOutOfBounds
  | illegalArgument (message : String)
  /-- An `IllegalDataException` for a value that is `null`. -/
  | illegalData
  /-- An `IllegalAddException` for an element that has a parent. -/
  | illegalAdd
  | classCast
  deriving DecidableEq

/-- `MissingAttributeException` -/
def missingAttribute (name : String) : Thrown :=
  .parse ("Missing required attribute: " ++ name)

/-- A value that may be missing. -/
def required {α : Type} (e : Thrown) : Option α → Except Thrown α
  | some a => .ok a
  | none => .error e

theorem required_eq_ok {α : Type} {e : Thrown} {x : Option α} {a : α} :
    required e x = .ok a ↔ x = some a := by
  cases x with
  | none => simp [required]
  | some b => simp [required]

end VRJuggler.ConfigIo
