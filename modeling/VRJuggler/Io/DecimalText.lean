import Mathlib.Algebra.Group.Nat.Defs
import VRJuggler.Io.XmlContent

/-!
# Decimal numbers

How the standard library writes an unsigned integer and a `bool`, and how it reads them
when no sign stands before them.
-/
namespace VRJuggler.Io

def isDigit (c : UInt8) : Bool := 48 ≤ c && c ≤ 57

/-- The digits of a number, which has at most `fuel` of them. -/
def digits : Nat → Nat → Text
  | 0, _ => []
  | fuel + 1, n =>
    if n < 10 then [UInt8.ofNat (48 + n)]
    else digits fuel (n / 10) ++ [UInt8.ofNat (48 + n % 10)]

/-- The number that some digits stand for. -/
def numeral (text : Text) : Nat := text.foldl (fun n c => 10 * n + (c.toNat - 48)) 0

/-- Read the digits a text begins with as a number below `bound`, a larger one as the
largest of these. -/
def getBelow (bound : Nat) (text : Text) : Nat × Text × Bool :=
  let front := text.takeWhile isDigit
  let rest := text.dropWhile isDigit
  if front = [] then (0, rest, true)
  else if numeral front < bound then (numeral front, rest, false)
  else (bound - 1, rest, true)

/-- Integers and `bool`. No text is given to a floating point number. -/
def decimalText : NumberText where
  put
    | .uint8, val => digits 20 (UInt8.toNat val)
    | .uint16, val => digits 20 (UInt16.toNat val)
    | .uint32, val => digits 20 (UInt32.toNat val)
    | .uint64, val => digits 20 (UInt64.toNat val)
    | .bool, val => digits 20 (Bool.toNat val)
    | .float, _ | .double, _ | .string, _ => []
  get
    | .uint8, text => (UInt8.ofNat (getBelow 256 text).1, (getBelow 256 text).2)
    | .uint16, text => (UInt16.ofNat (getBelow 65536 text).1, (getBelow 65536 text).2)
    | .uint32, text => (UInt32.ofNat (getBelow 4294967296 text).1, (getBelow 4294967296 text).2)
    | .uint64, text =>
      (UInt64.ofNat (getBelow 18446744073709551616 text).1,
        (getBelow 18446744073709551616 text).2)
    | .bool, text => (decide ((getBelow 2 text).1 = 1), (getBelow 2 text).2)
    | .float, text => ((0 : UInt32), text, true)
    | .double, text => ((0 : UInt64), text, true)
    | .string, text => (([] : Text), text, true)

theorem toNat_digit {n : Nat} (small : n < 10) : (UInt8.ofNat (48 + n)).toNat = 48 + n :=
  UInt8.toNat_ofNat_of_lt' (show 48 + n < 256 by omega)

theorem isDigit_digit {n : Nat} (small : n < 10) : isDigit (UInt8.ofNat (48 + n)) = true := by
  have value := toNat_digit small
  simp only [isDigit, Bool.and_eq_true, decide_eq_true_eq, UInt8.le_iff_toNat_le, value]
  exact ⟨Nat.le_add_right _ _, show 48 + n ≤ 57 by omega⟩

theorem isDigit_of_mem_digits {fuel n : Nat} {c : UInt8} (member : c ∈ digits fuel n) :
    isDigit c = true := by
  induction fuel generalizing n with
  | zero => exact absurd member List.not_mem_nil
  | succ fuel ih =>
    rw [digits] at member
    split at member
    · next small =>
      obtain rfl := List.mem_singleton.mp member
      exact isDigit_digit small
    · rcases List.mem_append.mp member with front | last
      · exact ih front
      · obtain rfl := List.mem_singleton.mp last
        exact isDigit_digit (Nat.mod_lt _ (by decide))

theorem digits_ne_nil {fuel : Nat} (n : Nat) (positive : 0 < fuel) : digits fuel n ≠ [] := by
  cases fuel with
  | zero => exact absurd positive (Nat.lt_irrefl 0)
  | succ fuel =>
    rw [digits]
    split
    · exact List.cons_ne_nil _ _
    · exact List.append_ne_nil_of_right_ne_nil _ (List.cons_ne_nil _ _)

theorem numeral_append (text : Text) (c : UInt8) :
    numeral (text ++ [c]) = 10 * numeral text + (c.toNat - 48) := by
  rw [numeral, List.foldl_append]
  rfl

theorem numeral_digits {fuel n : Nat} (enough : n < 10 ^ fuel) : numeral (digits fuel n) = n := by
  induction fuel generalizing n with
  | zero => exact (Nat.lt_one_iff.mp enough).symm
  | succ fuel ih =>
    rw [digits]
    split
    · next small =>
      have value := toNat_digit small
      simp only [numeral, List.foldl_cons, List.foldl_nil, value]
      omega
    · have front : n / 10 < 10 ^ fuel := Nat.div_lt_of_lt_mul (by rwa [← Nat.pow_succ'])
      rw [numeral_append, ih front, toNat_digit (Nat.mod_lt _ (by decide))]
      omega

/-- A number is read back wherever its digits end in a text. -/
theorem getBelow_digits {bound fuel n : Nat} (below : n < bound) (enough : n < 10 ^ fuel)
    (positive : 0 < fuel) {rest : Text} (boundary : Boundary rest) :
    getBelow bound (digits fuel n ++ rest) = (n, rest, false) := by
  have all : ∀ c ∈ digits fuel n, isDigit c = true := fun c => isDigit_of_mem_digits
  have stops : rest.takeWhile isDigit = [] ∧ rest.dropWhile isDigit = rest := by
    cases rest with
    | nil => exact ⟨rfl, rfl⟩
    | cons c rest =>
      rcases boundary with none | first
      · exact absurd none (List.cons_ne_nil _ _)
      · obtain rfl := Option.some.inj first
        exact ⟨rfl, rfl⟩
  have front : (digits fuel n ++ rest).takeWhile isDigit = digits fuel n := by
    rw [List.takeWhile_append_of_pos all, stops.1, List.append_nil]
  have behind : (digits fuel n ++ rest).dropWhile isDigit = rest := by
    rw [List.dropWhile_append_of_pos all, stops.2]
  rw [getBelow, front, behind, if_neg (digits_ne_nil n positive), numeral_digits enough,
    if_pos below]

theorem isSpace_of_isDigit {c : UInt8} (digit : isDigit c = true) : isSpace c = false := by
  simp only [isDigit, isSpace, blank, Bool.and_eq_true, decide_eq_true_eq, Bool.or_eq_false_iff,
    beq_eq_false_iff_ne, Bool.and_eq_false_iff, decide_eq_false_iff_not, UInt8.le_iff_toNat_le,
    ne_eq, ← UInt8.toNat_inj, UInt8.reduceToNat] at digit ⊢
  omega

theorem visible_digits {fuel n : Nat} : ∀ c ∈ (digits fuel n).head?, isSpace c = false := by
  intro c first
  exact isSpace_of_isDigit (isDigit_of_mem_digits (List.mem_of_mem_head? first))

theorem survives_of_digits {k : Kind} {val : k.Carrier} (toNat : k.Carrier → Nat)
    (ofNat : Nat → k.Carrier) (bound : Nat)
    (puts : decimalText.put k val = digits 20 (toNat val))
    (gets : ∀ text, decimalText.get k text =
      (ofNat (getBelow bound text).1, (getBelow bound text).2))
    (back : ofNat (toNat val) = val) (below : toNat val < bound) (small : bound ≤ 10 ^ 20) :
    decimalText.Survives k val where
  some' := by rw [puts]; exact digits_ne_nil _ (by decide)
  visible := by rw [puts]; exact visible_digits
  reads rest boundary := by
    rw [gets, puts, getBelow_digits below (Nat.lt_of_lt_of_le below small) (by decide) boundary,
      back]

/-- Every integer, and every `bool`, is read back. -/
theorem integers_decimalText : decimalText.Integers where
  uint16 val := survives_of_digits UInt16.toNat UInt16.ofNat 65536 rfl (fun _ => rfl)
    UInt16.ofNat_toNat val.toNat_lt (by decide)
  uint32 val := survives_of_digits UInt32.toNat UInt32.ofNat 4294967296 rfl (fun _ => rfl)
    UInt32.ofNat_toNat val.toNat_lt (by decide)
  uint64 val := survives_of_digits UInt64.toNat UInt64.ofNat 18446744073709551616 rfl
    (fun _ => rfl) UInt64.ofNat_toNat val.toNat_lt (by decide)
  bool val := survives_of_digits Bool.toNat (fun n => decide (n = 1)) 2 rfl (fun _ => rfl)
    (by cases val <;> rfl) val.toNat_lt (by decide)

end VRJuggler.Io
