import Mathlib.Data.List.TakeWhile
import VRJuggler.Io.ObjectStream

/-!
# Text streams

`std::stringstream` as a source of numbers and of quoted strings, as the XML reader uses
it. How numbers are written as text and read from it is a parameter: `operator<<` and
`operator>>` of the standard library.
-/
namespace VRJuggler.Io

abbrev Text := List UInt8

/-- The code of `"`. -/
def quote : UInt8 := 34

/-- The code of a blank. -/
def blank : UInt8 := 32

/-- `std::isspace`. -/
def isSpace (c : UInt8) : Bool := c == blank || 9 ≤ c && c ≤ 13

/-- The content of a stream, what of it is not read yet, and the state flags. -/
structure TextStream where
  str : Text
  rest : Text
  eof : Bool
  fail : Bool
  deriving DecidableEq

/-- `operator<<` and `operator>>` for each kind of number. `get` is given a text that does
not begin with white space; it returns the value, the text behind what it took, and whether
it sets `failbit`. -/
structure NumberText where
  put : (k : Kind) → k.Carrier → Text
  get : (k : Kind) → Text → k.Carrier × Text × Bool

namespace TextStream

def ofStr (str : Text) : TextStream where
  str := str
  rest := str
  eof := false
  fail := false

/-- `str(content)` begins again at the front; the flags stay. -/
def setStr (s : TextStream) (content : Text) : TextStream :=
  { s with str := content, rest := content }

def clear (s : TextStream) : TextStream := { s with eof := false, fail := false }

/-- `seekg(0, std::ios::beg)`. -/
def seekBeg (s : TextStream) : TextStream :=
  if s.fail then s else { s with rest := s.str, eof := false }

/-- `readValueStringRep`. The end of the stream is noticed when the number that was read
last ended there; behind white space only, the variable stays uninitialized. -/
def readValueStringRep (nt : NumberText) (k : Kind) : Reading TextStream k.Carrier := fun s =>
  if s.fail then (.error .ioException, s)
  else if s.eof then (.error .eofException, s)
  else
    match s.rest.dropWhile isSpace with
    | [] => (.error .undefined, { s with rest := [], eof := true, fail := true })
    | c :: text =>
      let found := nt.get k (c :: text)
      (.ok found.1, { s with rest := found.2.1, eof := found.2.1.isEmpty, fail := found.2.2 })

/-- The loop of `readString` up to the first quote. It does not end where there is none. -/
def findQuote : Text → Except Fault Unit × Text
  | [] => (.error .undefined, [])
  | c :: rest =>
    if c = quote then (.ok (), rest)
    else if c = 60 ∨ c = 62 then (.error .ioException, rest)
    else findQuote rest

/-- The loop up to the second quote: chunks of at most 1023 characters, of which what
follows a zero byte is lost. `none` when `fuel` rounds are not enough. -/
def readChunks : Nat → Text → Text → Option (Text × Text)
  | 0, _, _ => none
  | fuel + 1, ret_val, rest =>
    if rest.head? = some quote then
      some (ret_val, rest.drop 1)
    else
      let chunk := (rest.takeWhile (· ≠ quote)).take 1023
      readChunks fuel (ret_val ++ chunk.takeWhile (· ≠ 0)) (rest.drop chunk.length)

/-- The part of `readString` that reads character data. Each round takes a character, so
more rounds than there are characters never end. -/
def readQuoted : Reading TextStream Text := fun s =>
  if s.fail || s.eof then (.error .undefined, { s with fail := true })
  else
    match findQuote s.rest with
    | (.error fault, rest) => (.error fault, { s with rest })
    | (.ok (), rest) =>
      match readChunks (rest.length + 1) [] rest with
      | none => (.error .undefined, { s with rest := [], eof := true, fail := true })
      | some (ret_val, rest) => (.ok ret_val, { s with rest })

end TextStream

/-! ## Reading what was written -/

/-- What follows a value in a text: nothing, or a blank. -/
def Boundary (text : Text) : Prop := text = [] ∨ text.head? = some blank

/-- The text of a number is read back as the number, wherever it ends in a text. -/
structure NumberText.Survives (nt : NumberText) (k : Kind) (val : k.Carrier) : Prop where
  some' : nt.put k val ≠ []
  visible : ∀ c ∈ (nt.put k val).head?, isSpace c = false
  reads : ∀ rest, Boundary rest → nt.get k (nt.put k val ++ rest) = (val, rest, false)

/-- What a quoted string may consist of: no quote, and no zero byte. -/
def Plain (val : Text) : Prop := ∀ c ∈ val, c ≠ quote ∧ c ≠ 0

instance (val : Text) : Decidable (Plain val) :=
  inferInstanceAs (Decidable (∀ c ∈ val, c ≠ quote ∧ c ≠ 0))

namespace TextStream

/-- The blank that separates a value from the one before it, if any. -/
def Separator (text : Text) : Prop := text = [] ∨ text = [blank]

theorem dropWhile_isSpace {sep text : Text} (separator : Separator sep)
    (visible : ∀ c ∈ text.head?, isSpace c = false) :
    (sep ++ text).dropWhile isSpace = text := by
  have stops : text.dropWhile isSpace = text := by
    cases text with
    | nil => rfl
    | cons c text => rw [List.dropWhile_cons_of_neg]; simp [visible c rfl]
  rcases separator with rfl | rfl
  · exact stops
  · rw [List.singleton_append, List.dropWhile_cons_of_pos (by decide), stops]

theorem readValueStringRep_put {nt : NumberText} {k : Kind} {val : k.Carrier}
    (survives : nt.Survives k val) {s : TextStream} (good : s.fail = false ∧ s.eof = false)
    {sep rest : Text} (separator : Separator sep) (boundary : Boundary rest)
    (text : s.rest = sep ++ (nt.put k val ++ rest)) :
    readValueStringRep nt k s = (.ok val, { s with rest, eof := rest.isEmpty }) := by
  cases front : nt.put k val with
  | nil => exact absurd front survives.some'
  | cons c more =>
    have visible : ∀ d ∈ (nt.put k val ++ rest).head?, isSpace d = false := by
      intro d member
      rw [front] at member
      exact survives.visible d (by rw [front]; exact member)
    have skipped := dropWhile_isSpace separator visible
    have reads := survives.reads rest boundary
    rw [front, List.cons_append] at skipped reads
    rw [readValueStringRep, good.1, good.2, text, front, List.cons_append, skipped]
    simp only [Bool.false_eq_true, if_false, reads]

theorem findQuote_separator {sep rest : Text} (separator : Separator sep) :
    findQuote (sep ++ quote :: rest) = (.ok (), rest) := by
  rcases separator with rfl | rfl
  · rfl
  · rfl

/-- Characters without a quote are taken chunk by chunk, up to the next quote. -/
theorem readChunks_plain {fuel : Nat} {val : Text} (plain : Plain val) (ret_val rest : Text)
    (enough : val.length < fuel) :
    readChunks fuel ret_val (val ++ quote :: rest) = some (ret_val ++ val, rest) := by
  induction fuel generalizing val ret_val with
  | zero => omega
  | succ fuel ih =>
    cases val with
    | nil => simp [readChunks]
    | cons c val =>
      have first : ¬ (c :: val ++ quote :: rest).head? = some quote := by
        simpa using (plain c (List.mem_cons_self ..)).1
      have whole : (c :: val ++ quote :: rest).takeWhile (· ≠ quote) = c :: val := by
        rw [List.takeWhile_append_of_pos fun d member => by
          simpa using (plain d member).1]
        simp
      have chunk : ((c :: val).take 1023).takeWhile (· ≠ 0) = (c :: val).take 1023 := by
        rw [List.takeWhile_eq_self_iff]
        intro d member
        simpa using (plain d (List.take_subset _ _ member)).2
      have later : Plain ((c :: val).drop 1023) :=
        fun d member => plain d (List.drop_subset _ _ member)
      have behindChunk : (c :: val ++ quote :: rest).drop ((c :: val).take 1023).length =
          (c :: val).drop 1023 ++ quote :: rest := by
        rw [List.length_take, List.drop_append_of_le_length (Nat.min_le_right _ _)]
        congr 1
        by_cases short : (c :: val).length ≤ 1023
        · rw [Nat.min_eq_right short, List.drop_length, List.drop_eq_nil_of_le short]
        · rw [Nat.min_eq_left (by omega)]
      rw [readChunks, if_neg first]
      simp only [whole, chunk, behindChunk]
      rw [ih later _ (by simp only [List.length_drop, List.length_cons] at enough ⊢; omega),
        List.append_assoc, List.take_append_drop]

theorem readQuoted_plain {val : Text} (plain : Plain val) {s : TextStream}
    (good : s.fail = false ∧ s.eof = false) {sep rest : Text} (separator : Separator sep)
    (text : s.rest = sep ++ quote :: (val ++ quote :: rest)) :
    readQuoted s = (.ok val, { s with rest }) := by
  have enough : val.length < (val ++ quote :: rest).length + 1 := by
    rw [List.length_append]
    omega
  rw [readQuoted, good.1, good.2, text, findQuote_separator separator]
  simp only [Bool.or_self, Bool.false_eq_true, if_false]
  rw [readChunks_plain plain [] rest enough]
  rfl

end TextStream

end VRJuggler.Io
