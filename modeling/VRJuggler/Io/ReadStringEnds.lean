import VRJuggler.Base.Hierarchy
import VRJuggler.Io.XmlObject

/-!
# When a quoted string has been read

The two loops of `XMLObjectReader::readString` wait for a character. Here each round is one
call of the stream after the other, with the flags they set, so that it can be said for
which contents the loops come to their end.
-/
namespace VRJuggler.Io

/-- `EOF` as a `char`. -/
def endOfFile : UInt8 := 255

namespace TextStream

def good (s : TextStream) : Bool := !s.eof && !s.fail

/-- `get(char&)`: where no character is to be had, the variable keeps its value. -/
def getChar (temp_char : UInt8) (s : TextStream) : UInt8 × TextStream :=
  if s.good then
    match s.rest with
    | [] => (temp_char, { s with eof := true, fail := true })
    | c :: rest => (c, { s with rest })
  else (temp_char, { s with fail := true })

/-- `peek()`; `none` is `EOF`. -/
def peek (s : TextStream) : Option UInt8 × TextStream :=
  if s.good then
    match s.rest with
    | [] => (none, { s with eof := true })
    | c :: _ => (some c, s)
  else (none, { s with fail := true })

/-- What `peek()` gives, as a `char`. -/
def next_char (s : TextStream) : UInt8 := s.peek.1.getD endOfFile

/-- `get(char_buffer, 1024, '"')`. -/
def getBuffer (s : TextStream) : Text × TextStream :=
  if s.good then
    let chunk := (s.rest.takeWhile (· ≠ quote)).take 1023
    let rest := s.rest.drop chunk.length
    (chunk, { s with rest, eof := rest.isEmpty, fail := chunk.isEmpty })
  else ([], { s with fail := true })

/-- `ignore(1)`. -/
def ignore (s : TextStream) : TextStream :=
  if s.good then
    match s.rest with
    | [] => { s with eof := true }
    | _ :: rest => { s with rest }
  else { s with fail := true }

/-- `while ( '"' != temp_char )`; `none` when `fuel` rounds are not enough. -/
def firstQuote : Nat → UInt8 → TextStream → Option (Except Fault Unit × TextStream)
  | 0, _, _ => none
  | fuel + 1, temp_char, s =>
    if temp_char = quote then some (.ok (), s)
    else
      let read := s.getChar temp_char
      if read.1 = 62 ∨ read.1 = 60 then some (.error .ioException, read.2)
      else firstQuote fuel read.1 read.2

/-- `while(!done_reading)`. A buffer is appended as a C string, so up to its first zero. -/
def secondQuote : Nat → Text → Bool → TextStream → Option (Text × TextStream)
  | 0, _, _, _ => none
  | fuel + 1, ret_val, done_reading, s =>
    if done_reading then some (ret_val, s)
    else
      let read := s.getBuffer
      secondQuote fuel (ret_val ++ read.1.takeWhile (· ≠ 0)) (read.2.next_char == quote)
        read.2.peek.2

/-- `readString` on character data. The variable holds a `'0'` at first. -/
def readCdata (fuel : Nat) (s : TextStream) : Option (Except Fault Text × TextStream) :=
  match firstQuote fuel 48 s with
  | none => none
  | some (.error fault, s) => some (.error fault, s)
  | some (.ok (), s) =>
    (secondQuote fuel [] (s.next_char == quote) s.peek.2).map fun read =>
      (.ok read.1, read.2.ignore)

end TextStream

/-- `readString`, with its loops cut off after `fuel` rounds. -/
def XMLObjectReader.readStringFor (fuel : Nat) (r : XMLObjectReader) :
    Option (Except Fault Text × XMLObjectReader) :=
  match r.mCurSource with
  | .attrib => some (.ok r.mAttribSource.str, r)
  | .cdata =>
    match r.mCurNodeStack.items with
    | [] => some (.error .undefined, r)
    | back :: below =>
      (back.cdataSource.readCdata fuel).map fun ended => (ended.1, { r with
        mCurNodeStack := { r.mCurNodeStack with
          items := { back with cdataSource := ended.2 } :: below } })

/-! ## What stands in a text -/

/-- A character that the search for the first quote passes over. -/
def Passed (c : UInt8) : Prop := c ≠ quote ∧ c ≠ 62 ∧ c ≠ 60

/-- Between the first two quotes of the text stands `val`, and no tag begins or ends before. -/
def Quoted (text val rest : Text) : Prop :=
  ∃ front, (∀ c ∈ front, Passed c) ∧ quote ∉ val ∧ text = front ++ quote :: (val ++ quote :: rest)

/-- A tag begins or ends before the first quote. -/
def Undelimited (text : Text) : Prop :=
  ∃ front c rest, (∀ d ∈ front, Passed d) ∧ (c = 62 ∨ c = 60) ∧ text = front ++ c :: rest

/-- There is no quote, or only one. -/
def Unclosed (text : Text) : Prop :=
  (∀ c ∈ text, Passed c) ∨
    ∃ front val, (∀ c ∈ front, Passed c) ∧ quote ∉ val ∧ text = front ++ quote :: val

theorem quoted_or_quote_free (text : Text) :
    quote ∉ text ∨ ∃ val rest, quote ∉ val ∧ text = val ++ quote :: rest := by
  by_cases free : quote ∈ text
  · obtain ⟨val, rest, rfl, before⟩ := List.eq_append_cons_of_mem free
    exact .inr ⟨val, rest, before, rfl⟩
  · exact .inl free

/-- Every text is of one of the three kinds. -/
theorem undelimited_or_quoted_or_unclosed (text : Text) :
    Undelimited text ∨ (∃ val rest, Quoted text val rest) ∨ Unclosed text := by
  induction text with
  | nil => simp [Unclosed]
  | cons c text ih =>
    by_cases isQuote : c = quote
    · -- the string begins here
      subst isQuote
      rcases quoted_or_quote_free text with free | ⟨val, rest, free, rfl⟩
      · exact .inr (.inr (.inr ⟨[], text, by simp, free, by simp⟩))
      · exact .inr (.inl ⟨val, rest, [], by simp, free, by simp⟩)
    by_cases tag : c = 62 ∨ c = 60
    · exact .inl ⟨[], c, text, by simp, tag, by simp⟩
    have passed : Passed c := ⟨isQuote, by tauto, by tauto⟩
    have longer {front : Text} (before : ∀ d ∈ front, Passed d) : ∀ d ∈ c :: front, Passed d := by
      simpa using ⟨passed, before⟩
    rcases ih with
      ⟨front, d, rest, before, delim, rfl⟩ | ⟨val, rest, front, before, free, rfl⟩ | none'
    · exact .inl ⟨c :: front, d, rest, longer before, delim, by simp⟩
    · exact .inr (.inl ⟨val, rest, c :: front, longer before, free, by simp⟩)
    · rcases none' with none' | ⟨front, val, before, free, rfl⟩
      · exact .inr (.inr (.inl (longer none')))
      · exact .inr (.inr (.inr ⟨c :: front, val, longer before, free, by simp⟩))

/-! ## The loops -/

namespace TextStream

variable {temp_char : UInt8} {s : TextStream}

theorem good_iff : s.good = true ↔ s.eof = false ∧ s.fail = false := by
  simp [good]

variable (temp_char) in
theorem getChar_of_cons (good : s.good = true) {c : UInt8} {rest : Text}
    (text : s.rest = c :: rest) : s.getChar temp_char = (c, { s with rest }) := by
  simp [getChar, good, text]

variable (temp_char s) in
/-- A call of `get` leaves the variable alone, or takes a character for it. -/
theorem getChar_cases :
    ((s.getChar temp_char).1 = temp_char ∨ (s.getChar temp_char).1 ∈ s.rest) ∧
      (s.getChar temp_char).2.rest ⊆ s.rest := by
  unfold getChar
  split
  · split
    · next text => simp [text]
    · next c rest text => simp [text]
  · simp

/-- Without a quote or a tag the first loop goes on forever, also when the stream has failed:
its variable then keeps what it holds. -/
theorem firstQuote_passed (fuel : Nat) (held : Passed temp_char)
    (passed : ∀ c ∈ s.rest, Passed c) : firstQuote fuel temp_char s = none := by
  induction fuel generalizing temp_char s with
  | zero => simp [firstQuote]
  | succ fuel ih =>
    obtain ⟨char, fewer⟩ := getChar_cases temp_char s
    have next : Passed (s.getChar temp_char).1 := by
      rcases char with same | taken
      · rw [same]
        exact held
      · exact passed _ taken
    rw [firstQuote, if_neg held.1, if_neg (not_or.mpr next.2)]
    exact ih next fun c member => passed c (fewer member)

theorem firstQuote_failed (fuel : Nat) (held : Passed temp_char) (bad : s.good = false) :
    firstQuote fuel temp_char s = none := by
  induction fuel generalizing s with
  | zero => simp [firstQuote]
  | succ fuel ih =>
    have same : s.getChar temp_char = (temp_char, { s with fail := true }) := by
      simp [getChar, bad]
    rw [firstQuote, if_neg held.1, same, if_neg (not_or.mpr held.2)]
    exact ih (by simp [good])

/-- Characters that are passed over cost one round each. -/
theorem firstQuote_append {front tail : Text} {found : Except Fault Unit × TextStream}
    (good : s.good = true) (held : Passed temp_char) (before : ∀ c ∈ front, Passed c)
    (text : s.rest = front ++ tail)
    (found' : ∀ c, Passed c → Returns (firstQuote · c { s with rest := tail }) found) :
    Returns (firstQuote · temp_char s) found := by
  induction front generalizing temp_char s with
  | nil =>
    have same : s = { s with rest := tail } := by rw [← List.nil_append tail, ← text]
    rw [same]
    exact found' temp_char held
  | cons c front ih =>
    have first : Passed c := before c (List.mem_cons_self ..)
    have read := getChar_of_cons temp_char good text
    refine Returns.congr (fun depth => ?_)
      (?_ : Returns (firstQuote · c { s with rest := front ++ tail }) found)
    · rw [firstQuote, if_neg held.1, read, if_neg (not_or.mpr first.2)]
      simp only [List.append_eq]
    · exact ih (s := { s with rest := front ++ tail }) good first
        (fun d member => before d (List.mem_cons_of_mem c member)) rfl found'

theorem firstQuote_tag {front rest : Text} {c : UInt8} (good : s.good = true)
    (held : Passed temp_char) (before : ∀ d ∈ front, Passed d) (tag : c = 62 ∨ c = 60)
    (text : s.rest = front ++ c :: rest) :
    Returns (firstQuote · temp_char s) (.error .ioException, { s with rest }) := by
  apply firstQuote_append good held before text
  intro d passed
  refine Returns.congr (fun depth => ?_)
    (Returns.of_some (Except.error Fault.ioException, { s with rest }))
  rw [firstQuote, if_neg passed.1, getChar_of_cons d (s := { s with rest := c :: rest }) good rfl,
    if_pos tag]

theorem firstQuote_quote {front rest : Text} (good : s.good = true) (held : Passed temp_char)
    (before : ∀ d ∈ front, Passed d) (text : s.rest = front ++ quote :: rest) :
    Returns (firstQuote · temp_char s) (.ok (), { s with rest }) := by
  apply firstQuote_append good held before text
  intro d passed
  -- one round takes the quote, and the next one sees it
  refine ⟨2, fun depth enough => ?_⟩
  obtain ⟨depth, rfl⟩ : ∃ more, depth = more + 2 := ⟨depth - 2, by omega⟩
  have read := getChar_of_cons d (s := { s with rest := quote :: rest }) good rfl
  have noTag : ¬ (quote = 62 ∨ quote = 60) := by decide
  show firstQuote (depth + 2) d { s with rest := quote :: rest } = _
  rw [firstQuote, if_neg passed.1, read, if_neg noTag, firstQuote, if_pos rfl]

theorem getBuffer_rest : s.getBuffer.2.rest ⊆ s.rest := by
  unfold getBuffer
  split
  · exact List.drop_subset _ _
  · exact List.Subset.refl _

theorem peek_rest : s.peek.2.rest = s.rest := by
  unfold peek
  split
  · split <;> simp_all
  · simp

theorem next_char_ne_quote (free : quote ∉ s.rest) : (s.next_char == quote) = false := by
  have other : (endOfFile == quote) = false := by decide
  unfold next_char peek
  split
  · split
    · exact other
    · next c rest text =>
      rw [text, List.mem_cons, not_or] at free
      simpa using Ne.symm free.1
  · exact other

/-- Without a second quote the other loop goes on forever: at the end of the content `peek`
and `get` have nothing to give. -/
theorem secondQuote_free (fuel : Nat) (ret_val : Text) (free : quote ∉ s.rest) :
    secondQuote fuel ret_val false s = none := by
  induction fuel generalizing ret_val s with
  | zero => simp [secondQuote]
  | succ fuel ih =>
    have left : quote ∉ s.getBuffer.2.rest := fun member => free (getBuffer_rest member)
    simp only [secondQuote, Bool.false_eq_true, if_false]
    rw [next_char_ne_quote left]
    exact ih _ (by rw [peek_rest]; exact left)

theorem peek_of_cons (good : s.good = true) {c : UInt8} {rest : Text} (text : s.rest = c :: rest) :
    s.next_char = c ∧ s.peek.2 = s := by
  simp [next_char, peek, good, text]

theorem takeWhile_quote {val rest : Text} (free : quote ∉ val) :
    (val ++ quote :: rest).takeWhile (· ≠ quote) = val := by
  have other : ∀ d ∈ val, d ≠ quote := fun d member same => free (same ▸ member)
  rw [List.takeWhile_append_of_pos fun d member => by simpa using other d member]
  simp

/-- What is left behind the chunk that was taken. -/
theorem drop_chunk (val rest : Text) :
    (val ++ quote :: rest).drop (val.take 1023).length = val.drop 1023 ++ quote :: rest := by
  rw [List.length_take, List.drop_append_of_le_length (Nat.min_le_right _ _)]
  congr 1
  by_cases short : val.length ≤ 1023
  · rw [Nat.min_eq_right short, List.drop_length, List.drop_eq_nil_of_le short]
  · rw [Nat.min_eq_left (by omega)]

/-- Of a text before a quote, `get` takes the first 1023 characters. -/
theorem getBuffer_of_quote (good : s.good = true) {c : UInt8} {val rest : Text}
    (free : quote ∉ c :: val) (text : s.rest = c :: val ++ quote :: rest) :
    s.getBuffer =
      ((c :: val).take 1023, { s with rest := (c :: val).drop 1023 ++ quote :: rest }) := by
  have flags := good_iff.mp good
  simp only [getBuffer, good, text, if_true, takeWhile_quote free, drop_chunk]
  simp [flags.1, flags.2]

/-- What stays of a buffer when it is appended, and of what is read after it, is the text
just when there is no zero byte in it. -/
theorem kept_iff {val kept : Text} (shorter : kept.length ≤ (val.drop 1023).length)
    (later : kept = val.drop 1023 ↔ 0 ∉ val.drop 1023) :
    ((val.take 1023).takeWhile (· ≠ 0) ++ kept).length ≤ val.length ∧
      ((val.take 1023).takeWhile (· ≠ 0) ++ kept = val ↔ 0 ∉ val) := by
  have front := (List.takeWhile_prefix (l := val.take 1023) fun c => c ≠ 0).length_le
  have sum : (val.take 1023).length + (val.drop 1023).length = val.length := by
    rw [← List.length_append, List.take_append_drop]
  have stays : (val.take 1023).takeWhile (· ≠ 0) = val.take 1023 ↔ 0 ∉ val.take 1023 := by
    rw [List.takeWhile_eq_self_iff]
    constructor
    · intro all zero
      simpa using all 0 zero
    · intro none' c member
      have other : c ≠ 0 := fun same => none' (same ▸ member)
      simpa using other
  refine ⟨by rw [List.length_append]; omega, ?_⟩
  calc (val.take 1023).takeWhile (· ≠ 0) ++ kept = val
      ↔ (val.take 1023).takeWhile (· ≠ 0) ++ kept = val.take 1023 ++ val.drop 1023 := by
        rw [List.take_append_drop]
    _ ↔ (val.take 1023).takeWhile (· ≠ 0) = val.take 1023 ∧ kept = val.drop 1023 := by
        constructor
        · intro same
          -- neither part is longer than the one it stands for
          have lengths := congrArg List.length same
          simp only [List.length_append] at lengths
          exact List.append_inj same (by omega)
        · rintro ⟨left, right⟩
          rw [left, right]
    _ ↔ 0 ∉ val.take 1023 ∧ 0 ∉ val.drop 1023 := by rw [stays, later]
    _ ↔ 0 ∉ val := by rw [← not_or, ← List.mem_append, List.take_append_drop]

/-- The second loop comes to the quote, with the text before it unless a zero byte cut a
buffer short; what `readChunks` says of it is the same. -/
theorem secondQuote_quote (good : s.good = true) (ret_val : Text) {val rest : Text}
    (free : quote ∉ val) (text : s.rest = val ++ quote :: rest) :
    ∃ kept, (∀ fuel, val.length < fuel →
        secondQuote fuel ret_val (s.next_char == quote) s.peek.2 =
          some (ret_val ++ kept, { s with rest := quote :: rest }) ∧
        readChunks fuel ret_val s.rest = some (ret_val ++ kept, rest)) ∧
      kept.length ≤ val.length ∧ (kept = val ↔ 0 ∉ val) := by
  induction size : val.length using Nat.strong_induction_on generalizing val ret_val s with
  | _ n ih =>
    cases val with
    | nil =>
      have seen := peek_of_cons good text
      have same : s = { s with rest := quote :: rest } := by
        rw [← List.nil_append (quote :: rest), ← text]
      refine ⟨[], fun fuel enough => ?_, by simp, by simp⟩
      obtain ⟨fuel, rfl⟩ : ∃ more, fuel = more + 1 := ⟨fuel - 1, by omega⟩
      constructor
      · simp only [seen.1, seen.2, beq_self_eq_true, secondQuote, if_true, List.append_nil]
        rw [← same]
      · simp [readChunks, text]
    | cons c val =>
      have seen := peek_of_cons good text
      have notFirst : c ≠ quote := fun same => free (same ▸ List.mem_cons_self ..)
      have other : (c == quote) = false := by simpa using notFirst
      have read := getBuffer_of_quote good free text
      -- the rest of the string is read in the rounds that follow
      have fewer : ((c :: val).drop 1023).length < n := by
        rw [List.length_drop, size]
        simp only [List.length_cons] at size
        omega
      obtain ⟨kept, returns, shorter, later⟩ := ih _ fewer
        (s := { s with rest := (c :: val).drop 1023 ++ quote :: rest }) good
        (ret_val ++ ((c :: val).take 1023).takeWhile (· ≠ 0))
        (fun member => free (List.drop_subset _ _ member)) rfl rfl
      have facts := kept_iff shorter later
      refine ⟨((c :: val).take 1023).takeWhile (· ≠ 0) ++ kept, fun fuel enough => ?_,
        size ▸ facts.1, facts.2⟩
      obtain ⟨fuel, rfl⟩ : ∃ more, fuel = more + 1 := ⟨fuel - 1, by omega⟩
      have rounds := returns fuel (by omega)
      rw [← List.append_assoc]
      constructor
      · simp only [seen.1, seen.2, other, secondQuote, Bool.false_eq_true, if_false, read]
        exact rounds.1
      · rw [readChunks, if_neg (by simpa [text] using notFirst), text]
        simp only [takeWhile_quote free, drop_chunk]
        exact rounds.2

/-! ## Character data -/

theorem findQuote_append {front tail : Text} (before : ∀ c ∈ front, Passed c) :
    findQuote (front ++ tail) = findQuote tail := by
  induction front with
  | nil => simp
  | cons c front ih =>
    have first : Passed c := before c (List.mem_cons_self ..)
    rw [List.cons_append, findQuote, if_neg first.1, if_neg (fun tag => ?_)]
    · exact ih fun d member => before d (List.mem_cons_of_mem c member)
    · rcases tag with tag | tag
      · exact first.2.2 tag
      · exact first.2.1 tag

/-- The variable of the first loop holds a `'0'` when the loop begins. -/
theorem passed_zero : Passed 48 := by unfold Passed; decide

theorem readCdata_undelimited (good : s.good = true) (text : Undelimited s.rest) :
    ∃ rest, Returns (readCdata · s) (.error .ioException, { s with rest }) ∧
      readQuoted s = (.error .ioException, { s with rest }) := by
  obtain ⟨front, c, rest, before, tag, text⟩ := text
  have flags := good_iff.mp good
  obtain ⟨deep, found⟩ := firstQuote_tag good passed_zero before tag text
  refine ⟨rest, ⟨deep, fun depth enough => ?_⟩, ?_⟩
  · show readCdata depth s = _
    simp only [readCdata, found depth enough]
  · have search : findQuote (c :: rest) = (.error .ioException, rest) := by
      rcases tag with rfl | rfl <;> simp [findQuote, quote]
    simp [readQuoted, flags.1, flags.2, text, findQuote_append before, search]

theorem readCdata_quoted (good : s.good = true) {val rest : Text}
    (text : Quoted s.rest val rest) :
    ∃ kept, Returns (readCdata · s) (.ok kept, { s with rest }) ∧
      readQuoted s = (.ok kept, { s with rest }) ∧ (kept = val ↔ 0 ∉ val) := by
  obtain ⟨front, before, free, text⟩ := text
  have flags := good_iff.mp good
  obtain ⟨deep, found⟩ := firstQuote_quote good passed_zero before text
  obtain ⟨kept, rounds, -, whole⟩ := secondQuote_quote
    (s := { s with rest := val ++ quote :: rest }) good [] free rfl
  refine ⟨kept, ⟨max deep (val.length + 1), fun depth enough => ?_⟩, ?_, whole⟩
  · have first := found depth (by omega)
    have second := (rounds depth (by omega)).1
    have closed : ignore { s with rest := quote :: rest } = { s with rest } := by
      simp [ignore, TextStream.good, flags.1, flags.2]
    show readCdata depth s = _
    simp only [readCdata, first, second, Option.map_some, closed, List.nil_append]
  · have search : findQuote (quote :: (val ++ quote :: rest)) = (.ok (), val ++ quote :: rest) := by
      simp [findQuote]
    have chunks := (rounds ((val ++ quote :: rest).length + 1)
      (by simp only [List.length_append, List.length_cons]; omega)).2
    simp only [List.nil_append] at chunks
    simp only [readQuoted, flags.1, flags.2, text, findQuote_append before, search, chunks]
    simp

/-- With no second quote, or without a good stream, no number of rounds is enough. -/
theorem readCdata_none (text : s.good = true → Unclosed s.rest) (deep : Nat) :
    ∃ fuel, deep ≤ fuel ∧ readCdata fuel s = none := by
  by_cases good : s.good = true
  · rcases text good with passed | ⟨front, val, before, free, text⟩
    · exact ⟨deep, Nat.le_refl deep, by simp [readCdata, firstQuote_passed deep passed_zero passed]⟩
    · -- the first loop ends, and the second one does not
      obtain ⟨deep', found⟩ := firstQuote_quote good passed_zero before text
      have first := found (max deep deep') (Nat.le_max_right ..)
      have open' : quote ∉ (peek { s with rest := val }).2.rest := by
        rw [peek_rest]
        exact free
      have other := next_char_ne_quote (s := { s with rest := val }) free
      refine ⟨max deep deep', Nat.le_max_left .., ?_⟩
      simp only at first
      simp [readCdata, first, other, secondQuote_free _ [] open']
  · have failed := firstQuote_failed deep passed_zero (by simpa using good)
    exact ⟨deep, Nat.le_refl deep, by simp [readCdata, failed]⟩

/-- What the character data has to be for the loops to end. -/
def Ends (s : TextStream) : Prop :=
  s.good = true ∧ (Undelimited s.rest ∨ ∃ val rest, Quoted s.rest val rest)

theorem unclosed_of_not_ends (not : ¬ s.Ends) : s.good = true → Unclosed s.rest := by
  intro good
  rcases undelimited_or_quoted_or_unclosed s.rest with text | text | text
  · exact absurd ⟨good, .inl text⟩ not
  · exact absurd ⟨good, .inr text⟩ not
  · exact text

/-- The loops over character data come to their end just when the stream is good and a tag or
the string ends in front of its own end. -/
theorem terminates_readCdata_iff : Terminates (readCdata · s) ↔ s.Ends := by
  constructor
  · rintro ⟨ended, deep, returns⟩
    by_contra not
    obtain ⟨fuel, enough, never⟩ := readCdata_none (unclosed_of_not_ends not) deep
    have here := returns fuel enough
    simp [never] at here
  · rintro ⟨good, text | ⟨val, rest, text⟩⟩
    · obtain ⟨rest, returns, -⟩ := readCdata_undelimited good text
      exact ⟨_, returns⟩
    · obtain ⟨kept, returns, -⟩ := readCdata_quoted good text
      exact ⟨_, returns⟩

/-- Where the loops end, the shorter account of them is the same. -/
theorem readQuoted_of_returns {out : Except Fault Text} {s' : TextStream}
    (returns : Returns (readCdata · s) (out, s')) : readQuoted s = (out, s') := by
  obtain ⟨good, text | ⟨val, rest, text⟩⟩ := terminates_readCdata_iff.mp ⟨_, returns⟩
  · obtain ⟨rest, here, short⟩ := readCdata_undelimited good text
    rw [short, here.unique returns]
  · obtain ⟨kept, here, short, -⟩ := readCdata_quoted good text
    rw [short, here.unique returns]

end TextStream

/-! ## `readString` -/

namespace XMLObjectReader

variable (r : XMLObjectReader)

/-- The string that stands next: an attribute as a whole, or what is in quotes. -/
def NextString (val : Text) : Prop :=
  match r.mCurSource with
  | .attrib => val = r.mAttribSource.str
  | .cdata => ∃ back below rest,
      r.mCurNodeStack.items = back :: below ∧ Quoted back.cdataSource.rest val rest

/-- `readString` returns the string that stands next, or throws an exception. -/
def ReadsOrThrows : Prop :=
  ∃ out r', Returns (r.readStringFor ·) (out, r') ∧
    ((∃ val, r.NextString val ∧ out = .ok val) ∨ out = .error .ioException)

/-- An attribute is read, or the character data of a node, from a stream that has not failed
or ended; its text has a tag before any quote, or a string in quotes without a zero byte. -/
def Delimited : Prop :=
  r.mCurSource = .attrib ∨
    ∃ back below, r.mCurNodeStack.items = back :: below ∧ back.cdataSource.good = true ∧
      (Undelimited back.cdataSource.rest ∨
        ∃ val rest, Quoted back.cdataSource.rest val rest ∧ 0 ∉ val)

variable {r}

/-- The reader with this stream in place of the current one. -/
def withCdata (r : XMLObjectReader) (back : NodeState) (below : List NodeState)
    (s : TextStream) : XMLObjectReader :=
  { r with mCurNodeStack := { r.mCurNodeStack with
      items := { back with cdataSource := s } :: below } }

theorem readStringFor_cdata (source : r.mCurSource = .cdata) {back : NodeState}
    {below : List NodeState} (stack : r.mCurNodeStack.items = back :: below) (fuel : Nat) :
    r.readStringFor fuel = (back.cdataSource.readCdata fuel).map fun ended =>
      (ended.1, r.withCdata back below ended.2) := by
  simp [readStringFor, source, stack, withCdata]

theorem returns_of_readCdata (source : r.mCurSource = .cdata) {back : NodeState}
    {below : List NodeState} (stack : r.mCurNodeStack.items = back :: below)
    {ended : Except Fault Text × TextStream}
    (returns : Returns (TextStream.readCdata · back.cdataSource) ended) :
    Returns (r.readStringFor ·) (ended.1, r.withCdata back below ended.2) := by
  simp only [readStringFor_cdata source stack]
  exact returns.map fun ended => (ended.1, r.withCdata back below ended.2)

/-- A call that returns had a stream on which the loops end. -/
theorem ends_of_returns (source : r.mCurSource = .cdata) {back : NodeState}
    {below : List NodeState} (stack : r.mCurNodeStack.items = back :: below)
    {result : Except Fault Text × XMLObjectReader} (returns : Returns (r.readStringFor ·) result) :
    back.cdataSource.Ends := by
  by_contra not
  obtain ⟨deep, returns⟩ := returns
  obtain ⟨fuel, enough, never⟩ :=
    TextStream.readCdata_none (TextStream.unclosed_of_not_ends not) deep
  have here := returns fuel enough
  simp [readStringFor_cdata source stack, never] at here

/-- What the loops return, `readString` returns. -/
theorem readString_of_returns {out : Except Fault Text} {r' : XMLObjectReader}
    (returns : Returns (r.readStringFor ·) (out, r')) : r.readString = (out, r') := by
  cases source : r.mCurSource with
  | attrib =>
    have same : r.readStringFor = fun _ => some (.ok r.mAttribSource.str, r) := by
      funext fuel
      simp [readStringFor, source]
    rw [same] at returns
    rw [returns.unique (Returns.of_some _)]
    simp [readString, Reading.bind_apply, source]
  | cdata =>
    cases stack : r.mCurNodeStack.items with
    | nil =>
      have same : r.readStringFor = fun _ => some (.error .undefined, r) := by
        funext fuel
        simp [readStringFor, source, stack]
      rw [same] at returns
      rw [returns.unique (Returns.of_some _)]
      simp [readString, Reading.bind_apply, source, onSource, stack]
    | cons back below =>
      obtain ⟨⟨out', s⟩, ended⟩ :=
        TextStream.terminates_readCdata_iff.mpr (ends_of_returns source stack returns)
      have short := TextStream.readQuoted_of_returns ended
      rw [returns.unique (returns_of_readCdata source stack ended)]
      simp [readString, Reading.bind_apply, source, onSource, stack, short, withCdata]

theorem readsOrThrows_of_attrib (source : r.mCurSource = .attrib) : r.ReadsOrThrows := by
  refine ⟨.ok r.mAttribSource.str, r, ⟨0, fun depth _ => ?_⟩, .inl ⟨_, ?_, rfl⟩⟩
  · simp [readStringFor, source]
  · simp [NextString, source]

/-- `readString` returns the next string or throws, just when what it waits for comes. -/
theorem readsOrThrows_iff (r : XMLObjectReader) : r.ReadsOrThrows ↔ r.Delimited := by
  constructor
  · rintro ⟨out, r', returns, proper⟩
    cases source : r.mCurSource with
    | attrib => exact .inl source
    | cdata =>
      cases stack : r.mCurNodeStack.items with
      | nil =>
        obtain ⟨deep, returns⟩ := returns
        have here := returns deep (Nat.le_refl deep)
        simp only [readStringFor, source, stack, Option.some.injEq, Prod.mk.injEq] at here
        rcases proper with ⟨val, -, rfl⟩ | rfl
        · exact absurd here.1 (by simp)
        · exact absurd here.1 (by simp)
      | cons back below =>
        obtain ⟨good, text⟩ := ends_of_returns source stack returns
        refine .inr ⟨back, below, stack, good, ?_⟩
        rcases text with text | ⟨val, rest, text⟩
        · exact .inl text
        rcases proper with ⟨val', next, rfl⟩ | rfl
        · -- the string is returned whole, so that no zero byte cut it short
          simp only [NextString, source, stack, List.cons.injEq] at next
          obtain ⟨back, below, rest', ⟨rfl, rfl⟩, text'⟩ := next
          obtain ⟨kept, ended, -, whole⟩ := TextStream.readCdata_quoted good text'
          have same := returns.unique (returns_of_readCdata source stack ended)
          simp only [Prod.mk.injEq, Except.ok.injEq] at same
          exact .inr ⟨val', rest', text', whole.mp same.1.symm⟩
        · obtain ⟨kept, ended, -⟩ := TextStream.readCdata_quoted good text
          have same := returns.unique (returns_of_readCdata source stack ended)
          simp at same
  · rintro (source | ⟨back, below, stack, good, text⟩)
    · exact readsOrThrows_of_attrib source
    · cases source : r.mCurSource with
      | attrib => exact readsOrThrows_of_attrib source
      | cdata =>
        rcases text with text | ⟨val, rest, text, noZero⟩
        · obtain ⟨rest, ended, -⟩ := TextStream.readCdata_undelimited good text
          exact ⟨_, _, returns_of_readCdata source stack ended, .inr rfl⟩
        · obtain ⟨kept, ended, -, whole⟩ := TextStream.readCdata_quoted good text
          refine ⟨_, _, returns_of_readCdata source stack ended, .inl ⟨val, ?_, ?_⟩⟩
          · simp only [NextString, source, stack]
            exact ⟨back, below, rest, rfl, text⟩
          · rw [whole.mpr noZero]

/-- A node with character data that is not in quotes: no exception is thrown. -/
theorem not_readsOrThrows :
    ¬ ∀ r : XMLObjectReader, r.mCurNodeStack.items ≠ [] → r.ReadsOrThrows := by
  intro all
  let node := NodeState.ofNode (.mk "name" [] [97, 98, 99] [])
  let r : XMLObjectReader :=
    { ofRoot node.node with mCurNodeStack := { items := [node], capacity := 1 } }
  obtain ⟨out, r', ⟨deep, returns⟩, -⟩ := all r (by simp [r])
  have passed : ∀ c ∈ node.cdataSource.rest, Passed c := by
    intro c member
    have member : c ∈ [97, 98, 99] := member
    simp only [List.mem_cons, List.not_mem_nil, or_false] at member
    rcases member with rfl | rfl | rfl
    all_goals simp [Passed, quote]
  obtain ⟨fuel, enough, never⟩ := TextStream.readCdata_none (fun _ => .inl passed) deep
  have here := returns fuel enough
  simp only at here
  rw [readStringFor_cdata (r := r) rfl (rfl : r.mCurNodeStack.items = [node]), never] at here
  simp at here

end XMLObjectReader

end VRJuggler.Io
