import VRJuggler.Io.Observation
import VRJuggler.Io.XmlRoundTrip

/-!
# What can be read from a text stream

Two streams are alike when no sequence of reads tells them apart. Behind a flag that is
set the text does not matter, and a stream that is no longer at the front of its text is
not like one that is.
-/
namespace VRJuggler.Io

/-- Reading a number that does not fail takes at least one character. -/
structure NumberText.Takes (nt : NumberText) : Prop where
  shorter : ∀ k text, (nt.get k text).2.1.length ≤ text.length
  takes : ∀ k text, (nt.get k text).2.2 = false → (nt.get k text).2.1.length < text.length

theorem takes_decimalText : decimalText.Takes := by
  have shorter (bound : Nat) (text : Text) : (getBelow bound text).2.1.length ≤ text.length := by
    have behind := (List.dropWhile_sublist isDigit (l := text)).length_le
    simp only [getBelow]
    split
    · exact behind
    · split
      · exact behind
      · exact behind
  have takes (bound : Nat) (text : Text) (good : (getBelow bound text).2.2 = false) :
      (getBelow bound text).2.1.length < text.length := by
    have parts := congrArg List.length (List.takeWhile_append_dropWhile (p := isDigit) (l := text))
    rw [List.length_append] at parts
    simp only [getBelow] at good ⊢
    split at good
    · cases good
    · next some' =>
      have front := List.length_pos_of_ne_nil some'
      rw [if_neg some']
      split at good
      · next below =>
        rw [if_pos below]
        dsimp only
        omega
      · cases good
  constructor
  · intro k text
    cases k with
    | float | double | string => exact Nat.le_refl _
    | uint8 | uint16 | uint32 | uint64 | bool => exact shorter _ text
  · intro k text good
    cases k with
    | float | double | string => cases good
    | uint8 | uint16 | uint32 | uint64 | bool => exact takes _ text good

namespace TextStream

variable (nt : NumberText)

/-- The character data of an element as a source of values. -/
def cdataReader : ObjectReader TextStream where
  beginTag _ := Reading.throw .undefined
  endTag := Reading.throw .undefined
  beginAttribute _ := Reading.throw .undefined
  endAttribute := Reading.throw .undefined
  read := readValue nt

/-- An attribute as a source of values: a string is all of its content. -/
def readAttrib : (k : Kind) → Reading TextStream k.Carrier
  | .string => fun src => (.ok src.str, src)
  | k => readValue nt k

def attribReader : ObjectReader TextStream where
  beginTag _ := Reading.throw .undefined
  endTag := Reading.throw .undefined
  beginAttribute _ := Reading.throw .undefined
  endAttribute := Reading.throw .undefined
  read := readAttrib nt

/-- Neither flag is set. -/
def Clean (src : TextStream) : Prop := src.fail = false ∧ src.eof = false

/-- What can still be read is the same: behind a flag that is set the text does not
matter. -/
structure Same (p src : TextStream) : Prop where
  fail : p.fail = src.fail
  eof : src.fail = false → p.eof = src.eof
  rest : src.Clean → p.rest = src.rest

variable {nt}

theorem onlyReads_cdataReader : (cdataReader nt).OnlyReads := by
  intro ask s other
  cases ask with
  | read k => exact absurd rfl (other k)
  | beginTag | endTag | beginAttribute | endAttribute => rfl

theorem onlyReads_attribReader : (attribReader nt).OnlyReads := by
  intro ask s other
  cases ask with
  | read k => exact absurd rfl (other k)
  | beginTag | endTag | beginAttribute | endAttribute => rfl

variable (nt) in
/-- Each number is read by `readValueStringRep`, a byte by way of a `Uint16`. -/
theorem readValue_number {k : Kind} (number : k ≠ .string) :
    ∃ (k' : Kind) (f : k'.Carrier → k.Carrier), ∀ src, readValue nt k src =
      ((readValueStringRep nt k' src).1.map f, (readValueStringRep nt k' src).2) := by
  have plain (k : Kind) (src : TextStream) : readValueStringRep nt k src =
      ((readValueStringRep nt k src).1.map id, (readValueStringRep nt k src).2) := by
    rcases readValueStringRep nt k src with ⟨_ | _, _⟩ <;> rfl
  cases k with
  | string => exact absurd rfl number
  | uint16 | uint32 | uint64 | float | double | bool => exact ⟨_, id, plain _⟩
  | uint8 =>
    refine ⟨.uint16, UInt16.toUInt8, fun src => ?_⟩
    rw [readValue, Reading.bind_apply]
    rcases readValueStringRep nt .uint16 src with ⟨_ | _, _⟩ <;> rfl

theorem readValueStringRep_failed {k : Kind} {src : TextStream} (failed : src.fail = true) :
    readValueStringRep nt k src = (.error .ioException, src) := by
  rw [readValueStringRep, if_pos failed]

theorem readValueStringRep_ended {k : Kind} {src : TextStream} (good : src.fail = false)
    (ended : src.eof = true) : readValueStringRep nt k src = (.error .eofException, src) := by
  rw [readValueStringRep, good, if_neg Bool.false_ne_true, if_pos ended]

/-- Behind a flag a string is looked for without end. -/
theorem readQuoted_lost {src : TextStream} (lost : ¬ src.Clean) :
    (readQuoted src).1 = .error .undefined := by
  rw [readQuoted]
  split
  · rfl
  · next clean =>
    simp only [Bool.or_eq_true, not_or, Bool.not_eq_true] at clean
    exact absurd clean lost

variable (nt) in
/-- What is read depends on what can still be read only. -/
theorem Same.readValueStringRep {p src : TextStream} (same : p.Same src) (k : Kind) :
    (readValueStringRep nt k p).1 = (readValueStringRep nt k src).1 ∧
      (readValueStringRep nt k p).2.Same (readValueStringRep nt k src).2 := by
  cases failed : src.fail with
  | true =>
    rw [readValueStringRep_failed failed, readValueStringRep_failed (same.fail.trans failed)]
    exact ⟨rfl, same⟩
  | false =>
    have good := same.fail.trans failed
    cases ended : src.eof with
    | true =>
      rw [readValueStringRep_ended failed ended,
        readValueStringRep_ended good ((same.eof failed).trans ended)]
      exact ⟨rfl, same⟩
    | false =>
      have open' := (same.eof failed).trans ended
      simp only [TextStream.readValueStringRep, good, failed, open', ended,
        same.rest ⟨failed, ended⟩, Bool.false_eq_true, if_false]
      cases src.rest.dropWhile isSpace with
      | nil => exact ⟨rfl, ⟨rfl, fun _ => rfl, fun _ => rfl⟩⟩
      | cons c text => exact ⟨rfl, ⟨rfl, fun _ => rfl, fun _ => rfl⟩⟩

theorem Same.readQuoted {p src : TextStream} (same : p.Same src) :
    (readQuoted p).1 = (readQuoted src).1 ∧
      ((readQuoted p).1 ≠ .error .undefined → (readQuoted p).2.Same (readQuoted src).2) := by
  by_cases clean : src.Clean
  · have good := same.fail.trans clean.1
    have open' := (same.eof clean.1).trans clean.2
    simp only [TextStream.readQuoted, good, clean.1, open', clean.2, same.rest clean,
      Bool.or_self, Bool.false_eq_true, if_false]
    rcases findQuote src.rest with ⟨_ | _, rest⟩
    · exact ⟨rfl, fun _ => ⟨rfl, fun _ => rfl, fun _ => rfl⟩⟩
    · dsimp only
      cases readChunks (rest.length + 1) [] rest with
      | none => exact ⟨rfl, fun _ => ⟨rfl, fun _ => rfl, fun _ => rfl⟩⟩
      | some found => exact ⟨rfl, fun _ => ⟨rfl, fun _ => rfl, fun _ => rfl⟩⟩
  · have lost : ¬ p.Clean := by
      rintro ⟨good, open'⟩
      have back : src.fail = false := same.fail.symm.trans good
      exact clean ⟨back, (same.eof back).symm.trans open'⟩
    rw [readQuoted_lost clean, readQuoted_lost lost]
    exact ⟨rfl, fun defined => absurd rfl defined⟩

variable (nt) in
theorem Same.readValue {p src : TextStream} (same : p.Same src) (k : Kind) :
    (readValue nt k p).1 = (readValue nt k src).1 ∧
      ((readValue nt k p).1 ≠ .error .undefined →
        (readValue nt k p).2.Same (readValue nt k src).2) := by
  by_cases number : k ≠ .string
  · obtain ⟨k', f, parts⟩ := readValue_number nt number
    obtain ⟨result, later⟩ := same.readValueStringRep nt k'
    rw [parts, parts, result]
    exact ⟨rfl, fun _ => later⟩
  · obtain rfl := not_not.mp number
    exact same.readQuoted

theorem alike_of_same {p src : TextStream} (same : p.Same src) :
    (cdataReader nt).Alike p src := by
  refine ObjectReader.alike_of_related Same ?_ same
  intro p src ask same
  cases ask with
  | beginTag | endTag | beginAttribute | endAttribute =>
    exact ⟨rfl, fun defined => absurd rfl defined⟩
  | read k =>
    rw [ObjectReader.answer_read, ObjectReader.answer_read]
    obtain ⟨result, later⟩ := same.readValue nt k
    refine ⟨congrArg (Except.map _) result, fun defined => later ?_⟩
    intro lost
    exact defined (congrArg (Except.map _) lost)

/-! ### Streams that can be told apart -/

/-- From a clean stream a number is read, or there is nothing but white space. -/
theorem readValueStringRep_clean {k : Kind} {src : TextStream} (clean : src.Clean)
    {fault : Fault} (thrown : (readValueStringRep nt k src).1 = .error fault) :
    fault = .undefined := by
  rw [readValueStringRep, clean.1, clean.2] at thrown
  simp only [Bool.false_eq_true, if_false] at thrown
  split at thrown
  · exact (Except.error.inj thrown).symm
  · cases thrown

/-- The exception that a result reports. -/
def reported {α : Type} : Except Fault α → Option Fault
  | .error .undefined => none
  | .error fault => some fault
  | .ok _ => none

theorem reported_map {α β : Type} (f : α → β) (result : Except Fault α) :
    reported (result.map f) = reported result := by
  cases result with
  | ok a => rfl
  | error fault => cases fault <;> rfl

variable (nt) in
/-- Reading a number reports the flags. -/
theorem reported_readValueStringRep (k : Kind) (src : TextStream) :
    reported (readValueStringRep nt k src).1 =
      if src.fail then some .ioException else if src.eof then some .eofException else none := by
  cases failed : src.fail with
  | true =>
    rw [readValueStringRep_failed failed]
    rfl
  | false =>
    cases ended : src.eof with
    | true =>
      rw [readValueStringRep_ended failed ended]
      rfl
    | false =>
      cases thrown : (readValueStringRep nt k src).1 with
      | ok a => rfl
      | error fault =>
        rw [readValueStringRep_clean ⟨failed, ended⟩ thrown]
        rfl

theorem flags_of_alike {p src : TextStream} (alike : (cdataReader nt).Alike p src) :
    p.fail = src.fail ∧ (src.fail = false → p.eof = src.eof) := by
  have first := congrArg reported (alike.answer (.read .uint16))
  rw [ObjectReader.answer_read, ObjectReader.answer_read, reported_map, reported_map] at first
  have flags : (if p.fail then some Fault.ioException else if p.eof then some .eofException
      else none) =
      if src.fail then some .ioException else if src.eof then some .eofException else none := by
    rw [← reported_readValueStringRep nt .uint16 p,
      ← reported_readValueStringRep nt .uint16 src]
    exact first
  revert flags
  cases p.fail <;> cases p.eof <;> cases src.fail <;> cases src.eof <;> simp

theorem findQuote_shorter (text : Text) (defined : (findQuote text).1 ≠ .error .undefined) :
    (findQuote text).2.length < text.length := by
  induction text with
  | nil => exact absurd rfl defined
  | cons c rest ih =>
    rw [findQuote] at defined ⊢
    split
    · exact Nat.lt_succ_self _
    · next other =>
      rw [if_neg other] at defined
      split
      · exact Nat.lt_succ_self _
      · next other =>
        rw [if_neg other] at defined
        exact Nat.lt_succ_of_lt (ih defined)

theorem readChunks_shorter {fuel : Nat} {ret_val rest : Text} {found : Text × Text}
    (read : readChunks fuel ret_val rest = some found) : found.2.length ≤ rest.length := by
  induction fuel generalizing ret_val rest with
  | zero => cases read
  | succ fuel ih =>
    rw [readChunks] at read
    split at read
    · obtain rfl := Option.some.inj read
      exact (List.drop_sublist 1 rest).length_le
    · exact Nat.le_trans (ih read) (List.drop_sublist _ rest).length_le

theorem readQuoted_shorter {src : TextStream} (clean : src.Clean)
    (defined : (readQuoted src).1 ≠ .error .undefined) :
    (readQuoted src).2.rest.length < src.rest.length := by
  have front := findQuote_shorter src.rest
  simp only [readQuoted, clean.1, clean.2, Bool.or_self, Bool.false_eq_true, if_false]
    at defined ⊢
  cases found : findQuote src.rest with
  | mk result rest =>
    rw [found] at front
    simp only [found] at defined ⊢
    cases result with
    | error fault =>
      refine front fun lost => defined ?_
      rw [Except.error.inj lost]
    | ok _ =>
      cases chunks : readChunks (rest.length + 1) [] rest with
      | none =>
        simp only [chunks] at defined
        exact absurd rfl defined
      | some found =>
        simp only [chunks]
        exact Nat.lt_of_le_of_lt (readChunks_shorter chunks) (front (by simp))

/-- A read that has a result and leaves no flag behind has taken something. -/
theorem readValue_progress (takes : nt.Takes) {k : Kind} {src : TextStream}
    (defined : (readValue nt k src).1 ≠ .error .undefined)
    (clean : (readValue nt k src).2.Clean) :
    src.Clean ∧ (readValue nt k src).2.rest.length < src.rest.length := by
  by_cases number : k ≠ .string
  · obtain ⟨k', f, parts⟩ := readValue_number nt number
    rw [parts] at defined clean ⊢
    cases failed : src.fail with
    | true =>
      rw [readValueStringRep_failed failed] at clean
      exact absurd (failed.symm.trans clean.1) (by decide)
    | false =>
      cases ended : src.eof with
      | true =>
        rw [readValueStringRep_ended failed ended] at clean
        exact absurd (ended.symm.trans clean.2) (by decide)
      | false =>
        refine ⟨⟨failed, ended⟩, ?_⟩
        rw [readValueStringRep, failed, ended] at defined clean ⊢
        simp only [Bool.false_eq_true, if_false] at defined clean ⊢
        have skipped := (List.dropWhile_sublist isSpace (l := src.rest)).length_le
        cases text : src.rest.dropWhile isSpace with
        | nil =>
          simp only [text] at defined
          exact absurd rfl defined
        | cons c text' =>
          simp only [text] at clean skipped ⊢
          exact Nat.lt_of_lt_of_le (takes.takes k' _ clean.1) skipped
  · obtain rfl := not_not.mp number
    have before : src.Clean := not_not.mp fun lost => defined (readQuoted_lost lost)
    exact ⟨before, readQuoted_shorter before defined⟩

/-- The reads that lead from one clean stream to another take something. -/
theorem after_reads_shorter (takes : nt.Takes) {kinds : List Kind} {src src' : TextStream}
    (ended : (cdataReader nt).after (kinds.map Ask.read) src = some src') (clean : src'.Clean) :
    src.Clean ∧ src'.rest.length + kinds.length ≤ src.rest.length := by
  induction kinds generalizing src with
  | nil =>
    obtain rfl := Option.some.inj ended
    exact ⟨clean, Nat.le_refl _⟩
  | cons k kinds ih =>
    obtain ⟨defined, later⟩ := ObjectReader.after_cons.mp ended
    rw [ObjectReader.answer_read] at defined later
    obtain ⟨between, rest⟩ := ih later
    have read : (readValue nt k src).1 ≠ .error .undefined :=
      fun lost => defined (congrArg (Except.map _) lost)
    have step := readValue_progress takes read between
    refine ⟨step.1, ?_⟩
    have shorter := step.2
    simp only [cdataReader, List.length_cons] at rest shorter ⊢
    omega

/-- The stream got where it is by reading from the front of its content. -/
def Reached (nt : NumberText) (src : TextStream) : Prop :=
  src.Clean → ∃ kinds : List Kind,
    (cdataReader nt).after (kinds.map Ask.read) (ofStr src.str) = some src

/-- A stream that is no longer at the front is told apart from one at the front: reads that
led there would otherwise lead on for ever. -/
theorem rest_of_alike (takes : nt.Takes) {src : TextStream} (reached : src.Reached nt)
    (clean : src.Clean) (alike : (cdataReader nt).Alike (ofStr src.str) src) :
    src.rest = src.str := by
  obtain ⟨kinds, ended⟩ := reached clean
  cases kinds with
  | nil =>
    rw [← Option.some.inj ended]
    rfl
  | cons k kinds =>
    exfalso
    have descent : ∀ n (x : TextStream), x.rest.length = n →
        (cdataReader nt).Alike (ofStr src.str) x → False := by
      intro n
      induction n using Nat.strong_induction_on with
      | _ n ih =>
        intro x length likeFront
        obtain ⟨y, ended', likeSrc⟩ := likeFront.after ended
        have likeFront' := alike.trans likeSrc
        obtain ⟨good, open'⟩ := flags_of_alike likeFront'
        have clean' : y.Clean := ⟨good.symm, (open' good.symm).symm⟩
        have shorter := (after_reads_shorter takes ended' clean').2
        exact ih y.rest.length (by rw [List.length_cons] at shorter; omega) y rfl likeFront'
    exact descent _ src rfl alike

/-- Content that is given to a stream at its front, with the flags of that stream, is alike
to a stream on the same content only if it offers the same. -/
theorem same_of_alike (takes : nt.Takes) {p src : TextStream} (reached : src.Reached nt)
    (alike : (cdataReader nt).Alike (p.setStr src.str) src) : (p.setStr src.str).Same src := by
  obtain ⟨fail, eof⟩ := flags_of_alike alike
  refine ⟨fail, eof, fun clean => ?_⟩
  have front : (ofStr src.str).Same (p.setStr src.str) :=
    ⟨(fail.trans clean.1).symm, fun _ => ((eof clean.1).trans clean.2).symm, fun _ => rfl⟩
  exact (rest_of_alike takes reached clean ((alike_of_same front).trans alike)).symm

/-! ### Where a stream has been -/

theorem reached_of_front {src : TextStream} (front : src.rest = src.str) : src.Reached nt := by
  intro clean
  obtain ⟨str, rest, eof, fail⟩ := src
  obtain rfl : rest = str := front
  obtain rfl : fail = false := clean.1
  obtain rfl : eof = false := clean.2
  exact ⟨[], rfl⟩

/-- Reading does not change the content. -/
theorem readValue_str (k : Kind) (src : TextStream) : (readValue nt k src).2.str = src.str := by
  by_cases number : k ≠ .string
  · obtain ⟨k', f, parts⟩ := readValue_number nt number
    rw [parts, readValueStringRep]
    split
    · rfl
    · split
      · rfl
      · split <;> rfl
  · obtain rfl := not_not.mp number
    rw [readValue, readQuoted]
    split
    · rfl
    · split
      · rfl
      · split <;> rfl

theorem Reached.readValue (takes : nt.Takes) {src : TextStream} (reached : src.Reached nt)
    {k : Kind} (defined : (readValue nt k src).1 ≠ .error .undefined) :
    (TextStream.readValue nt k src).2.Reached nt := by
  intro clean
  obtain ⟨kinds, ended⟩ := reached (readValue_progress takes defined clean).1
  refine ⟨kinds ++ [k], ?_⟩
  rw [List.map_append, ObjectReader.after_append, readValue_str]
  refine ⟨src, ended, ObjectReader.after_cons.mpr ⟨?_, ?_⟩⟩
  · rw [ObjectReader.answer_read]
    cases result : (TextStream.readValue nt k src).1 with
    | ok val =>
      simp only [cdataReader, result]
      exact fun lost => by cases lost
    | error fault =>
      simp only [cdataReader, result]
      intro lost
      exact defined (result.trans (congrArg Except.error (Except.error.inj lost)))
  · rw [ObjectReader.answer_read]
    rfl

/-- Each string that is read takes at least a quote. -/
theorem after_strings_shorter {n : Nat} {src src' : TextStream}
    (ended : (cdataReader nt).after ((List.replicate n Kind.string).map Ask.read) src =
      some src') : src'.rest.length + n ≤ src.rest.length := by
  induction n generalizing src with
  | zero =>
    obtain rfl := Option.some.inj ended
    exact Nat.le_refl _
  | succ n ih =>
    obtain ⟨defined, later⟩ := ObjectReader.after_cons.mp ended
    rw [ObjectReader.answer_read] at defined later
    have read : (readQuoted src).1 ≠ .error .undefined :=
      fun lost => defined (congrArg (Except.map _) lost)
    have clean : src.Clean := not_not.mp fun lost => read (readQuoted_lost lost)
    have shorter := readQuoted_shorter clean read
    have rest := ih later
    simp only [cdataReader, TextStream.readValue] at rest
    omega

end TextStream

end VRJuggler.Io
