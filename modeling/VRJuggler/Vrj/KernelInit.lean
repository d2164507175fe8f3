import Mathlib.Data.List.Basic
import Mathlib.Data.List.Induction
import Mathlib.Data.String.Basic
import VRJuggler.Base.Lists

/-!
# The arguments of the kernel

`Kernel::init` takes the arguments that it uses out of the argument vector. Each of them is removed
by its text from the whole vector, so that what the last removal left behind the new end comes back
with the next one.
-/
namespace VRJuggler.Vrj

/-- An option as the parser reports it. -/
structure ParsedOption where
  string_key : String
  original_tokens : List String
  unregistered : Bool
  position_key : Int

/-- It was recognised and is not positional. -/
def ParsedOption.Used (opt : ParsedOption) : Prop :=
  opt.unregistered = false ∧ opt.position_key = -1

instance (opt : ParsedOption) : Decidable opt.Used := inferInstanceAs (Decidable (_ ∧ _))

/-- The texts of the help arguments. -/
def HelpText (token : String) : Prop := token = "-h" ∨ token = "--help"

instance (token : String) : Decidable (HelpText token) := inferInstanceAs (Decidable (_ ∨ _))

/-- The vector, which keeps its length, and its new end. -/
structure ArgumentVector where
  argv : List String
  new_end : Nat

namespace Kernel

/-- The tokens of the options that are used. -/
def usedTokens (options : List ParsedOption) : List String :=
  (options.filter fun opt => opt.Used).flatMap ParsedOption.original_tokens

/-- Where `std::remove_if` does not move an element, the vector stays as it was. -/
def removeToken (v : ArgumentVector) (token : String) : ArgumentVector :=
  let parts := removeIf (fun arg => arg = token) v.argv
  { argv := parts.1 ++ parts.2, new_end := parts.1.length }

/-- The loop over the tokens, which passes over help arguments. -/
def removeTokens (argv : List String) (tokens : List String) : ArgumentVector :=
  tokens.foldl (fun v token => if HelpText token then v else removeToken v token)
    { argv, new_end := argv.length }

/-- What `init` leaves of its arguments, and whether it prints help and returns. -/
structure Init where
  argc : Nat
  argv : List String
  help : Bool

def init (argv : List String) (options : List ParsedOption) : Init :=
  let v := removeTokens argv (usedTokens options)
  { argc := v.new_end
    argv := v.argv
    -- whether help was asked for, however the option was written
    help := (options.filter fun opt => opt.Used).any fun opt => opt.string_key = "help" }

end Kernel

/-! ## Command lines -/

/-- A part of a command line: the tokens of an option, or an argument that the parser does not
report. -/
inductive Piece where
  | option (opt : ParsedOption)
  | unreported (argument : String)

namespace Piece

def tokens : Piece → List String
  | option opt => opt.original_tokens
  | unreported argument => [argument]

/-- The tokens that are consumed as an option other than help. -/
def consumed : Piece → List String
  | option opt => if opt.Used ∧ opt.string_key ≠ "help" then opt.original_tokens else []
  | unreported _ => []

/-- The tokens that `init` takes for used. -/
def used : Piece → List String
  | option opt => if opt.Used then opt.original_tokens else []
  | unreported _ => []

def remaining : Piece → List String
  | option opt => if opt.Used ∧ opt.string_key ≠ "help" then [] else opt.original_tokens
  | unreported argument => [argument]

end Piece

/-- The program and its arguments, as the parser divides them. -/
structure CommandLine where
  program : String
  pieces : List Piece

namespace CommandLine

variable (line : CommandLine)

def argv : List String := line.program :: line.pieces.flatMap Piece.tokens

def options : List ParsedOption :=
  line.pieces.filterMap fun
    | .option opt => some opt
    | .unreported _ => none

/-- The arguments that were not consumed as an option other than help. -/
def remaining : List String := line.program :: line.pieces.flatMap Piece.remaining

def consumed : List String := line.pieces.flatMap Piece.consumed

/-- `init` leaves the remaining arguments. -/
def RemovesUsed : Prop :=
  (Kernel.init line.argv line.options).argc = line.remaining.length ∧
    (Kernel.init line.argv line.options).argv.take (Kernel.init line.argv line.options).argc =
      line.remaining

/-- The used tokens whose text is not that of a help argument. -/
def toRemove : List String := (Kernel.usedTokens line.options).filter fun t => ¬ HelpText t

/-- The options for help are those with the texts of help. -/
def HelpFits : Prop :=
  ∀ opt ∈ line.options, opt.Used → ∀ token ∈ opt.original_tokens,
    (HelpText token ↔ opt.string_key = "help")

/-- Each text to remove is that of one argument only. -/
def AllOnce : Prop := ∀ token ∈ line.toRemove, line.argv.count token = 1

instance : Decidable line.AllOnce := inferInstanceAs (Decidable (∀ token ∈ line.toRemove, _))

/-- Help fits, each text to remove is there once, and when there are several, the last argument is
one of them. -/
structure Removable : Prop where
  help : line.HelpFits
  once : line.AllOnce
  last : line.toRemove.length ≤ 1 ∨ line.argv.getLast? = line.toRemove.getLast?

end CommandLine

/-! ## The loop -/

namespace Kernel

/-- Only the texts that are not those of help matter. -/
theorem removeTokens_eq (argv tokens : List String) :
    removeTokens argv tokens =
      (tokens.filter fun t => ¬ HelpText t).foldl removeToken { argv, new_end := argv.length } := by
  unfold removeTokens
  generalize ({ argv, new_end := argv.length } : ArgumentVector) = v
  induction tokens generalizing v with
  | nil => rfl
  | cons token rest ih =>
    rw [List.foldl_cons, ih]
    by_cases help : HelpText token <;> simp [help]

theorem argv_removeToken (v : ArgumentVector) (token : String) :
    (removeToken v token).argv =
      v.argv.filter (fun arg => !decide (arg = token)) ++
        v.argv.drop (v.argv.filter fun arg => !decide (arg = token)).length := rfl

/-- Up to the new end are the arguments with other texts. -/
theorem take_removeToken (v : ArgumentVector) (token : String) :
    (removeToken v token).argv.take (removeToken v token).new_end =
      v.argv.filter fun arg => !decide (arg = token) := by
  rw [argv_removeToken]
  exact List.take_left

theorem new_end_removeToken (v : ArgumentVector) (token : String) :
    (removeToken v token).new_end ≤ (removeToken v token).argv.length := by
  rw [argv_removeToken, List.length_append]
  exact Nat.le_add_right _ _

/-- No argument with another text is lost, it may be there once more. -/
theorem count_removeToken (v : ArgumentVector) {token arg : String} (other : arg ≠ token) :
    v.argv.count arg ≤ (removeToken v token).argv.count arg := by
  have kept : (v.argv.filter fun arg => !decide (arg = token)).count arg = v.argv.count arg :=
    List.count_filter (by simpa using other)
  rw [argv_removeToken, List.count_append, kept]
  exact Nat.le_add_right _ _

/-- After the removal of a text that is there once, the last argument stands at the end again. -/
theorem argv_removeToken_of_last {v : ArgumentVector} {front : List String} {last token : String}
    (ends : v.argv = front ++ [last]) (once : v.argv.count token = 1) :
    (removeToken v token).argv = v.argv.filter (fun arg => !decide (arg = token)) ++ [last] := by
  have sizes := List.length_eq_length_filter_add (l := v.argv) fun arg => decide (arg = token)
  have removed : (v.argv.filter fun arg => decide (arg = token)).length = 1 := by
    rw [← once, List.count_eq_countP, List.countP_eq_length_filter]
    congr 1
  have whole : v.argv.length = front.length + 1 := by
    rw [ends, List.length_append]
    rfl
  have size : (v.argv.filter fun arg => !decide (arg = token)).length = front.length := by omega
  rw [argv_removeToken, size]
  congr 1
  rw [ends, List.drop_left]

/-- After the removal of several texts, each there once, as many copies of the last argument stand
behind the others. -/
theorem argv_foldl_removeToken {argv front tokens : List String} {last : String}
    (ends : argv = front ++ [last]) (distinct : tokens.Nodup)
    (once : ∀ token ∈ tokens, argv.count token = 1) (other : last ∉ tokens) :
    (tokens.foldl removeToken { argv, new_end := argv.length }).argv =
      argv.filter (fun arg => arg ∉ tokens) ++ List.replicate tokens.length last := by
  induction tokens using List.reverseRecOn with
  | nil => simp
  | append_singleton tokens token ih =>
    obtain ⟨distinct, -, apart⟩ := List.nodup_append.mp distinct
    have new : token ∉ tokens := fun member =>
      apart token member token (List.mem_singleton_self token) rfl
    have others : last ∉ tokens := fun member => other (List.mem_append_left _ member)
    have notLast : token ≠ last := by
      rintro rfl
      exact other (List.mem_append_right _ (List.mem_singleton_self _))
    have before := ih distinct (fun t member => once t (List.mem_append_left _ member)) others
    rw [List.foldl_append, List.foldl_cons, List.foldl_nil]
    generalize (tokens.foldl removeToken { argv, new_end := argv.length }) = v at before ⊢
    -- the vector ends with the last argument, and has the token once
    have ends' : v.argv = (front.filter (fun arg => arg ∉ tokens) ++
        List.replicate tokens.length last) ++ [last] := by
      rw [before, ends, List.filter_append, List.filter_singleton]
      simp only [others, not_false_eq_true, decide_true, cond_true, List.append_assoc]
      rw [List.singleton_append, ← List.replicate_succ, List.replicate_succ']
    have once' : v.argv.count token = 1 := by
      rw [before, List.count_append, List.count_filter (by simpa using new),
        once token (List.mem_append_right _ (List.mem_singleton_self token)),
        List.count_replicate, if_neg (by simpa using Ne.symm notLast)]
    rw [argv_removeToken_of_last ends' once', before, List.filter_append,
      List.filter_filter, List.filter_replicate, List.length_append]
    rw [if_pos (by simpa using Ne.symm notLast), List.append_assoc, ← List.replicate_succ']
    congr 1
    refine List.filter_congr fun arg _ => ?_
    simp [and_comm]

/-- What `init` leaves when there is something to remove. -/
theorem take_foldl_concat (argv tokens : List String) (token : String) :
    let v := (tokens ++ [token]).foldl removeToken { argv, new_end := argv.length }
    v.argv.take v.new_end =
      (tokens.foldl removeToken { argv, new_end := argv.length }).argv.filter
        fun arg => !decide (arg = token) := by
  rw [List.foldl_append]
  exact take_removeToken _ token

theorem new_end_foldl (argv tokens : List String) :
    (tokens.foldl removeToken { argv, new_end := argv.length }).new_end ≤
      (tokens.foldl removeToken { argv, new_end := argv.length }).argv.length := by
  rcases List.eq_nil_or_concat tokens with rfl | ⟨before, token, rfl⟩
  · exact Nat.le_refl _
  · rw [List.concat_eq_append, List.foldl_append]
    exact new_end_removeToken _ token

theorem count_foldl {argv tokens : List String} {arg : String} (other : arg ∉ tokens) :
    argv.count arg ≤
      (tokens.foldl removeToken { argv, new_end := argv.length }).argv.count arg := by
  induction tokens using List.reverseRecOn with
  | nil => exact Nat.le_refl _
  | append_singleton tokens token ih =>
    have earlier := ih fun member => other (List.mem_append_left _ member)
    have apart : arg ≠ token := by
      rintro rfl
      exact other (List.mem_append_right _ (List.mem_singleton_self _))
    rw [List.foldl_append]
    exact earlier.trans (count_removeToken _ apart)

/-- Texts to remove that stand in the vector once each, in its order: only the last one can be the
last argument. -/
theorem last_not_mem {front tokens : List String} {last token : String}
    (part : (tokens ++ [token]).Sublist (front ++ [last]))
    (once : ∀ t ∈ tokens ++ [token], (front ++ [last]).count t = 1) : last ∉ tokens := by
  intro member
  have inside : tokens.Sublist front := by
    have turned := List.reverse_sublist.mpr part
    simp only [List.reverse_append, List.reverse_singleton, List.singleton_append] at turned
    exact List.reverse_sublist.mp turned.tail
  have twice := once last (List.mem_append_left _ member)
  have here := List.count_pos_iff.mpr (inside.subset member)
  rw [List.count_append, List.count_singleton_self] at twice
  omega

theorem nodup_of_once {argv tokens : List String} (part : tokens.Sublist argv)
    (once : ∀ t ∈ tokens, argv.count t = 1) : tokens.Nodup := by
  refine List.nodup_iff_count_le_one.mpr fun t => ?_
  by_cases member : t ∈ tokens
  · exact (part.count_le t).trans (once t member).le
  · rw [List.count_eq_zero_of_not_mem member]
    exact Nat.zero_le 1

end Kernel

/-! ## The parts of a command line -/

namespace CommandLine

variable {line : CommandLine}

/-- `init` leaves the remaining arguments when they stand before the new end. -/
theorem removesUsed_iff :
    let v := line.toRemove.foldl Kernel.removeToken
      { argv := line.argv, new_end := line.argv.length }
    line.RemovesUsed ↔ v.argv.take v.new_end = line.remaining := by
  unfold RemovesUsed Kernel.init
  rw [Kernel.removeTokens_eq]
  constructor
  · exact fun removes => removes.2
  · intro same
    refine ⟨?_, same⟩
    have size := congrArg List.length same
    rw [List.length_take, Nat.min_eq_left (Kernel.new_end_foldl _ _)] at size
    exact size

/-- Every argument is remaining or consumed. -/
theorem count_argv (arg : String) :
    line.argv.count arg = line.remaining.count arg + line.consumed.count arg := by
  have pieces : ∀ pieces : List Piece, (pieces.flatMap Piece.tokens).count arg =
      (pieces.flatMap Piece.remaining).count arg + (pieces.flatMap Piece.consumed).count arg := by
    intro pieces
    induction pieces with
    | nil => rfl
    | cons piece rest ih =>
      have here : piece.tokens.count arg =
          piece.remaining.count arg + piece.consumed.count arg := by
        cases piece with
        | unreported argument => rfl
        | option opt =>
          -- an option is left in the line or taken out of it whole
          simp only [Piece.tokens, Piece.remaining, Piece.consumed]
          split
          · simp
          · simp
      simp only [List.flatMap_cons, List.count_append, ih, here]
      omega
  rw [argv, remaining, consumed, List.count_cons, List.count_cons, pieces]
  omega

/-- The used tokens, piece by piece. -/
theorem usedTokens_options :
    Kernel.usedTokens line.options = line.pieces.flatMap Piece.used := by
  rw [Kernel.usedTokens, options]
  induction line.pieces with
  | nil => rfl
  | cons piece rest ih =>
    cases piece with
    | unreported argument => exact ih
    | option opt =>
      by_cases used : opt.Used
      · simpa [used, Piece.used] using ih
      · simpa [used, Piece.used] using ih

theorem mem_toRemove {token : String} :
    token ∈ line.toRemove ↔ ∃ opt ∈ line.options, opt.Used ∧ token ∈ opt.original_tokens ∧
      ¬ HelpText token := by
  rw [toRemove, List.mem_filter, Kernel.usedTokens, List.mem_flatMap]
  simp only [List.mem_filter, decide_eq_true_eq]
  constructor
  · rintro ⟨⟨opt, ⟨there, used⟩, member⟩, text⟩
    exact ⟨opt, there, used, member, text⟩
  · rintro ⟨opt, there, used, member, text⟩
    exact ⟨⟨opt, ⟨there, used⟩, member⟩, text⟩

theorem toRemove_sublist : line.toRemove.Sublist line.argv := by
  refine (List.filter_sublist).trans ?_
  rw [usedTokens_options]
  refine List.Sublist.trans ?_ (List.sublist_cons_self _ _)
  induction line.pieces with
  | nil => exact List.Sublist.refl _
  | cons piece rest ih =>
    rw [List.flatMap_cons, List.flatMap_cons]
    refine List.Sublist.append ?_ ih
    cases piece with
    | unreported argument => exact List.nil_sublist _
    | option opt =>
      by_cases used : opt.Used
      · simp [used, Piece.used, Piece.tokens]
      · simp [used, Piece.used]

/-- Where help fits, the tokens to remove are the consumed ones. -/
theorem toRemove_eq_consumed (fits : line.HelpFits) : line.toRemove = line.consumed := by
  rw [toRemove, usedTokens_options, consumed]
  unfold HelpFits options at fits
  generalize line.pieces = pieces at fits ⊢
  induction pieces with
  | nil => rfl
  | cons piece rest ih =>
    rw [List.flatMap_cons, List.flatMap_cons, List.filter_append]
    cases piece with
    | unreported argument => exact ih fits
    | option opt =>
      have later := ih fun other member => fits other (List.mem_cons_of_mem _ member)
      have here := fits opt (List.mem_cons_self ..)
      rw [later, Piece.consumed, Piece.used]
      congr 1
      by_cases used : opt.Used
      · by_cases help : opt.string_key = "help"
        · simp only [used, help, if_true, ne_eq, not_true_eq_false, and_false, if_false]
          refine List.filter_eq_nil_iff.mpr fun token member => ?_
          simpa using (here used token member).mpr help
        · simp only [used, help, if_true, ne_eq, not_false_eq_true, and_self]
          refine List.filter_eq_self.mpr fun token member => ?_
          simpa using fun text => help ((here used token member).mp text)
      · simp [used]

/-- Without the consumed texts, the arguments are the remaining ones without them. -/
theorem filter_argv {tokens : List String} (all : ∀ token ∈ line.consumed, token ∈ tokens) :
    line.argv.filter (fun arg => arg ∉ tokens) = line.remaining.filter fun arg => arg ∉ tokens := by
  unfold argv remaining
  rw [List.filter_cons, List.filter_cons]
  have pieces : (line.pieces.flatMap Piece.tokens).filter (fun arg => arg ∉ tokens) =
      (line.pieces.flatMap Piece.remaining).filter fun arg => arg ∉ tokens := by
    unfold consumed at all
    generalize line.pieces = pieces at all ⊢
    induction pieces with
    | nil => rfl
    | cons piece rest ih =>
      rw [List.flatMap_cons, List.flatMap_cons, List.filter_append, List.filter_append]
      rw [List.flatMap_cons] at all
      rw [ih fun token member => all token (List.mem_append_right _ member)]
      congr 1
      cases piece with
      | unreported argument => rfl
      | option opt =>
        simp only [Piece.consumed, Piece.tokens, Piece.remaining] at all ⊢
        split
        next consumed =>
          rw [if_pos consumed] at all
          rw [List.filter_nil, List.filter_eq_nil_iff]
          intro token member
          simpa using all token (List.mem_append_left _ member)
        next => rfl
  rw [pieces]

/-- What `init` leaves of the arguments. -/
def left (line : CommandLine) : List String :=
  let v := line.toRemove.foldl Kernel.removeToken
    { argv := line.argv, new_end := line.argv.length }
  v.argv.take v.new_end

theorem left_nil (nothing : line.toRemove = []) : line.left = line.argv := by
  rw [left, nothing]
  exact List.take_length

theorem left_singleton {token : String} (one : line.toRemove = [token]) :
    line.left = line.argv.filter fun arg => !decide (arg = token) := by
  rw [left, one]
  exact Kernel.take_foldl_concat line.argv [] token

/-- With several texts to remove, each there once, copies of the last argument are left behind the
others, when it is not itself removed at the end. -/
theorem left_concat (once : line.AllOnce) {front tokens : List String} {last token : String}
    (ends : line.argv = front ++ [last]) (several : line.toRemove = tokens ++ [token]) :
    line.left = line.argv.filter (fun arg => arg ∉ line.toRemove) ++
      if token = last then [] else List.replicate tokens.length last := by
  have part : (tokens ++ [token]).Sublist line.argv := several ▸ toRemove_sublist
  have each : ∀ t ∈ tokens ++ [token], line.argv.count t = 1 := several ▸ once
  have others : last ∉ tokens := Kernel.last_not_mem (ends ▸ part) (ends ▸ each)
  have distinct := (List.nodup_append.mp (Kernel.nodup_of_once part each)).1
  have before := Kernel.argv_foldl_removeToken ends distinct
    (fun t member => each t (List.mem_append_left _ member)) others
  rw [left, several, Kernel.take_foldl_concat, before, List.filter_append, List.filter_filter]
  congr 1
  · refine List.filter_congr fun arg _ => ?_
    simp [and_comm]
  · rw [List.filter_replicate]
    -- the last argument is what the shifting copies into the freed places
    by_cases same : token = last
    · simp [same]
    · simp [same, Ne.symm same]

theorem exists_last (line : CommandLine) : ∃ front last, line.argv = front ++ [last] :=
  ⟨_, _, (List.dropLast_append_getLast (List.cons_ne_nil _ _)).symm⟩

/-- Under the condition, the arguments without the texts to remove are left, which are the
remaining ones. -/
theorem left_of_removable (removable : line.Removable) : line.left = line.remaining := by
  have same := toRemove_eq_consumed removable.help
  have fewer : line.left = line.argv.filter fun arg => arg ∉ line.toRemove := by
    rcases List.eq_nil_or_concat line.toRemove with nothing | ⟨tokens, token, several⟩
    · rw [left_nil nothing, nothing]
      simp
    · rw [List.concat_eq_append] at several
      obtain ⟨front, last, ends⟩ := exists_last line
      rw [left_concat removable.once ends several]
      have nothing : (if token = last then [] else List.replicate tokens.length last) = [] := by
        rcases removable.last with one | equal
        · rw [several, List.length_append] at one
          have none' : tokens.length = 0 := by
            rw [List.length_singleton] at one
            omega
          rw [none', List.replicate_zero, ite_self]
        · rw [ends, several, List.getLast?_concat, List.getLast?_concat] at equal
          rw [if_pos (Option.some.inj equal).symm]
      rw [nothing, List.append_nil]
  rw [fewer, filter_argv fun token member => same ▸ member]
  -- a text to remove is there once, as a consumed argument
  refine List.filter_eq_self.mpr fun arg member => ?_
  refine decide_eq_true fun gone => ?_
  have once := removable.once arg gone
  have here := List.count_pos_iff.mpr member
  have also : 0 < line.consumed.count arg := List.count_pos_iff.mpr (same ▸ gone)
  rw [count_argv] at once
  omega

/-- No argument whose text is not to be removed is lost. -/
theorem count_left {arg : String} (stays : arg ∉ line.toRemove) :
    line.argv.count arg ≤ line.left.count arg := by
  rcases List.eq_nil_or_concat line.toRemove with nothing | ⟨tokens, token, several⟩
  · rw [left_nil nothing]
  · rw [List.concat_eq_append] at several
    rw [several, List.mem_append, List.mem_singleton, not_or] at stays
    rw [left, several, Kernel.take_foldl_concat, List.count_filter (by simpa using stays.2)]
    exact Kernel.count_foldl stays.1

/-- Help fits when the remaining arguments are left and no text to remove is. -/
theorem helpFits_of_left (same : line.left = line.remaining)
    (gone : ∀ token ∈ line.toRemove, token ∉ line.left) : line.HelpFits := by
  intro opt there used token member
  have piece : Piece.option opt ∈ line.pieces := by
    rw [options, List.mem_filterMap] at there
    obtain ⟨piece, known, found⟩ := there
    cases piece with
    | unreported argument => cases found
    | option other =>
      obtain rfl := Option.some.inj found
      exact known
  constructor
  · intro text
    by_contra noHelp
    -- a consumed argument with the text of help is left
    have consumed : token ∈ line.consumed := by
      refine List.mem_flatMap.mpr ⟨_, piece, ?_⟩
      rw [Piece.consumed, if_pos ⟨used, noHelp⟩]
      exact member
    have stays : token ∉ line.toRemove := by
      intro removed
      obtain ⟨_, -, -, -, other⟩ := mem_toRemove.mp removed
      exact other text
    have kept := count_left stays
    have more := List.count_pos_iff.mpr consumed
    rw [same, count_argv] at kept
    omega
  · intro help
    by_contra text
    -- an argument for help with another text is removed
    have removed : token ∈ line.toRemove := mem_toRemove.mpr ⟨opt, there, used, member, text⟩
    have remains : token ∈ line.remaining := by
      refine List.mem_cons_of_mem _ (List.mem_flatMap.mpr ⟨_, piece, ?_⟩)
      rw [Piece.remaining, if_neg fun both => both.2 help]
      exact member
    exact gone token removed (same ▸ remains)

theorem removable_of_left_singleton {token : String} (one : line.toRemove = [token])
    (same : line.left = line.remaining) : line.Removable := by
  have missing : token ∉ line.left := by
    rw [left_singleton one, List.mem_filter]
    simp
  have fits : line.HelpFits := by
    refine helpFits_of_left same fun other member => ?_
    rw [one, List.mem_singleton] at member
    rw [member]
    exact missing
  refine ⟨fits, ?_, Or.inl (by rw [one]; exact Nat.le_refl 1)⟩
  intro other member
  rw [one, List.mem_singleton] at member
  subst member
  rw [count_argv, ← toRemove_eq_consumed fits, one, List.count_singleton_self, ← same,
    List.count_eq_zero_of_not_mem missing]

theorem removable_of_left_nil (nothing : line.toRemove = []) (same : line.left = line.remaining) :
    line.Removable := by
  refine ⟨helpFits_of_left same ?_, ?_, Or.inl ?_⟩
  · intro token member
    rw [nothing] at member
    cases member
  · intro token member
    rw [nothing] at member
    cases member
  · rw [nothing]
    exact Nat.zero_le 1

theorem removable_of_left_concat (once : line.AllOnce) {tokens : List String} {token : String}
    (several : line.toRemove = tokens ++ [token]) (same : line.left = line.remaining) :
    line.Removable := by
  obtain ⟨front, last, ends⟩ := exists_last line
  have left := left_concat once ends several
  by_cases equal : token = last
  · refine ⟨helpFits_of_left same ?_, once, Or.inr ?_⟩
    · intro other member
      rw [left, if_pos equal, List.append_nil, List.mem_filter]
      simp [member]
    · rw [ends, several, List.getLast?_concat, List.getLast?_concat, equal]
  · -- the last argument is there more often than before
    rw [if_neg equal] at left
    by_cases single : tokens = []
    · rw [single, List.nil_append] at several
      exact removable_of_left_singleton several same
    · have positive : 0 < tokens.length := List.length_pos_iff.mpr single
      have part : (tokens ++ [token]).Sublist line.argv := several ▸ toRemove_sublist
      have each : ∀ t ∈ tokens ++ [token], line.argv.count t = 1 := several ▸ once
      have stays : last ∉ line.toRemove := by
        rw [several, List.mem_append, List.mem_singleton, not_or]
        exact ⟨Kernel.last_not_mem (ends ▸ part) (ends ▸ each), fun h => equal h.symm⟩
      have counts := congrArg (List.count last) (left.symm.trans same)
      rw [List.count_append, List.count_filter (by simpa using stays),
        List.count_replicate_self, count_argv] at counts
      omega

/-- Under the condition, exactly the used arguments are removed. The condition is also necessary
when at most one text is to be removed, and when each such text is there once. -/
theorem removesUsed_of_removable (line : CommandLine) :
    (line.Removable → line.RemovesUsed) ∧
      (line.toRemove.length ≤ 1 ∨ line.AllOnce → line.RemovesUsed → line.Removable) := by
  constructor
  · intro removable
    exact removesUsed_iff.mpr (left_of_removable removable)
  · intro plain removes
    have same : line.left = line.remaining := removesUsed_iff.mp removes
    rcases List.eq_nil_or_concat line.toRemove with nothing | ⟨tokens, token, several⟩
    · exact removable_of_left_nil nothing same
    · rw [List.concat_eq_append] at several
      rcases plain with one | once
      · have none' : tokens = [] := by
          rw [several, List.length_append, List.length_singleton] at one
          exact List.eq_nil_of_length_eq_zero (by omega)
        rw [none', List.nil_append] at several
        exact removable_of_left_singleton several same
      · exact removable_of_left_concat once several same

/-- The program is started with `scene.jconf --vrjmaster`. -/
def master : CommandLine where
  program := "app"
  pieces :=
    [.option ⟨"", ["scene.jconf"], false, 0⟩, .option ⟨"vrjmaster", ["--vrjmaster"], false, -1⟩]

theorem removesUsed_of_removable_master : master.RemovesUsed :=
  (removesUsed_of_removable master).1
    ⟨by simp [HelpFits, master, options, HelpText, ParsedOption.Used], by decide, by decide⟩

/-- The program is started with `--vrjslave --listen_port 7000 scene.jconf`, of which the parser
recognises two options. -/
def slave : CommandLine where
  program := "app"
  pieces :=
    [.option ⟨"vrjslave", ["--vrjslave"], false, -1⟩,
      .option ⟨"listen_port", ["--listen_port", "7000"], false, -1⟩,
      .option ⟨"", ["scene.jconf"], false, 0⟩]

/-- The configuration file is left three times. -/
theorem positional_repeated : ¬ ∀ line : CommandLine, line.RemovesUsed := by
  intro all
  exact absurd (all slave).1 (by decide)

end CommandLine

end VRJuggler.Vrj
