import Mathlib.Algebra.Order.BigOperators.Group.List
import VRJuggler.Tweek.EnvironmentService
import VRJuggler.Vpr.StrayDelimiters

/-!
# Two expansions of environment variables

The environment service and `vpr::replaceEnvVars` both expand the references of a text when no
delimiter leads them astray. That depends on the text and on the closing delimiters in the values;
where one does, the expansion comes out wrong in some environment with such values.
-/
namespace VRJuggler.Tweek

open References Throwing

namespace Environment

variable {E E' : Environment} {text : List Char} {front pieces : List Piece}

/-- No value contains a dollar sign. -/
def Quiet (E : Environment) : Prop := ∀ name, '$' ∉ valueIn E.getenv name

/-- Both implementations return, and what they return is the expansion of the text. -/
def BothExpand (E : Environment) (text : List Char) : Prop :=
  ∃ result, Expands (valueIn E.getenv) text result ∧
    Ends (E.expandEnvVars · text) (.ok result) ∧
    Ends (Vpr.replaceEnvVars E.getenv · text) (.ok result)

/-- The service finds the value that the variable has. -/
def Finds (E : Environment) (name : List Char) : Prop :=
  ∃ value, E.lookup name = .ok value ∧ value.getD [] = valueIn E.getenv name

/-- What is found in the first environment is found in the second, with the same closing
delimiters. -/
def Like (E E' : Environment) : Prop :=
  ∀ name, E.Finds name → E'.Finds name ∧
    ∀ k : Kind, k.closing ∈ valueIn E.getenv name ↔ k.closing ∈ valueIn E'.getenv name

/-- Both implementations come to a reference behind these pieces, it ends where its name does, and
the variable is found. -/
def Reached (E : Environment) (front : List Piece) : Piece → Prop
  | .plain c => c ≠ '$'
  | .reference k name => E.Finds name ∧ k.closing ∉ name ∧
      k.closing ∉ front.flatMap (Piece.expanded (valueIn E.getenv)) ∧
      (k = .brace → ∀ other, .reference .paren other ∈ front → '}' ∉ other) ∧
      (k = .paren → ¬ ['$', '{'] <:+: name)

/-- All references are closed, and both implementations come to each of them. -/
def Orderly (E : Environment) (text : List Char) : Prop :=
  ∃ pieces, text = textOf pieces ∧ EachAfter E.Reached [] pieces

/-! ## Orderly texts -/

/-- The variable of the piece is found. -/
def FindsAll (E : Environment) (p : Piece) : Prop :=
  ∀ k name, p = .reference k name → E.Finds name

theorem Reached.findsAll {p : Piece} (reached : E.Reached front p) : E.FindsAll p := by
  rintro k name rfl
  exact reached.1

theorem Finds.found_eq {name : List Char} (finds : E.Finds name) :
    E.found name = valueIn E.getenv name := by
  obtain ⟨value, looked, same⟩ := finds
  rw [Environment.found_eq looked, same]

/-- Pieces whose variables have values with the same closing delimiters. -/
theorem mem_expanded_congr {value value' : List Char → List Char} {c : Char}
    (same : ∀ k name, .reference k name ∈ pieces → (c ∈ value name ↔ c ∈ value' name)) :
    c ∈ pieces.flatMap (Piece.expanded value) ↔ c ∈ pieces.flatMap (Piece.expanded value') := by
  simp only [List.mem_flatMap]
  refine exists_congr fun p => and_congr_right fun member => ?_
  cases p with
  | plain d => rfl
  | reference k name => exact same k name member

theorem Reached.like {p : Piece} (reached : E.Reached front p) (like : E.Like E')
    (before : ∀ q ∈ front, E.FindsAll q) : E'.Reached front p := by
  cases p with
  | plain c => exact reached
  | reference k name =>
    obtain ⟨finds, proper, closed, braces, parens⟩ := reached
    refine ⟨(like name finds).1, proper, ?_, braces, parens⟩
    rwa [← mem_expanded_congr fun k' other member =>
      (like other (before _ member k' other rfl)).2 k]

/-- In an environment like this one the text is orderly, too. -/
theorem Orderly.like (orderly : E.Orderly text) (like : E.Like E') : E'.Orderly text := by
  obtain ⟨pieces, same, each⟩ := orderly
  have all := each.and_front (fun _ _ reached => reached.findsAll) (by simp)
  exact ⟨pieces, same, all.imp fun _ _ here => here.2.like like here.1⟩

theorem Reached.safe {p : Piece} (reached : E.Reached front p)
    (before : ∀ q ∈ front, E.FindsAll q) : E.Safe front p := by
  cases p with
  | plain c => exact reached
  | reference k name =>
    obtain ⟨⟨value, looked, _⟩, proper, closed, _⟩ := reached
    refine ⟨proper, ?_, value, looked⟩
    rwa [mem_expanded_congr fun k' other member => by
      rw [(before _ member k' other rfl).found_eq]]

/-- A closing brace that the first loop leaves is one of the expansion or in the name of a
reference in parentheses. -/
theorem mem_afterBraces {value : List Char → List Char}
    (there : '}' ∈ front.flatMap (Vpr.afterBraces value)) :
    '}' ∈ front.flatMap (Piece.expanded value) ∨
      ∃ other, .reference .paren other ∈ front ∧ '}' ∈ other := by
  obtain ⟨p, member, here⟩ := List.mem_flatMap.mp there
  rcases p with c | ⟨_ | _, name⟩
  · exact .inl (List.mem_flatMap.mpr ⟨_, member, here⟩)
  · exact .inl (List.mem_flatMap.mpr ⟨_, member, here⟩)
  · exact .inr ⟨name, member, by simpa [Vpr.afterBraces, Piece.text, Kind.opening, Kind.closing]
      using here⟩

theorem Reached.clear {p : Piece} (reached : E.Reached front p) :
    Vpr.Clear (valueIn E.getenv) front p := by
  rcases p with c | ⟨_ | _, name⟩
  · exact reached
  · obtain ⟨_, proper, closed, braces, _⟩ := reached
    refine ⟨proper, fun there => ?_⟩
    rcases mem_afterBraces there with there | ⟨other, member, there⟩
    · exact closed there
    · exact braces rfl other member there
  · obtain ⟨_, proper, closed, _, parens⟩ := reached
    exact ⟨proper, closed, parens rfl⟩

theorem Reached.proper {p : Piece} (reached : E.Reached front p) : p.Proper := by
  cases p with
  | plain c => exact reached
  | reference k name => exact reached.2.1

/-- Orderly texts are expanded. -/
theorem Orderly.bothExpand (orderly : E.Orderly text) (quiet : E.Quiet) : E.BothExpand text := by
  obtain ⟨pieces, rfl, each⟩ := orderly
  have all := each.and_front (fun _ _ reached => reached.findsAll) (by simp)
  have proper (p : Piece) (member : p ∈ pieces) : p.Proper := by
    obtain ⟨_, reached⟩ := each.of_mem member
    exact reached.proper
  have finds (k : Kind) (name : List Char) (member : .reference k name ∈ pieces) :
      E.Finds name := by
    obtain ⟨_, reached⟩ := each.of_mem member
    exact reached.1
  have same : pieces.flatMap (Piece.expanded E.found) =
      pieces.flatMap (Piece.expanded (valueIn E.getenv)) := by
    refine List.flatMap_congr fun p member => ?_
    cases p with
    | plain c => rfl
    | reference k name => exact (finds k name member).found_eq
  refine ⟨_, expands_textOf proper, ?_,
    Vpr.ends_replaceEnvVars quiet (each.imp fun _ _ reached => reached.clear)⟩
  rw [← same]
  refine ends_expandEnvVars [] (all.imp fun _ _ here => here.2.safe here.1)
    (fun k name member => ?_) (by simp)
  rw [(finds k name member).found_eq]
  exact quiet name

/-! ## Environments like another one -/

/-- The variables have these values, and the service finds them. -/
def ofValues (value : List Char → List Char) : Environment where
  getenv name := some (value name)
  properties _ := some (value ['H', 'O', 'M', 'E'])
  mJvmHasGetenv := true
  mHaveTweekJni := false

theorem lookup_ofValues (value : List Char → List Char) (name : List Char) :
    (ofValues value).lookup name = .ok (some (value name)) := by
  rw [lookup]
  split
  · rename_i home
    rw [home]
    rfl
  · rfl

theorem found_ofValues (value : List Char → List Char) : (ofValues value).found = value := by
  funext name
  rw [found_eq (lookup_ofValues value name), Option.getD_some]

theorem like_ofValues {value : List Char → List Char}
    (same : ∀ name (k : Kind), k.closing ∈ valueIn E.getenv name ↔ k.closing ∈ value name) :
    E.Like (ofValues value) :=
  fun name _ => ⟨⟨_, lookup_ofValues value name, rfl⟩, same name⟩

/-- One variable is not set, but the service finds something else or throws. The other variables
are found. -/
def without (value : List Char → List Char) (missing : List Char) : Environment where
  getenv name := if name = missing then none else some (value name ++ ['y'])
  properties _ := some (value ['H', 'O', 'M', 'E'] ++ ['y'])
  mJvmHasGetenv := true
  mHaveTweekJni := false

section Without

variable {value : List Char → List Char} {name missing : List Char}

theorem lookup_without (other : name ≠ missing) :
    (without value missing).lookup name = .ok (some (value name ++ ['y'])) := by
  rw [lookup]
  split
  · rename_i home
    rw [home]
    rfl
  · simp [serviceGetenv, without, other]

theorem valueIn_without (other : name ≠ missing) :
    valueIn (without value missing).getenv name = value name ++ ['y'] := by
  simp [valueIn, without, other]

theorem valueIn_missing : valueIn (without value missing).getenv missing = [] := by
  simp [valueIn, without]

/-- What is looked up for the variable that is not set. -/
theorem lookup_missing {found : Option (List Char)}
    (looked : (without value missing).lookup missing = .ok found) :
    found = some (value ['H', 'O', 'M', 'E'] ++ ['y']) := by
  rw [lookup] at looked
  split at looked
  · exact (Except.ok.inj looked).symm
  · by_cases empty : missing = []
    · simp [serviceGetenv, without, getProperty, empty] at looked
    · simp [serviceGetenv, without, getProperty, empty] at looked
      exact looked.symm

end Without

theorem quiet_without {value : List Char → List Char} (quiet : ∀ name, '$' ∉ value name)
    (missing : List Char) : (without value missing).Quiet := by
  intro name
  by_cases here : name = missing
  · subst here
    simp [valueIn_missing]
  · rw [valueIn_without here]
    simpa using quiet name

theorem like_without {missing : List Char} (lost : ¬ E.Finds missing) :
    E.Like (without (valueIn E.getenv) missing) := by
  intro name finds
  have other : name ≠ missing := by
    rintro rfl
    exact lost finds
  refine ⟨⟨_, lookup_without other, by rw [valueIn_without other]; rfl⟩, fun k => ?_⟩
  rw [valueIn_without other]
  cases k <;> simp [Kind.closing]

/-- Values that tell the lengths of the names, with the closing delimiters of others. -/
def marks (value : List Char → List Char) (size : Nat) (name : List Char) : List Char :=
  List.replicate (name.length + size + 1) 'x' ++
    [if '}' ∈ value name then '}' else 'y', if ')' ∈ value name then ')' else 'y']

theorem closing_mem_marks (value : List Char → List Char) (size : Nat) (name : List Char)
    (k : Kind) : k.closing ∈ value name ↔ k.closing ∈ marks value size name := by
  cases k <;> by_cases brace : '}' ∈ value name <;> by_cases paren : ')' ∈ value name <;>
    simp [marks, brace, paren, Kind.closing, List.mem_replicate]

theorem marked_marks (value : List Char → List Char) (size : Nat) :
    Vpr.Marked (ofValues (marks value size)).getenv size := by
  intro name
  refine ⟨_, _, rfl, ?_, ?_⟩
  · split <;> decide
  · split <;> split <;> decide

/-! ## Which texts are expanded -/

theorem Safe.proper {p : Piece} (safe : E.Safe front p) : p.Proper := by
  cases p with
  | plain c => exact safe
  | reference k name => exact safe.1

theorem proper_of_safe (safe : EachAfter E.Safe [] pieces) : ∀ p ∈ pieces, p.Proper := by
  intro p member
  obtain ⟨front, here⟩ := safe.of_mem member
  exact here.proper

/-- A string for which the service returns the expansion consists of safe pieces. -/
theorem BothExpand.exists_safe (both : E.BothExpand text)
    (quiet : ∀ name value, E.lookup name = .ok value → '$' ∉ value.getD []) :
    ∃ pieces, text = textOf pieces ∧ EachAfter E.Safe [] pieces ∧
      pieces.flatMap (Piece.expanded E.found) =
        pieces.flatMap (Piece.expanded (valueIn E.getenv)) := by
  obtain ⟨result, spec, java, _⟩ := both
  obtain ⟨fuel, here⟩ := Returns.exists_some java
  obtain ⟨pieces, same, safe, rfl⟩ := pieces_of_ok [] quiet (by simp) here
  rw [same] at spec
  exact ⟨pieces, same, safe, spec.unique (expands_textOf (proper_of_safe safe))⟩

section Necessary

variable {value : List Char → List Char} {size : Nat}

/-- Where the service puts in something else for a variable that is not set, the result is too
long. -/
theorem not_mem_of_without {missing : List Char} (quiet : ∀ name, '$' ∉ value name)
    (both : (without value missing).BothExpand (textOf pieces))
    (proper : ∀ p ∈ pieces, p.Proper) (k : Kind) : .reference k missing ∉ pieces := by
  intro member
  have quiet' (name : List Char) (v : Option (List Char))
      (looked : (without value missing).lookup name = .ok v) : '$' ∉ v.getD [] := by
    by_cases lost : name = missing
    · subst lost
      rw [lookup_missing looked]
      simpa using quiet _
    · rw [lookup_without lost] at looked
      rw [← Except.ok.inj looked]
      simpa using quiet name
  obtain ⟨pieces', same, safe, equal⟩ := both.exists_safe quiet'
  obtain rfl := textOf_inj proper (proper_of_safe safe) same
  have lengths := congrArg List.length equal
  rw [List.length_flatMap, List.length_flatMap] at lengths
  have lost (name : List Char) (v : Option (List Char))
      (looked : (without value missing).lookup name = .ok v) (here : name = missing) :
      (without value missing).found name = value ['H', 'O', 'M', 'E'] ++ ['y'] := by
    subst here
    rw [found_eq looked, lookup_missing looked, Option.getD_some]
  refine absurd lengths.symm (Nat.ne_of_lt (List.sum_lt_sum _ _ (fun p member' => ?_)
    ⟨_, member, ?_⟩))
  · cases p with
    | plain c => exact Nat.le_refl _
    | reference k' name =>
      by_cases here : name = missing
      · subst here
        simp [Piece.expanded, valueIn_missing]
      · simp [Piece.expanded, valueIn_without here, found_eq (lookup_without here)]
  · obtain ⟨front, _, _, v, looked⟩ := safe.of_mem member
    simp [Piece.expanded, valueIn_missing, lost missing v looked rfl]

/-- Where the values are marked, no delimiter leads the loops astray. -/
theorem clear_of_marked (marked : Vpr.Marked (ofValues value).getenv size)
    (short : (textOf pieces).length ≤ size) (safe : EachAfter (ofValues value).Safe [] pieces)
    (both : (ofValues value).BothExpand (textOf pieces)) :
    EachAfter (Vpr.Clear value) [] pieces := by
  obtain ⟨result, spec, _, ends⟩ := both
  obtain rfl := spec.unique (expands_textOf (proper_of_safe safe))
  refine eachAfter_of_step fun front p back split before => ?_
  subst split
  obtain ⟨here, _⟩ := (eachAfter_append.mp safe).2
  rcases p with c | ⟨_ | _, name⟩
  · exact here
  · exact ⟨here.1, marked.not_mem before ends⟩
  · obtain ⟨proper, closed, _⟩ := here
    rw [found_ofValues] at closed
    refine ⟨proper, closed, marked.not_infix ?_ proper before closed ends⟩
    simp at short
    omega

end Necessary

/-- What both implementations expand in all environments like this one are the orderly texts. -/
theorem bothExpand_iff_orderly (quiet : E.Quiet) (text : List Char) :
    (∀ E', E'.Quiet → E.Like E' → E'.BothExpand text) ↔ E.Orderly text := by
  constructor
  · intro all
    have marked := marked_marks (valueIn E.getenv) text.length
    have both := all (ofValues (marks (valueIn E.getenv) text.length)) marked.plain
      (like_ofValues (closing_mem_marks (valueIn E.getenv) text.length))
    obtain ⟨pieces, rfl, safe, _⟩ := both.exists_safe fun name found looked => by
      rw [lookup_ofValues] at looked
      rw [← Except.ok.inj looked]
      exact marked.plain name
    have clear := clear_of_marked marked (Nat.le_refl _) safe both
    have finds (p : Piece) (member : p ∈ pieces) : E.FindsAll p := by
      rintro k name rfl
      by_contra lost
      have other := all (without (valueIn E.getenv) name) (quiet_without quiet name)
        (like_without lost)
      exact not_mem_of_without quiet other (proper_of_safe safe) k member
    refine ⟨pieces, rfl, ((safe.and clear).and (eachAfter_of_forall finds)).imp ?_⟩
    rintro front (c | ⟨k, name⟩) ⟨⟨here, clear⟩, finds⟩
    · exact here
    · obtain ⟨proper, closed, _⟩ := here
      rw [found_ofValues, ← mem_expanded_congr fun k' other _ =>
        closing_mem_marks (valueIn E.getenv) _ other k] at closed
      refine ⟨finds k name rfl, proper, closed, ?_, ?_⟩
      · rintro rfl other member there
        apply clear.2
        exact List.mem_flatMap.mpr ⟨_, member, by simp [Vpr.afterBraces, Piece.text, there]⟩
      · rintro rfl
        exact clear.2.2
  · intro orderly E' quiet' like
    exact (orderly.like like).bothExpand quiet'

/-- No variable is set, and the service can see that. -/
def bare : Environment where
  getenv _ := none
  properties _ := none
  mJvmHasGetenv := true
  mHaveTweekJni := false

theorem bothExpand_iff_orderly_two :
    bare.BothExpand ['a', '$', '(', 'A', ')', '$', '{', 'B', '}'] := by
  have quiet : bare.Quiet := fun _ => List.not_mem_nil
  refine (bothExpand_iff_orderly quiet _).mpr
    ⟨[.plain 'a', .reference .paren ['A'], .reference .brace ['B']], rfl, ?_, ?_, ?_, trivial⟩
    bare quiet fun _ finds => ⟨finds, fun _ => Iff.rfl⟩
  · exact (by decide : 'a' ≠ '$')
  · exact ⟨⟨none, rfl, rfl⟩, by decide, by decide, nofun, fun _ => by decide⟩
  · refine ⟨⟨none, rfl, rfl⟩, by decide, by decide, fun _ other member => ?_, nofun⟩
    have here : other = ['A'] := by simpa using member
    rw [here]
    decide

/-- Behind a closing brace, an opening one is never left. -/
theorem stray_brace_loops :
    ¬ ∀ (E : Environment) (text : List Char), E.Quiet → E.BothExpand text := by
  intro claim
  obtain ⟨r, _, _, ends⟩ := claim bare ['}', '$', '{', 'X', '}'] fun _ => List.not_mem_nil
  obtain ⟨r', first, _⟩ := Vpr.exists_passes ends
  obtain ⟨fuel, here⟩ := Returns.exists_some first
  -- nothing is replaced by nothing, again and again
  have loops : Vpr.pass bare.getenv .brace fuel ['}', '$', '{', 'X', '}'] = none := by
    clear here
    induction fuel with
    | zero => rfl
    | succ fuel ih => exact ih
  rw [loops] at here
  cases here

end Environment

end VRJuggler.Tweek
