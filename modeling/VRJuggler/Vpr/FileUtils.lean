import Mathlib.Algebra.Group.Int.Defs
import Mathlib.Algebra.Group.Nat.Defs
import VRJuggler.Base.References
import VRJuggler.Base.Text
import VRJuggler.Base.Throwing

/-!
# Environment variables in the names of files

`vpr::replaceEnvVars` replaces one reference after the other, first those in braces and then
those in parentheses. In each round it looks for both delimiters from the beginning of the text.

Texts are far shorter than half the values of `size_type`. A difference that wraps around is
therefore above every size; here it is a negative number, and so is `npos`.
-/
namespace VRJuggler.Vpr

open References Throwing

inductive Thrown where
  | outOfRange
  deriving DecidableEq

/-- How many of `size` characters a count takes. -/
def clamp (n : Int) (size : Nat) : Nat := if n < 0 then size else min n.toNat size

/-- The count is what 64 bits make of it. -/
theorem clamp_eq {n : Int} {size : Nat} (low : -2 ^ 63 ≤ n) (high : n < 2 ^ 63)
    (short : size < 2 ^ 63) : clamp n size = min (n % 2 ^ 64).toNat size := by
  rw [clamp]
  split <;> omega

/-- `find`, with -1 for `npos`. -/
def position (text pattern : List Char) : Int :=
  match Text.find pattern text with
  | some i => i
  | none => -1

/-- The constructor of a string from a part of another one. -/
def substr (text : List Char) (pos : Nat) (n : Int) : Except Thrown (List Char) :=
  if pos ≤ text.length then .ok ((text.drop pos).take (clamp n (text.length - pos)))
  else .error .outOfRange

def replace (text : List Char) (pos : Nat) (n : Int) (value : List Char) :
    Except Thrown (List Char) :=
  if pos ≤ text.length then
    .ok (text.take pos ++ (value ++ text.drop (pos + clamp n (text.length - pos))))
  else .error .outOfRange

/-- `replaceEnvVars` with the delimiters. A variable that is not set leaves the value empty. -/
def replaceEnvVarsBetween (getenv : List Char → Option (List Char))
    (startStr endStr : List Char) : Nat → List Char → Throwing Thrown (List Char)
  | 0, _ => ExceptT.mk none
  | fuel + 1, ret_str =>
    match Text.find startStr ret_str with
    | none => pure ret_str
    | some subst_begin => do
      let subst_end := position ret_str endStr
      let subst_len := subst_end - subst_begin
      let env_var ← ExceptT.mk (some
        (substr ret_str (subst_begin + startStr.length) (subst_len - startStr.length)))
      let env_var_val := (getenv env_var).getD []
      let ret_str ← ExceptT.mk (some (replace ret_str subst_begin (subst_len + 1) env_var_val))
      replaceEnvVarsBetween getenv startStr endStr fuel ret_str

def replaceEnvVars (getenv : List Char → Option (List Char)) (fuel : Nat) (str : List Char) :
    Throwing Thrown (List Char) := do
  let ret_str ← replaceEnvVarsBetween getenv ['$', '{'] ['}'] fuel str
  replaceEnvVarsBetween getenv ['$', '('] [')'] fuel ret_str

/-! ## One round -/

/-- One of the two loops. -/
def pass (getenv : List Char → Option (List Char)) (k : Kind) :
    Nat → List Char → Throwing Thrown (List Char) :=
  replaceEnvVarsBetween getenv ['$', k.opening] [k.closing]

section Rounds

variable {getenv : List Char → Option (List Char)} {k : Kind} {p q name rest r : List Char}

/-- The first opening delimiter of this kind. -/
theorem find_opening (first : Text.Skips ['$', k.opening] p ('$' :: k.opening :: q)) :
    Text.find ['$', k.opening] (p ++ '$' :: k.opening :: q) = some p.length := by
  rw [Text.find_skips first, Text.find_here (by simp), Option.map_some, Nat.zero_add]

/-- What is looked up and put in. -/
theorem pass_succ (first : Text.Skips ['$', k.opening] p ('$' :: k.opening :: q)) (fuel : Nat) :
    pass getenv k (fuel + 1) (p ++ '$' :: k.opening :: q) =
      let len := position (p ++ '$' :: k.opening :: q) [k.closing] - p.length
      pass getenv k fuel (p ++ (valueIn getenv (q.take (clamp (len - 2) q.length)) ++
        ('$' :: k.opening :: q).drop (clamp (len + 1) (q.length + 2)))) := by
  have size : (p ++ '$' :: k.opening :: q).length = p.length + (q.length + 2) := by simp
  have inside : p.length + 2 ≤ (p ++ '$' :: k.opening :: q).length := by omega
  have behind : (p ++ '$' :: k.opening :: q).drop (p.length + 2) = q := by simp
  have name (n : Int) : substr (p ++ '$' :: k.opening :: q) (p.length + 2) n =
      .ok (q.take (clamp n q.length)) := by
    rw [substr, if_pos inside, behind, size]
    congr 3
    omega
  have replaced (n : Int) (value : List Char) :
      replace (p ++ '$' :: k.opening :: q) p.length n value =
        .ok (p ++ (value ++ ('$' :: k.opening :: q).drop (clamp n (q.length + 2)))) := by
    rw [replace, if_pos (by omega), List.take_left, size, Nat.add_sub_cancel_left,
      List.drop_append, List.drop_of_length_le (by omega), Nat.add_sub_cancel_left,
      List.nil_append]
  rw [pass, replaceEnvVarsBetween, find_opening first]
  simp only [List.length_cons, List.length_nil, Nat.zero_add, Nat.reduceAdd, Nat.cast_ofNat]
  rw [name, mk_ok_bind, replaced, mk_ok_bind]
  rfl

theorem position_of_mem {text : List Char} {c : Char} (member : c ∈ text) :
    position text [c] = (component c text).length := by
  rw [position, Text.find_of_mem member]

theorem position_of_not_mem {text : List Char} {c : Char} (plain : c ∉ text) :
    position text [c] = -1 := by
  rw [position, Text.find_of_not_mem plain]

/-- A closed reference with no closing delimiter before it is replaced. -/
theorem pass_closed
    (first : Text.Skips ['$', k.opening] p ('$' :: k.opening :: (name ++ k.closing :: rest)))
    (before : k.closing ∉ p) (plain : k.closing ∉ name) (fuel : Nat) :
    pass getenv k (fuel + 1) (p ++ '$' :: k.opening :: (name ++ k.closing :: rest)) =
      pass getenv k fuel (p ++ (valueIn getenv name ++ rest)) := by
  have ends : position (p ++ '$' :: k.opening :: (name ++ k.closing :: rest)) [k.closing] =
      (p.length + (name.length + 2) : Nat) := by
    have plain' : k.closing ∉ p ++ '$' :: k.opening :: name := by
      simp [before, plain, k.closing_ne_dollar, k.closing_ne_opening k]
    have here : component k.closing (p ++ '$' :: k.opening :: (name ++ k.closing :: rest)) =
        p ++ '$' :: k.opening :: name := by
      have whole : component k.closing (p ++ '$' :: k.opening :: name ++ k.closing :: rest) =
          p ++ '$' :: k.opening :: name := component_append plain'
      rwa [List.append_assoc, List.cons_append, List.cons_append] at whole
    rw [position_of_mem (by simp), here]
    simp
    omega
  have whole : clamp (name.length : Int) (name ++ k.closing :: rest).length = name.length := by
    rw [clamp, if_neg (by omega)]
    simp
  have replaced : clamp (name.length + 3 : Int) ((name ++ k.closing :: rest).length + 2) =
      name.length + 3 := by
    rw [clamp, if_neg (by omega)]
    simp
    omega
  rw [pass_succ first]
  have len : ((p.length + (name.length + 2) : Nat) : Int) - p.length = name.length + 2 := by omega
  have less : (name.length + 2 : Int) - 2 = name.length := by omega
  have more : (name.length + 2 : Int) + 1 = name.length + 3 := by omega
  simp only [ends, len, less, more, whole, replaced, List.take_left]
  simp

/-- Where the closing delimiter is missing or comes first before the opening one, all the rest is
taken for the name. -/
theorem pass_astray (first : Text.Skips ['$', k.opening] p ('$' :: k.opening :: q))
    (astray : k.closing ∈ p ∨ k.closing ∉ q) :
    ∃ rest, ∀ fuel, pass getenv k (fuel + 1) (p ++ '$' :: k.opening :: q) =
      pass getenv k fuel (p ++ (valueIn getenv q ++ rest)) := by
  have early : position (p ++ '$' :: k.opening :: q) [k.closing] < p.length := by
    by_cases before : k.closing ∈ p
    · rw [position_of_mem (List.mem_append_left _ before)]
      exact Int.ofNat_lt.mpr (length_component_append_lt before)
    · have missing := astray.resolve_left before
      rw [position_of_not_mem]
      · omega
      · simp [before, missing, k.closing_ne_dollar, k.closing_ne_opening k]
  refine ⟨('$' :: k.opening :: q).drop (clamp (position (p ++ '$' :: k.opening :: q) [k.closing] -
    p.length + 1) (q.length + 2)), fun fuel => ?_⟩
  rw [pass_succ first]
  have all : clamp (position (p ++ '$' :: k.opening :: q) [k.closing] - p.length - 2) q.length =
      q.length := by rw [clamp, if_pos (by omega)]
  simp only [all, List.take_length]

/-- The name that is looked up. -/
def asked (k : Kind) (p q : List Char) : List Char :=
  if k.closing ∈ p then q else component k.closing q

theorem asked_of_mem (before : k.closing ∈ p) : asked k p q = q := if_pos before

theorem asked_of_not_mem (before : k.closing ∉ p) : asked k p q = component k.closing q :=
  if_neg before

variable (getenv) in
theorem pass_first (first : Text.Skips ['$', k.opening] p ('$' :: k.opening :: q)) :
    ∃ rest, ∀ fuel, pass getenv k (fuel + 1) (p ++ '$' :: k.opening :: q) =
      pass getenv k fuel (p ++ (valueIn getenv (asked k p q) ++ rest)) := by
  by_cases before : k.closing ∈ p
  · rw [asked_of_mem before]
    exact pass_astray first (.inl before)
  · rw [asked_of_not_mem before]
    by_cases closed : k.closing ∈ q
    · rw [← component_append_behind closed] at first ⊢
      rw [component_append plain_component]
      exact ⟨_, pass_closed first before plain_component⟩
    · have whole : component k.closing q = q := by
        have all : component k.closing (q ++ []) = q ++ component k.closing [] :=
          component_append_plain closed
        rwa [component_nil, List.append_nil] at all
      rw [whole]
      exact pass_astray first (.inr closed)

end Rounds

/-! ## The whole run -/

section Runs

variable {getenv : List Char → Option (List Char)} {k : Kind} {p q r : List Char}

/-- A round that is not reached changes nothing. -/
theorem pass_mono {r : Except Thrown (List Char)} (fuel : Nat) :
    ∀ text, pass getenv k fuel text = some r → pass getenv k (fuel + 1) text = some r := by
  induction fuel with
  | zero =>
    intro text here
    cases here
  | succ fuel ih =>
    intro text here
    rw [pass, replaceEnvVarsBetween] at here ⊢
    cases found : Text.find ['$', k.opening] text with
    | none => rwa [found] at here
    | some subst_begin =>
      rw [found] at here
      dsimp only at here ⊢
      generalize substr _ _ _ = env_var at here ⊢
      cases env_var with
      | error e => exact here
      | ok env_var =>
        rw [mk_ok_bind] at here ⊢
        generalize replace _ _ _ _ = ret_str at here ⊢
        cases ret_str with
        | error e => exact here
        | ok ret_str =>
          rw [mk_ok_bind] at here ⊢
          exact ih ret_str here

/-- The second loop works on what the first one returns. -/
theorem exists_passes {text : List Char} (ends : Ends (replaceEnvVars getenv · text) (.ok r)) :
    ∃ r', Ends (pass getenv .brace · text) (.ok r') ∧ Ends (pass getenv .paren · r') (.ok r) := by
  obtain ⟨fuel, here⟩ := Returns.exists_some ends
  obtain ⟨r', first, second⟩ := bind_eq_ok.mp here
  exact ⟨r', Returns.of_mono (fun fuel _ => pass_mono fuel text) fuel first,
    Returns.of_mono (fun fuel _ => pass_mono fuel r') fuel second⟩

/-- Without an opening delimiter nothing is done. -/
theorem ends_pass (settled : Text.Never ['$', k.opening] p) :
    Ends (pass getenv k · p) (.ok p) := by
  have nowhere : Text.find ['$', k.opening] p = none := by
    have all := Text.find_skips (settled [])
    rwa [List.append_nil, Text.find, if_neg (List.cons_ne_nil _ _), Option.map_none] at all
  refine Returns.congr (fun fuel => ?_) (Ends.pure p)
  rw [pass, replaceEnvVarsBetween, nowhere]

/-- What no opening delimiter begins in stays there. -/
theorem pass_keeps (settled : Text.Never ['$', k.opening] p) {fuel : Nat}
    (here : pass getenv k fuel (p ++ q) = some (.ok r)) : p <+: r := by
  induction fuel generalizing q with
  | zero => cases here
  | succ fuel ih =>
    rcases Text.find_cases (List.cons_ne_nil '$' [k.opening]) q with nowhere | found
    · have all := Text.find_skips (settled q)
      rw [nowhere, Option.map_none] at all
      rw [pass, replaceEnvVarsBetween, all] at here
      obtain rfl := Except.ok.inj (Option.some.inj here)
      exact List.prefix_append p q
    · obtain ⟨w, q', rfl, skips⟩ := found
      rw [← List.append_assoc] at here
      have first := Text.skips_append.mpr ⟨settled _, skips⟩
      obtain ⟨rest, next⟩ := pass_first getenv first
      have step := (next fuel).symm.trans here
      rw [List.append_assoc] at step
      exact ih step

/-- The value that is put in first stays where it is. -/
theorem first_kept (first : Text.Skips ['$', k.opening] p ('$' :: k.opening :: q))
    {c : Char} {v : List Char} (value : valueIn getenv (asked k p q) = c :: v)
    (other : c ≠ k.opening) (plain : '$' ∉ c :: v)
    (ends : Ends (pass getenv k · (p ++ '$' :: k.opening :: q)) (.ok r)) : p ++ c :: v <+: r := by
  obtain ⟨rest, next⟩ := pass_first getenv first
  obtain ⟨fuel, here⟩ := Returns.exists_some ((Ends.succ_iff next).mp ends)
  rw [value, ← List.append_assoc] at here
  refine pass_keeps (fun rest' => ?_) here
  exact Text.skips_append.mpr ⟨Text.skips_congr first (by simpa using other),
    Text.skips_of_not_mem plain _ _⟩

/-- The pieces that come first are replaced, or stay. -/
theorem pass_pieces {f g : Piece → List Char} (front : List Piece) {pieces : List Piece}
    (tail : List Char)
    (each : EachAfter (fun front p => f p = g p ∧ Text.Never ['$', k.opening] (g p) ∨
      ∃ name, f p = (Piece.reference k name).text ∧ g p = valueIn getenv name ∧
        k.closing ∉ name ∧ k.closing ∉ front.flatMap g) front pieces)
    (settled : ∀ p ∈ front, Text.Never ['$', k.opening] (g p))
    (plain : ∀ name, '$' ∉ valueIn getenv name) {r : Except Thrown (List Char)} :
    Ends (pass getenv k · (front.flatMap g ++ (pieces.flatMap f ++ tail))) r ↔
      Ends (pass getenv k · ((front ++ pieces).flatMap g ++ tail)) r := by
  induction pieces generalizing front with
  | nil => simp
  | cons p pieces ih =>
    obtain ⟨here, later⟩ := each
    have never : Text.Never ['$', k.opening] (g p) := by
      rcases here with ⟨_, never⟩ | ⟨name, _, value, _⟩
      · exact never
      · rw [value]
        exact Text.never_of_not_mem (plain name) _
    have rest := ih (front ++ [p]) later fun p' member => by
      rcases List.mem_append.mp member with member | member
      · exact settled p' member
      · rwa [List.mem_singleton.mp member]
    rw [List.append_assoc, List.singleton_append] at rest
    rw [← rest, List.flatMap_append, List.flatMap_singleton]
    rcases here with ⟨same, _⟩ | ⟨name, raw, value, proper, before⟩
    · simp [same]
    · apply Ends.succ_iff
      intro fuel
      rw [List.flatMap_cons, raw, value, Piece.text]
      simp only [List.cons_append, List.append_assoc, List.nil_append]
      exact pass_closed (Text.never_flatMap settled _) before proper fuel

end Runs

/-! ## Clear texts -/

/-- What stands for a piece after the first loop. -/
def afterBraces (value : List Char → List Char) : Piece → List Char
  | .plain c => [c]
  | .reference .brace name => value name
  | .reference .paren name => (Piece.reference .paren name).text

/-- The loops come to a reference behind these pieces, and it ends where its name does. -/
def Clear (value : List Char → List Char) (front : List Piece) : Piece → Prop
  | .plain c => c ≠ '$'
  | .reference .brace name => '}' ∉ name ∧ '}' ∉ front.flatMap (afterBraces value)
  | .reference .paren name =>
    ')' ∉ name ∧ ')' ∉ front.flatMap (Piece.expanded value) ∧ ¬ ['$', '{'] <:+: name

section Clear

variable {getenv : List Char → Option (List Char)} {pieces : List Piece}
  {r : Except Thrown (List Char)}

/-- The first loop finds nothing more in what it leaves. -/
theorem never_afterBraces {front : List Piece} {p : Piece}
    (plain : ∀ name, '$' ∉ valueIn getenv name) (clear : Clear (valueIn getenv) front p) :
    Text.Never ['$', '{'] (afterBraces (valueIn getenv) p) := by
  rcases p with c | ⟨_ | _, name⟩
  · exact Text.never_of_not_mem (by simpa [afterBraces] using clear.symm) _
  · exact Text.never_of_not_mem (plain name) _
  · refine fun rest => ⟨?_, ?_, ?_⟩
    · simp [Kind.opening]
    · simp [Kind.opening]
    · exact Text.never_concat clear.2.2 (by decide) (by decide) rest

theorem never_flatMap_afterBraces (plain : ∀ name, '$' ∉ valueIn getenv name)
    (clear : EachAfter (Clear (valueIn getenv)) [] pieces) :
    Text.Never ['$', '{'] (pieces.flatMap (afterBraces (valueIn getenv))) := by
  refine Text.never_flatMap fun p member => ?_
  obtain ⟨front, here⟩ := clear.of_mem member
  exact never_afterBraces plain here

theorem plain_expanded {front : List Piece} {p : Piece}
    (plain : ∀ name, '$' ∉ valueIn getenv name) (clear : Clear (valueIn getenv) front p) :
    '$' ∉ p.expanded (valueIn getenv) := by
  cases p with
  | plain c => simpa [Piece.expanded] using clear.symm
  | reference _ name => exact plain name

theorem plain_flatMap_expanded (plain : ∀ name, '$' ∉ valueIn getenv name)
    (clear : EachAfter (Clear (valueIn getenv)) [] pieces) :
    '$' ∉ pieces.flatMap (Piece.expanded (valueIn getenv)) := by
  rw [List.mem_flatMap]
  rintro ⟨p, member, there⟩
  obtain ⟨front, here⟩ := clear.of_mem member
  exact plain_expanded plain here there

theorem first_pass (plain : ∀ name, '$' ∉ valueIn getenv name)
    (clear : EachAfter (Clear (valueIn getenv)) [] pieces) (tail : List Char) :
    Ends (pass getenv .brace · (textOf pieces ++ tail)) r ↔
      Ends (pass getenv .brace · (pieces.flatMap (afterBraces (valueIn getenv)) ++ tail)) r := by
  refine pass_pieces (k := .brace) [] tail (clear.imp fun front p here => ?_) (by simp)
    plain
  have never := never_afterBraces plain here
  rcases p with c | ⟨_ | _, name⟩
  · exact .inl ⟨rfl, never⟩
  · exact .inr ⟨name, rfl, rfl, here⟩
  · exact .inl ⟨rfl, never⟩

theorem second_pass (plain : ∀ name, '$' ∉ valueIn getenv name)
    (clear : EachAfter (Clear (valueIn getenv)) [] pieces) (tail : List Char) :
    Ends (pass getenv .paren · (pieces.flatMap (afterBraces (valueIn getenv)) ++ tail)) r ↔
      Ends (pass getenv .paren · (pieces.flatMap (Piece.expanded (valueIn getenv)) ++ tail)) r := by
  refine pass_pieces (k := .paren) [] tail (clear.imp fun front p here => ?_) (by simp)
    plain
  have never := Text.never_of_not_mem (plain_expanded plain here) ['(']
  rcases p with c | ⟨_ | _, name⟩
  · exact .inl ⟨rfl, never⟩
  · exact .inl ⟨rfl, never⟩
  · exact .inr ⟨name, rfl, rfl, here.1, here.2.1⟩

theorem ends_replaceEnvVars (plain : ∀ name, '$' ∉ valueIn getenv name)
    (clear : EachAfter (Clear (valueIn getenv)) [] pieces) :
    Ends (replaceEnvVars getenv · (textOf pieces))
      (.ok (pieces.flatMap (Piece.expanded (valueIn getenv)))) := by
  have between : Ends (pass getenv .brace · (pieces.flatMap (afterBraces (valueIn getenv)) ++ []))
      (.ok (pieces.flatMap (afterBraces (valueIn getenv)))) := by
    rw [List.append_nil]
    exact ends_pass (never_flatMap_afterBraces plain clear)
  have last : Ends (pass getenv .paren · (pieces.flatMap (Piece.expanded (valueIn getenv)) ++ []))
      (.ok (pieces.flatMap (Piece.expanded (valueIn getenv)))) := by
    rw [List.append_nil]
    exact ends_pass (Text.never_of_not_mem (plain_flatMap_expanded plain clear) _)
  have first := (first_pass plain clear []).mpr between
  have second := (second_pass plain clear []).mpr last
  rw [List.append_nil] at first second
  exact first.ok_bind second

end Clear

end VRJuggler.Vpr
