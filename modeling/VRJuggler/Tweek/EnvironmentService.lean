import VRJuggler.Base.References
import VRJuggler.Base.Text
import VRJuggler.Base.Throwing

/-!
# The environment service

`expandEnvVars` replaces the reference at the first dollar sign until there is none. The end of
the reference is looked for from the beginning of the string.
-/
namespace VRJuggler.Tweek

open References Throwing

/-- The environment of the process and the properties of the virtual machine, which may not be
able to see the environment. -/
structure Environment where
  getenv : List Char → Option (List Char)
  properties : List Char → Option (List Char)
  mJvmHasGetenv : Bool
  mHaveTweekJni : Bool

namespace Environment

inductive Thrown where
  | indexOutOfBounds
  | illegalArgument
  deriving DecidableEq

variable (E : Environment)

/-- `System.getProperty`, which does not take an empty key. -/
def getProperty (key : List Char) (defaultValue : Option (List Char)) :
    Except Thrown (Option (List Char)) :=
  if key = [] then .error .illegalArgument else .ok ((E.properties key).or defaultValue)

def getUserHome : Option (List Char) :=
  E.properties ['u', 's', 'e', 'r', '.', 'h', 'o', 'm', 'e']

/-- `EnvironmentServiceImpl.getenv`. -/
def serviceGetenv (envVarName : List Char) (defaultValue : Option (List Char)) :
    Except Thrown (Option (List Char)) :=
  let value :=
    if E.mJvmHasGetenv then E.getenv envVarName
    else if E.mHaveTweekJni then E.getenv envVarName
    else none
  match value with
  | some value => .ok (some value)
  | none => E.getProperty envVarName defaultValue

/-- The value that the expansion puts in, or `null`. -/
def lookup (env_var : List Char) : Except Thrown (Option (List Char)) :=
  if env_var = ['H', 'O', 'M', 'E'] then .ok E.getUserHome else E.serviceGetenv env_var none

def substring (text : List Char) (beginIndex endIndex : Int) : Throwing Thrown (List Char) :=
  ExceptT.mk (some ((Text.substring text beginIndex endIndex).mapError fun _ => .indexOutOfBounds))

/-- The end of the reference that is opened so. -/
def endIndex (new_str opening : List Char) : Option Int :=
  if opening = ['$', '('] then some (Text.indexOf new_str ')' 0)
  else if opening = ['$', '{'] then some (Text.indexOf new_str '}' 0)
  else none

def expandEnvVars : Nat → List Char → Throwing Thrown (List Char)
  | 0, _ => ExceptT.mk none
  | fuel + 1, new_str =>
    let index := Text.indexOf new_str '$' 0
    if index ≠ -1 then do
      let opening ← substring new_str index (index + 2)
      match endIndex new_str opening with
      | none => expandEnvVars fuel new_str -- `continue`
      | some end_index => do
        let env_var ← substring new_str (index + 2) end_index
        let value ← ExceptT.mk (some (E.lookup env_var))
        let front ← substring new_str 0 index
        let back ← substring new_str (end_index + 1) new_str.length
        match value with
        | some value => expandEnvVars fuel (front ++ value ++ back)
        | none => expandEnvVars fuel (front ++ back)
    else pure new_str

/-! ## One round -/

variable {E} {p q name rest r : List Char} {k : Kind}

theorem substring_eq {text : List Char} {beginIndex endIndex : Int} (front part rest : List Char)
    (split : text = front ++ (part ++ rest)) (begins : beginIndex = front.length)
    (ends : endIndex = front.length + part.length) :
    substring text beginIndex endIndex = pure part := by
  subst split begins ends
  rw [substring, ← Nat.cast_add, Text.substring_append]
  rfl

theorem expand_plain (plain : '$' ∉ p) (fuel : Nat) : E.expandEnvVars (fuel + 1) p = pure p := by
  have nowhere : Text.indexOf p '$' 0 = -1 := Text.indexOf_eq_neg_one plain
  rw [expandEnvVars, nowhere]
  rfl

/-- At an opening delimiter, the name ends at the first closing one of the string. -/
theorem expand_opening (plain : '$' ∉ p) (fuel : Nat) :
    E.expandEnvVars (fuel + 1) (p ++ '$' :: k.opening :: q) = (do
      let text := p ++ '$' :: k.opening :: q
      let env_var ← substring text (p.length + 2) (Text.indexOf text k.closing 0)
      let value ← ExceptT.mk (some (E.lookup env_var))
      let front ← substring text 0 p.length
      let back ← substring text (Text.indexOf text k.closing 0 + 1) text.length
      E.expandEnvVars fuel (front ++ (value.getD [] ++ back))) := by
  have index : Text.indexOf (p ++ '$' :: k.opening :: q) '$' 0 = p.length :=
    Text.indexOf_first plain
  have opening : substring (p ++ '$' :: k.opening :: q) p.length (p.length + 2) =
      pure ['$', k.opening] := substring_eq p ['$', k.opening] q rfl rfl rfl
  have closing : endIndex (p ++ '$' :: k.opening :: q) ['$', k.opening] =
      some (Text.indexOf (p ++ '$' :: k.opening :: q) k.closing 0) := by
    cases k <;> rfl
  rw [expandEnvVars, index]
  simp only [opening, pure_bind, closing]
  rw [if_pos (by omega)]
  refine bind_congr fun env_var => bind_congr fun value => bind_congr fun front =>
    bind_congr fun back => ?_
  cases value <;> simp

/-- A closed reference with no closing delimiter before it is replaced. -/
theorem expand_reference (plain : '$' ∉ p) (before : k.closing ∉ p) (proper : k.closing ∉ name)
    (fuel : Nat) :
    E.expandEnvVars (fuel + 1) (p ++ '$' :: k.opening :: (name ++ k.closing :: rest)) = (do
      let value ← ExceptT.mk (some (E.lookup name))
      E.expandEnvVars fuel (p ++ (value.getD [] ++ rest))) := by
  have plain' : k.closing ∉ p ++ '$' :: k.opening :: name := by
    simp [before, proper, k.closing_ne_dollar, k.closing_ne_opening k]
  have closing : Text.indexOf (p ++ '$' :: k.opening :: (name ++ k.closing :: rest)) k.closing 0 =
      p.length + 2 + name.length := by
    have first : Text.indexOf (p ++ '$' :: k.opening :: name ++ k.closing :: rest) k.closing 0 =
        (p ++ '$' :: k.opening :: name).length := Text.indexOf_first plain'
    rw [List.append_assoc, List.cons_append, List.cons_append] at first
    rw [first]
    simp
    omega
  have env_var : substring (p ++ '$' :: k.opening :: (name ++ k.closing :: rest)) (p.length + 2)
      (p.length + 2 + name.length) = pure name :=
    substring_eq (p ++ ['$', k.opening]) name (k.closing :: rest) (by simp) (by simp) (by simp)
  have front : substring (p ++ '$' :: k.opening :: (name ++ k.closing :: rest)) 0 p.length =
      pure p := substring_eq [] p _ rfl rfl (by simp)
  have back : substring (p ++ '$' :: k.opening :: (name ++ k.closing :: rest))
      (p.length + 2 + name.length + 1)
      (p ++ '$' :: k.opening :: (name ++ k.closing :: rest)).length = pure rest :=
    substring_eq (p ++ '$' :: k.opening :: (name ++ [k.closing])) rest [] (by simp)
      (by simp; omega) (by simp; omega)
  rw [expand_opening plain]
  simp only [closing, env_var, front, back, pure_bind]

/-- Every round that does not throw does nothing or replaces a closed reference with no closing
delimiter before it. -/
theorem round_of_ok (plain : '$' ∉ p) {fuel : Nat}
    (here : E.expandEnvVars (fuel + 1) (p ++ '$' :: q) = some (.ok r)) :
    E.expandEnvVars fuel (p ++ '$' :: q) = some (.ok r) ∨
      ∃ (k : Kind) (name rest : List Char) (value : Option (List Char)),
        q = k.opening :: (name ++ k.closing :: rest) ∧ k.closing ∉ p ∧ k.closing ∉ name ∧
          E.lookup name = .ok value ∧
          E.expandEnvVars fuel (p ++ (value.getD [] ++ rest)) = some (.ok r) := by
  have index : Text.indexOf (p ++ '$' :: q) '$' 0 = p.length := Text.indexOf_first plain
  match q with
  | [] =>
    -- there is no character behind the dollar sign
    have opening : substring (p ++ ['$']) p.length (p.length + 2) =
        throw .indexOutOfBounds := by
      rw [substring, Text.substring, if_neg (by simp)]
      rfl
    rw [expandEnvVars, index] at here
    simp only [opening] at here
    rw [if_pos (by omega)] at here
    cases Option.some.inj here
  | o :: q =>
    by_cases known : ∃ k : Kind, o = k.opening
    · obtain ⟨k, rfl⟩ := known
      by_cases closed : k.closing ∉ p ∧ k.closing ∈ q
      · obtain ⟨before, member⟩ := closed
        have proper : k.closing ∉ component k.closing q := plain_component
        rw [← component_append_behind member, expand_reference plain before proper] at here
        obtain ⟨value, found, next⟩ := bind_eq_ok.mp here
        rw [← component_append_behind member]
        exact .inr ⟨k, _, _, value, rfl, before, proper, Option.some.inj found, next⟩
      · -- the closing delimiter is missing or comes first
        have early : Text.indexOf (p ++ '$' :: k.opening :: q) k.closing 0 < p.length + 2 := by
          by_cases before : k.closing ∈ p
          · rw [Text.indexOf_of_mem (List.mem_append_left _ before)]
            have shorter : (component k.closing (p ++ '$' :: k.opening :: q)).length < p.length :=
              length_component_append_lt before
            omega
          · have missing : k.closing ∉ q := fun member => closed ⟨before, member⟩
            rw [Text.indexOf_eq_neg_one]
            · omega
            · simp [before, missing, k.closing_ne_dollar, k.closing_ne_opening k]
        rw [expand_opening plain] at here
        simp only [substring, Text.substring_of_lt early] at here
        cases Option.some.inj here
    · have other : endIndex (p ++ '$' :: o :: q) ['$', o] = none := by
        rw [endIndex, if_neg, if_neg]
        · rintro same
          exact known ⟨.brace, (List.cons.inj (List.cons.inj same).2).1⟩
        · rintro same
          exact known ⟨.paren, (List.cons.inj (List.cons.inj same).2).1⟩
      have opening : substring (p ++ '$' :: o :: q) p.length (p.length + 2) = pure ['$', o] :=
        substring_eq p ['$', o] q rfl rfl rfl
      rw [expandEnvVars, index] at here
      simp only [opening, pure_bind, other] at here
      rw [if_pos (by omega)] at here
      exact .inl here

/-! ## The whole run -/

/-- What is put in for a variable. -/
def found (E : Environment) (name : List Char) : List Char :=
  match E.lookup name with
  | .ok value => value.getD []
  | .error _ => []

/-- The loop comes to a reference behind these pieces, it ends where its name does, and the
variable can be looked up. -/
def Safe (E : Environment) (front : List Piece) : Piece → Prop
  | .plain c => c ≠ '$'
  | .reference k name => k.closing ∉ name ∧ k.closing ∉ front.flatMap (Piece.expanded E.found) ∧
      ∃ value, E.lookup name = .ok value

theorem found_eq {value : Option (List Char)} (looked : E.lookup name = .ok value) :
    E.found name = value.getD [] := by
  rw [found, looked]

variable {front pieces : List Piece}

theorem safe_map_plain (plain : '$' ∉ rest) :
    EachAfter E.Safe front (rest.map Piece.plain) := by
  induction rest generalizing front with
  | nil => trivial
  | cons c rest ih =>
    obtain ⟨other, plain⟩ := List.ne_and_not_mem_of_not_mem_cons plain
    exact ⟨other.symm, ih plain⟩

/-- References that are safe are replaced one after the other. -/
theorem ends_expandEnvVars (front : List Piece) (safe : EachAfter E.Safe front pieces)
    (quiet : ∀ (k : Kind) (name : List Char), .reference k name ∈ pieces → '$' ∉ E.found name)
    (plain : '$' ∉ front.flatMap (Piece.expanded E.found)) :
    Ends (E.expandEnvVars · (front.flatMap (Piece.expanded E.found) ++ textOf pieces))
      (.ok ((front ++ pieces).flatMap (Piece.expanded E.found))) := by
  induction pieces generalizing front with
  | nil =>
    simp only [textOf_nil, List.append_nil]
    exact Returns.congr (fun fuel => expand_plain plain fuel) (Ends.pure _)
  | cons p pieces ih =>
    obtain ⟨here, later⟩ := safe
    have quiet' (k : Kind) (name : List Char) (member : .reference k name ∈ pieces) :=
      quiet k name (List.mem_cons_of_mem p member)
    have plain' : '$' ∉ p.expanded E.found := by
      cases p with
      | plain c => simpa [Piece.expanded] using here.symm
      | reference k name => exact quiet k name (List.mem_cons_self ..)
    have rest := ih (front ++ [p]) later quiet' (by
      rw [List.flatMap_append, List.flatMap_singleton, List.mem_append, not_or]
      exact ⟨plain, plain'⟩)
    rw [List.append_assoc, List.singleton_append, List.flatMap_append, List.flatMap_singleton,
      List.append_assoc] at rest
    cases p with
    | plain c => exact rest
    | reference k name =>
      obtain ⟨proper, before, value, looked⟩ := here
      rw [textOf_reference]
      refine Returns.congr (fun fuel => ?_) rest
      rw [expand_reference plain before proper, looked, mk_ok_bind, ← found_eq looked]
      rfl

/-- A string for which the loop returns consists of safe pieces. -/
theorem pieces_of_ok (front : List Piece)
    (quiet : ∀ name value, E.lookup name = .ok value → '$' ∉ value.getD [])
    (plain : '$' ∉ front.flatMap (Piece.expanded E.found)) {fuel : Nat}
    (here : E.expandEnvVars fuel (front.flatMap (Piece.expanded E.found) ++ rest) =
      some (.ok r)) :
    ∃ pieces, rest = textOf pieces ∧ EachAfter E.Safe front pieces ∧
      r = (front ++ pieces).flatMap (Piece.expanded E.found) := by
  induction fuel generalizing front rest with
  | zero => cases here
  | succ fuel ih =>
    by_cases more : '$' ∈ rest
    · have split := component_append_behind more
      have plain₁ : '$' ∉ component '$' rest := plain_component
      generalize component '$' rest = w at split plain₁
      generalize behind '$' rest = q at split
      subst split
      rw [← List.append_assoc] at here
      have plain' : '$' ∉ front.flatMap (Piece.expanded E.found) ++ w := by
        rw [List.mem_append, not_or]
        exact ⟨plain, plain₁⟩
      rcases round_of_ok plain' here with nothing | replaced
      · rw [List.append_assoc] at nothing
        exact ih front plain nothing
      · obtain ⟨k, name, rest', value, rfl, before, proper, looked, next⟩ := replaced
        -- the characters up to the reference, and then the reference
        have front' : (front ++ w.map Piece.plain).flatMap (Piece.expanded E.found) =
            front.flatMap (Piece.expanded E.found) ++ w := by
          rw [List.flatMap_append, flatMap_map_plain]
        have front'' : (front ++ w.map Piece.plain ++ [Piece.reference k name]).flatMap
            (Piece.expanded E.found) =
              front.flatMap (Piece.expanded E.found) ++ w ++ value.getD [] := by
          rw [List.flatMap_append, front', List.flatMap_singleton, ← found_eq looked]
          rfl
        have plain'' : '$' ∉ (front ++ w.map Piece.plain ++ [Piece.reference k name]).flatMap
            (Piece.expanded E.found) := by
          rw [front'', List.mem_append, not_or]
          exact ⟨plain', quiet name value looked⟩
        rw [← List.append_assoc, ← front''] at next
        obtain ⟨pieces, rfl, safe, rfl⟩ := ih _ plain'' next
        refine ⟨w.map Piece.plain ++ .reference k name :: pieces, ?_, ?_, ?_⟩
        · rw [textOf_append, textOf_map_plain, textOf_reference]
        · refine eachAfter_append.mpr ⟨safe_map_plain plain₁, ⟨proper, ?_, value, looked⟩, safe⟩
          rwa [front']
        · simp
    · have done : '$' ∉ front.flatMap (Piece.expanded E.found) ++ rest := by
        rw [List.mem_append, not_or]
        exact ⟨plain, more⟩
      rw [expand_plain done] at here
      obtain rfl := Except.ok.inj (Option.some.inj here)
      refine ⟨rest.map Piece.plain, (textOf_map_plain rest).symm, safe_map_plain more, ?_⟩
      rw [List.flatMap_append, flatMap_map_plain]

end Environment

end VRJuggler.Tweek
