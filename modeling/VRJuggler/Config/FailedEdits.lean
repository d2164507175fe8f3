import Mathlib.Data.List.InsertIdx
import VRJuggler.Base.Stateful
import VRJuggler.Config.PropertyCalls

/-!
# Calls that fail

A call that changes properties should do what it is documented to do, or throw and change
nothing. Moving a value below the first one loses it, a value that is `null` is replaced before
the exception, a pointer that is in two places changes in both, and some calls with two equal
indices return although there is nothing to move.
-/
namespace VRJuggler.Config.PropertyCalls

open Stateful
open ConfigUndoManager (configuration)

variable {α : Type}

/-! ## What is documented -/

/-- A value as it is seen, a pointer with its target. -/
inductive Shown (α : Type) where
  | null
  | string (reference : Nat) (value : String)
  | pointer (reference : Nat) (mTarget : Option String)
  | other (object : α)

namespace Objects

def shown (o : Objects α) : Value α → Shown α
  | .null => .null
  | .string reference value => .string reference value
  | .pointer reference => .pointer reference (o.mTarget reference)
  | .other object => .other object

/-- The values of a property as they are seen. -/
def contents (o : Objects α) (elt : Nat) (name : String) : Option (List (Shown α)) :=
  ((o.mProps elt).find name).map (·.map o.shown)

/-- The value that replaces an old one: a pointer stays and gets the target. -/
def replaced (o : Objects α) : Value α → Value α → Shown α
  | .pointer reference, .string _ text => .pointer reference (some text)
  | .pointer reference, .pointer other => .pointer reference (o.mTarget other)
  | _, value => o.shown value

/-- The property has these contents now, and no other one has changed. -/
def Changed (o after : Objects α) (elt : Nat) (name : String) (list : List (Shown α)) : Prop :=
  after.contents elt name = some list ∧
    ∀ elt' name', (elt', name') ≠ (elt, name) → after.contents elt' name' = o.contents elt' name'

/-- The property has a variable number of values. -/
def Variable (o : Objects α) (elt : Nat) (name : String) : Prop :=
  (o.mDefinition elt).lookup name = some true

/-- A value is moved. -/
def Moved (o after : Objects α) (elt : Nat) (name : String) (oldIndex newIndex : Int) : Prop :=
  o.Variable elt name ∧ ∃ values value, (o.mProps elt).find name = some values ∧
    0 ≤ oldIndex ∧ values[oldIndex.toNat]? = some value ∧ 0 ≤ newIndex ∧
    newIndex < values.length ∧ o.Changed after elt name
      (((values.eraseIdx oldIndex.toNat).insertIdx newIndex.toNat value).map o.shown)

end Objects

/-- The calls; `ctx`: through a context. -/
inductive Call (α : Type) where
  | setProperty (elt : Nat) (name : String) (index : Int) (value : Value α) (ctx : Bool)
  | addProperty (elt : Nat) (name : String) (value : Value α) (ctx : Bool)
  | addPropertyAt (elt : Nat) (name : String) (index : Int) (value : Value α) (ctx : Bool)
  | removeProperty (elt : Nat) (name : String) (oldValue : Value α) (ctx : Bool)
  | removePropertyAt (elt : Nat) (name : String) (index : Int) (ctx : Bool)
  | setPropertyValueIndex (elt : Nat) (name : String) (oldIndex newIndex : Int) (ctx : Bool)
  | moveValue (elt : Nat) (name : String) (value : Value α) (newIndex : Int) (ctx : Bool)

section Documented

variable [DecidableEq α] (equalObjects : α → α → Bool)

/-- The call; the index is what it returns. -/
def Call.perform : Call α → Method α (Option Int)
  | .setProperty elt name index value ctx =>
    (if ctx then Method.setPropertyIn equalObjects elt name index value
      else Method.setProperty elt name index value) >>= fun _ => pure none
  | .addProperty elt name value ctx =>
    (if ctx then Method.addPropertyIn elt name value
      else Method.addProperty elt name value) >>= fun index => pure (some index)
  | .addPropertyAt elt name index value ctx =>
    (if ctx then Method.addPropertyAtIn elt name index value
      else Method.addPropertyAt elt name index value) >>= fun index => pure (some index)
  | .removeProperty elt name oldValue ctx =>
    (if ctx then Method.removePropertyIn equalObjects elt name oldValue
      else Method.removeProperty equalObjects elt name oldValue) >>= fun index => pure (some index)
  | .removePropertyAt elt name index ctx =>
    (if ctx then Method.removePropertyAtIn elt name index
      else Method.removePropertyAt elt name index) >>= fun index => pure (some index)
  | .setPropertyValueIndex elt name oldIndex newIndex ctx =>
    (if ctx then Method.setPropertyValueIndexIn elt name oldIndex newIndex
      else Method.setPropertyValueIndex elt name oldIndex newIndex) >>= fun _ => pure none
  | .moveValue elt name value newIndex ctx =>
    (if ctx then Method.moveValueIn elt name value newIndex
      else Method.moveValue elt name value newIndex) >>= fun _ => pure none

/-- What a call that returns is documented to do. -/
def Documented (o : Objects α) (result : Option Int) (after : Objects α) : Call α → Prop
  | .setProperty elt name index value ctx =>
    ∃ values old, (o.mProps elt).find name = some values ∧ 0 ≤ index ∧
      values[index.toNat]? = some old ∧
      if ctx ∧ o.equals equalObjects (o.recorded old) value then after = o
      else o.Changed after elt name ((values.map o.shown).set index.toNat (o.replaced old value))
  | .addProperty elt name value _ =>
    o.Variable elt name ∧ ∃ values, (o.mProps elt).find name = some values ∧
      result = some (values.length : Int) ∧
      o.Changed after elt name (values.map o.shown ++ [o.shown value])
  | .addPropertyAt elt name index value _ =>
    o.Variable elt name ∧ ∃ values, (o.mProps elt).find name = some values ∧ 0 ≤ index ∧
      result = some (min index values.length) ∧
      o.Changed after elt name
        ((values.map o.shown).insertIdx (min index values.length).toNat (o.shown value))
  | .removeProperty elt name oldValue _ =>
    ∃ values, (o.mProps elt).find name = some values ∧
      match o.indexOf equalObjects values oldValue with
      | some index => o.Variable elt name ∧ result = some (index : Int) ∧
        o.Changed after elt name ((values.map o.shown).eraseIdx index)
      | none => result = some (-1) ∧ after = o
  | .removePropertyAt elt name index _ =>
    o.Variable elt name ∧ ∃ values, (o.mProps elt).find name = some values ∧
      0 ≤ index ∧ index < values.length ∧ result = some index ∧
      o.Changed after elt name ((values.map o.shown).eraseIdx index.toNat)
  | .setPropertyValueIndex elt name oldIndex newIndex _ =>
    o.Moved after elt name oldIndex newIndex
  | .moveValue elt name value newIndex _ =>
    ∃ values, (o.mProps elt).find name = some values ∧
      o.Moved after elt name (Method.indexOfObject values value) newIndex

/-- A call that throws changes nothing, and one that returns does what is documented. -/
def Proper (s : State α) (call : Call α) : Prop :=
  Behaves configuration (call.perform equalObjects) s fun result after =>
    Documented equalObjects s.configuration result after call

/-! ## When a call is so -/

/-- The target that the pointer gets from the value. -/
def Objects.newTarget (o : Objects α) : Value α → Option (Option String)
  | .string _ text => some (some text)
  | .pointer other => some (o.mTarget other)
  | _ => none

/-- The pointer is at no other place. -/
def Objects.Alone (o : Objects α) (elt : Nat) (name : String) (index : Int) (cep : Nat) : Prop :=
  ∀ elt' name' values' i, (o.mProps elt').find name' = some values' →
    values'[i]? = some (.pointer cep) → elt' = elt ∧ name' = name ∧ i = index.toNat

/-- Without a context nothing replaces `null`, and a pointer whose target changes is at no other
place. -/
def Objects.Settable (o : Objects α) (elt : Nat) (name : String) (index : Int)
    (value : Value α) (ctx : Bool) : Value α → Prop
  | .null => ctx = true ∨ value = .null
  | .pointer cep => (ctx = true ∧ o.equals equalObjects (o.recorded (.pointer cep)) value = true) ∨
    ∀ target, o.newTarget value = some target → target = o.mTarget cep ∨ o.Alone elt name index cep
  | _ => True

/-- A value is not moved below the first one, and with equal indices there is a value to move,
unless the range is checked. -/
def Objects.Movable (o : Objects α) (elt : Nat) (name : String) (oldIndex newIndex : Int)
    (ctx : Bool) : Prop :=
  (o.Variable elt name → ∀ values, (o.mProps elt).find name = some values → 0 ≤ oldIndex →
    oldIndex < values.length → 0 ≤ newIndex) ∧
  (oldIndex = newIndex →
    if ctx then o.Variable elt name ∧ ∃ values, (o.mProps elt).find name = some values ∧
      0 ≤ oldIndex ∧ oldIndex < values.length
    else o.Variable elt name → ∀ values, (o.mProps elt).find name = some values →
      oldIndex < values.length → 0 ≤ oldIndex)

def Safe (o : Objects α) : Call α → Prop
  | .setProperty elt name index value ctx =>
    ∀ values old, (o.mProps elt).find name = some values → 0 ≤ index →
      values[index.toNat]? = some old → o.Settable equalObjects elt name index value ctx old
  | .setPropertyValueIndex elt name oldIndex newIndex ctx =>
    o.Movable elt name oldIndex newIndex ctx
  | .moveValue elt name value newIndex ctx =>
    ∀ values, (o.mProps elt).find name = some values →
      o.Movable elt name (Method.indexOfObject values value) newIndex ctx
  | _ => True

end Documented

/-! ## Parts of the calls -/

/-- The state with other objects. -/
def holding (s : State α) (o : Objects α) : State α := { s with configuration := o }

theorem configuration_addEdit (s : State α) (anEdit : Edit α) :
    (s.addEdit anEdit).configuration = s.configuration := by
  unfold ConfigUndoManager.addEdit
  split
  · rfl
  · rfl

theorem leaves_postEdit (anEdit : Edit α) (s : State α) :
    Leaves configuration (Method.postEdit anEdit) s ⟨⟩ s.configuration :=
  ⟨_, rfl, configuration_addEdit s anEdit⟩

section Parts

variable {s : State α} {elt : Nat} {name : String} {index : Int} {values : List (Value α)}

theorem run_getPropertyValues (here : (s.configuration.mProps elt).find name = some values) :
    (Method.getPropertyValues elt name).run s = .ok values s := by
  simp [Method.getPropertyValues, here]

theorem refuses_getPropertyValues (none' : (s.configuration.mProps elt).find name = none) :
    Refuses (Method.getPropertyValues elt name) s := by
  refine ⟨.illegalArgument ("Invalid property: " ++ name), ?_⟩
  simp only [Method.getPropertyValues, EStateM.run_bind, EStateM.run_get, none']
  rfl

theorem run_elementAt {value : Value α} (low : 0 ≤ index)
    (here : values[index.toNat]? = some value) :
    (Method.elementAt values index).run s = .ok value s := by
  simp [Method.elementAt, low, here]

theorem refuses_elementAt (none' : 0 ≤ index → values[index.toNat]? = none) :
    Refuses (Method.elementAt values index) s := by
  refine ⟨.indexOutOfBounds, ?_⟩
  unfold Method.elementAt
  split
  · next low =>
    rw [none' low]
    rfl
  · rfl

theorem run_isVariable {mVariable : Bool}
    (here : (s.configuration.mDefinition elt).lookup name = some mVariable) :
    (Method.isVariable elt name).run s = .ok mVariable s := by
  simp [Method.isVariable, here]

theorem refuses_isVariable (none' : (s.configuration.mDefinition elt).lookup name = none) :
    Refuses (Method.isVariable elt name) s := by
  refine ⟨.illegalArgument ("Invalid property definition: " ++ name), ?_⟩
  simp only [Method.isVariable, EStateM.run_bind, EStateM.run_get, none']
  rfl

theorem leaves_setValues :
    Leaves configuration (Method.setValues elt name values) s ⟨⟩
      (s.configuration.put elt name values) :=
  ⟨_, rfl, rfl⟩

/-! ## The calls -/

variable (equalObjects : α → α → Bool)

theorem addPropertyAt_outcome (s : State α) (elt : Nat) (name : String) (index : Int)
    (value : Value α) :
    Refuses (Method.addPropertyAt elt name index value) s ∨
      s.configuration.Variable elt name ∧ ∃ values,
        (s.configuration.mProps elt).find name = some values ∧ 0 ≤ index ∧
        Leaves configuration (Method.addPropertyAt elt name index value) s (min index values.length)
          (s.configuration.put elt name
            (values.insertIdx (min index values.length).toNat value)) := by
  unfold Method.addPropertyAt
  cases here : (s.configuration.mProps elt).find name with
  | none => exact .inl (refuses_getPropertyValues here).bind
  | some values =>
    have first := run_getPropertyValues here
    cases defined : (s.configuration.mDefinition elt).lookup name with
    | none => exact .inl (.of_ok first (refuses_isVariable defined).bind)
    | some mVariable =>
      have second := run_isVariable defined
      cases mVariable with
      | false => exact .inl (.of_ok first (.of_ok second (refuses_throw _ s)))
      | true =>
        by_cases last : values.length ≤ index
        · -- appended
          have place : min index values.length = values.length := min_eq_right last
          refine .inr ⟨defined, values, rfl, by omega, .of_ok first (.of_ok second ?_)⟩
          rw [if_pos rfl, if_pos last, place, Int.toNat_natCast, List.insertIdx_length_self]
          refine leaves_setValues.bind fun t same => ?_
          exact leaves_pure_of_eq _ same
        · have place : min index values.length = index := min_eq_left (by omega)
          by_cases low : 0 ≤ index
          · refine .inr ⟨defined, values, rfl, low, .of_ok first (.of_ok second ?_)⟩
            rw [if_pos rfl, if_neg last, place, Method.insertAt, if_pos ⟨low, by omega⟩]
            refine leaves_setValues.bind fun t same => ?_
            exact leaves_pure_of_eq _ same
          · refine .inl (.of_ok first (.of_ok second ?_))
            rw [if_pos rfl, if_neg last, Method.insertAt, if_neg (by omega)]
            exact (refuses_throw _ s).bind

theorem removePropertyAt_outcome (s : State α) (elt : Nat) (name : String) (index : Int) :
    Refuses (Method.removePropertyAt elt name index) s ∨
      s.configuration.Variable elt name ∧ ∃ values,
        (s.configuration.mProps elt).find name = some values ∧ 0 ≤ index ∧
        index < values.length ∧
        Leaves configuration (Method.removePropertyAt elt name index) s index
          (s.configuration.put elt name (values.eraseIdx index.toNat)) := by
  unfold Method.removePropertyAt
  cases here : (s.configuration.mProps elt).find name with
  | none => exact .inl (refuses_getPropertyValues here).bind
  | some values =>
    have first := run_getPropertyValues here
    cases defined : (s.configuration.mDefinition elt).lookup name with
    | none => exact .inl (.of_ok first (refuses_isVariable defined).bind)
    | some mVariable =>
      have second := run_isVariable defined
      cases mVariable with
      | false => exact .inl (.of_ok first (.of_ok second (refuses_throw _ s)))
      | true =>
        by_cases inside : 0 ≤ index ∧ index < values.length
        · obtain ⟨low, high⟩ := inside
          have there : values[index.toNat]? = some values[index.toNat] :=
            List.getElem?_eq_getElem (by omega)
          refine .inr ⟨defined, values, rfl, low, high, .of_ok first (.of_ok second ?_)⟩
          rw [if_pos rfl, Method.removeAt]
          have removed : Leaves configuration (Method.removeAt elt name values index) s
              values[index.toNat] (s.configuration.put elt name (values.eraseIdx index.toNat)) := by
            refine .of_ok (run_elementAt low there) (leaves_setValues.bind fun t same => ?_)
            exact leaves_pure_of_eq _ same
          refine removed.bind fun t same => ?_
          exact leaves_pure_of_eq _ same
        · refine .inl (.of_ok first (.of_ok second ?_))
          rw [if_pos rfl, Method.removeAt]
          refine Refuses.bind (Refuses.bind (refuses_elementAt fun low => ?_))
          exact List.getElem?_eq_none (by omega)

/-- What a move comes to: only below the first value it throws after the value is gone. -/
inductive MoveOutcome (s : State α) (elt : Nat) (name : String) (oldIndex newIndex : Int) :
    Prop where
  | refused (refuses : Refuses (Method.setPropertyValueIndex elt name oldIndex newIndex) s)
    (kept : s.configuration.Variable elt name → ∀ values,
      (s.configuration.mProps elt).find name = some values →
      ¬ (oldIndex < values.length ∧ newIndex < values.length ∧ 0 ≤ oldIndex))
    (unequal : s.configuration.Variable elt name → ∀ values,
      (s.configuration.mProps elt).find name = some values → oldIndex = newIndex →
      ¬ oldIndex < values.length)
  | same (leaves : Leaves configuration (Method.setPropertyValueIndex elt name oldIndex newIndex) s
      ⟨⟩ s.configuration) (defined : s.configuration.Variable elt name) {values : List (Value α)}
    (here : (s.configuration.mProps elt).find name = some values) (equal : oldIndex = newIndex)
    (high : oldIndex < values.length)
  | lost (defined : s.configuration.Variable elt name) {values : List (Value α)} {e : Thrown}
    {t : State α} (here : (s.configuration.mProps elt).find name = some values)
    (low : 0 ≤ oldIndex) (high : oldIndex < values.length) (below : newIndex < 0)
    (thrown : (Method.setPropertyValueIndex elt name oldIndex newIndex).run s = .error e t)
    (left : t.configuration = s.configuration.put elt name (values.eraseIdx oldIndex.toNat))
  | moved (defined : s.configuration.Variable elt name) {values : List (Value α)}
    {value : Value α} (here : (s.configuration.mProps elt).find name = some values)
    (low : 0 ≤ oldIndex) (there : values[oldIndex.toNat]? = some value)
    (unequal : oldIndex ≠ newIndex) (low' : 0 ≤ newIndex) (high' : newIndex < values.length)
    (leaves : Leaves configuration (Method.setPropertyValueIndex elt name oldIndex newIndex) s ⟨⟩
      ((s.configuration.put elt name (values.eraseIdx oldIndex.toNat)).put elt name
        ((values.eraseIdx oldIndex.toNat).insertIdx newIndex.toNat value)))

@[simp] theorem find_put_self (o : Objects α) (elt : Nat) (name : String)
    (values : List (Value α)) : ((o.put elt name values).mProps elt).find name = some values := by
  simp [Objects.put]

theorem find_put_of_ne (o : Objects α) {elt elt' : Nat} {name name' : String}
    (values : List (Value α)) (other : (elt', name') ≠ (elt, name)) :
    ((o.put elt name values).mProps elt').find name' = (o.mProps elt').find name' := by
  by_cases same : elt' = elt
  · subst same
    have different : name' ≠ name := fun equal => other (by rw [equal])
    simp [Objects.put, SortedMap.find_insert_of_ne _ _ different]
  · simp [Objects.put, Function.update_of_ne same]

theorem removeAt_outcome (s : State α) (elt : Nat) (name : String) {values : List (Value α)}
    {index : Int} {value : Value α} (low : 0 ≤ index)
    (there : values[index.toNat]? = some value) :
    ∃ t, (Method.removeAt elt name values index).run s = .ok value t ∧
      t.configuration = s.configuration.put elt name (values.eraseIdx index.toNat) := by
  refine ⟨holding s (s.configuration.put elt name _), ?_, rfl⟩
  rw [Method.removeAt, run_bind_ok (run_elementAt low there)]
  rfl

/-- Inside the list the value is removed first, and the new index is used after that. -/
theorem moveOutcome_inside {values : List (Value α)} {oldIndex newIndex : Int}
    (defined : (s.configuration.mDefinition elt).lookup name = some true)
    (here : (s.configuration.mProps elt).find name = some values) (low : 0 ≤ oldIndex)
    (high : oldIndex < values.length) (high' : newIndex < values.length)
    (unequal : oldIndex ≠ newIndex) : MoveOutcome s elt name oldIndex newIndex := by
  have there : values[oldIndex.toNat]? = some values[oldIndex.toNat] :=
    List.getElem?_eq_getElem (by omega)
  have range : ¬ (values.length ≤ oldIndex ∨ values.length ≤ newIndex) := by omega
  obtain ⟨t, removed, left⟩ := removeAt_outcome s elt name low there
  have again : (Method.getPropertyValues elt name).run t =
      .ok (values.eraseIdx oldIndex.toNat) t := by
    apply run_getPropertyValues
    rw [left, find_put_self]
  have size : (values.eraseIdx oldIndex.toNat).length + 1 = values.length := by
    rw [List.length_eraseIdx_of_lt (by omega)]
    omega
  have whole : (Method.setPropertyValueIndex elt name oldIndex newIndex).run s =
      (Method.insertAt elt name (values.eraseIdx oldIndex.toNat) newIndex
        values[oldIndex.toNat]).run t := by
    rw [Method.setPropertyValueIndex, run_bind_ok (run_isVariable defined), if_pos rfl,
      run_bind_ok (run_getPropertyValues here), if_neg range, if_pos unequal,
      run_bind_ok removed, run_bind_ok again]
  by_cases low' : 0 ≤ newIndex
  · have added : Leaves configuration (Method.insertAt elt name
        (values.eraseIdx oldIndex.toNat) newIndex values[oldIndex.toNat]) t ⟨⟩
        (t.configuration.put elt name
          ((values.eraseIdx oldIndex.toNat).insertIdx newIndex.toNat
            values[oldIndex.toNat])) := by
      rw [Method.insertAt, if_pos ⟨low', by omega⟩]
      exact leaves_setValues
    obtain ⟨u, added, after⟩ := added
    rw [left] at after
    exact .moved defined here low there unequal low' high' ⟨u, whole.trans added, after⟩
  · -- with a negative new index the value is not put back
    refine .lost (e := .indexOutOfBounds) defined here low high (by omega) ?_ left
    rw [whole, Method.insertAt, if_neg (by omega)]
    rfl

/-- The property has values, and one more may be added. -/
theorem moveOutcome_of_values {values : List (Value α)}
    (defined : (s.configuration.mDefinition elt).lookup name = some true)
    (here : (s.configuration.mProps elt).find name = some values) (oldIndex newIndex : Int) :
    MoveOutcome s elt name oldIndex newIndex := by
  have first := run_isVariable defined
  have second := run_getPropertyValues here
  -- both indices are compared with the length only, a negative one passes
  by_cases range : values.length ≤ oldIndex ∨ values.length ≤ newIndex
  · refine .refused (.of_ok first ?_) (fun _ values' found => ?_) (fun _ values' found equal => ?_)
    · rw [if_pos rfl]
      refine .of_ok second ?_
      rw [if_pos range]
      exact refuses_throw _ s
    · rw [here] at found
      cases found
      omega
    · rw [here] at found
      cases found
      omega
  · by_cases equal : oldIndex = newIndex
    · refine .same (.of_ok first ?_) defined here equal (by omega)
      rw [if_pos rfl]
      refine .of_ok second ?_
      rw [if_neg range, if_neg (not_not.mpr equal)]
      exact leaves_pure _ s
    · by_cases low : 0 ≤ oldIndex
      · exact moveOutcome_inside defined here low (by omega) (by omega) equal
      · refine .refused (.of_ok first ?_) (fun _ values' found => ?_)
          (fun _ values' found equal' => absurd equal' equal)
        · rw [if_pos rfl]
          refine .of_ok second ?_
          rw [if_neg range, if_pos equal]
          exact Refuses.bind (Refuses.bind (refuses_elementAt fun low' => absurd low' low))
        · omega

theorem setPropertyValueIndex_outcome (s : State α) (elt : Nat) (name : String)
    (oldIndex newIndex : Int) : MoveOutcome s elt name oldIndex newIndex := by
  have fixed (refuses : Refuses (Method.setPropertyValueIndex elt name oldIndex newIndex) s)
      (absent : ¬ s.configuration.Variable elt name) : MoveOutcome s elt name oldIndex newIndex :=
    .refused refuses (fun grows => absurd grows absent) fun grows => absurd grows absent
  -- the checks, in the order in which the method makes them
  cases defined : (s.configuration.mDefinition elt).lookup name with
  | none =>
    apply fixed (refuses_isVariable defined).bind
    rw [Objects.Variable, defined]
    simp
  | some mVariable =>
    have first := run_isVariable defined
    cases mVariable with
    | false =>
      apply fixed (.of_ok first (refuses_throw _ s))
      rw [Objects.Variable, defined]
      simp
    | true =>
      cases here : (s.configuration.mProps elt).find name with
      | none =>
        refine .refused (.of_ok first ?_) (fun _ values found => ?_) (fun _ values found => ?_)
        · rw [if_pos rfl]
          exact (refuses_getPropertyValues here).bind
        · rw [here] at found
          cases found
        · rw [here] at found
          cases found
      | some values => exact moveOutcome_of_values defined here oldIndex newIndex

/-! ## What is seen -/

theorem shown_put (o : Objects α) (elt : Nat) (name : String) (values : List (Value α)) :
    (o.put elt name values).shown = o.shown := by
  funext value
  cases value with
  | null => rfl
  | string reference value => rfl
  | pointer reference => rfl
  | other object => rfl

theorem contents_put_self (o : Objects α) (elt : Nat) (name : String) (values : List (Value α)) :
    (o.put elt name values).contents elt name = some (values.map o.shown) := by
  simp [Objects.contents, shown_put]

theorem contents_put_of_ne (o : Objects α) {elt elt' : Nat} {name name' : String}
    (values : List (Value α)) (other : (elt', name') ≠ (elt, name)) :
    (o.put elt name values).contents elt' name' = o.contents elt' name' := by
  simp [Objects.contents, shown_put, find_put_of_ne o values other]

theorem changed_put (o : Objects α) (elt : Nat) (name : String) (values : List (Value α)) :
    o.Changed (o.put elt name values) elt name (values.map o.shown) :=
  ⟨contents_put_self o elt name values, fun _ _ other => contents_put_of_ne o values other⟩

theorem changed_put_put (o : Objects α) (elt : Nat) (name : String)
    (first values : List (Value α)) :
    o.Changed ((o.put elt name first).put elt name values) elt name (values.map o.shown) := by
  refine ⟨?_, fun elt' name' other => ?_⟩
  · rw [contents_put_self, shown_put]
  · rw [contents_put_of_ne _ values other, contents_put_of_ne o first other]

theorem shown_retarget_self (o : Objects α) (cep : Nat) (target : Option String) :
    (o.retarget cep target).shown (.pointer cep) = .pointer cep target := by
  simp [Objects.shown, Objects.retarget]

theorem shown_retarget_of_ne (o : Objects α) {cep : Nat} (target : Option String)
    {value : Value α} (other : value ≠ .pointer cep) :
    (o.retarget cep target).shown value = o.shown value := by
  cases value with
  | null => rfl
  | string reference value => rfl
  | pointer reference =>
    have different : reference ≠ cep := fun same => other (by rw [same])
    simp [Objects.shown, Objects.retarget, different]
  | other object => rfl

section Retarget

variable {o : Objects α} {elt : Nat} {name : String} {index : Int} {cep : Nat}
  {values : List (Value α)} {target : Option String}

/-- A second place of the same pointer would show the new target, too. -/
theorem alone_of_changed (here : (o.mProps elt).find name = some values)
    (changed : o.Changed (o.retarget cep target) elt name
      ((values.map o.shown).set index.toNat (.pointer cep target)))
    (same : target ≠ o.mTarget cep) : o.Alone elt name index cep := by
  obtain ⟨this, others⟩ := changed
  intro elt' name' values' i found place
  have differs : (Shown.pointer cep target : Shown α) ≠ .pointer cep (o.mTarget cep) := by
    simpa using same
  -- retargeting a pointer changes no list of values
  have lists (elt' : Nat) (name' : String) :
      ((o.retarget cep target).mProps elt').find name' = (o.mProps elt').find name' := rfl
  by_cases property : (elt', name') = (elt, name)
  · obtain ⟨rfl, rfl⟩ := Prod.mk.inj property
    refine ⟨rfl, rfl, ?_⟩
    by_contra different
    rw [here] at found
    cases found
    simp only [Objects.contents, lists, here, Option.map_some, Option.some.injEq] at this
    have at' := congrArg (·[i]?) this
    simp only [List.getElem?_map, place, List.getElem?_set_ne (Ne.symm different),
      Option.map_some, Option.some.injEq, shown_retarget_self] at at'
    exact differs at'
  · have at' := others elt' name' property
    simp only [Objects.contents, lists, found, Option.map_some, Option.some.injEq] at at'
    have at' := congrArg (·[i]?) at'
    simp only [List.getElem?_map, place, Option.map_some, Option.some.injEq,
      shown_retarget_self] at at'
    exact absurd at' differs

/-- Elsewhere the pointer is not, or it has the target already. -/
theorem shown_retarget_elsewhere (right : target = o.mTarget cep ∨ o.Alone elt name index cep)
    {elt' : Nat} {name' : String} {values' : List (Value α)} {i : Nat} {value : Value α}
    (found : (o.mProps elt').find name' = some values') (place : values'[i]? = some value)
    (other : ¬ (elt' = elt ∧ name' = name ∧ i = index.toNat)) :
    (o.retarget cep target).shown value = o.shown value := by
  by_cases pointer : value = .pointer cep
  · subst pointer
    rcases right with same | alone
    · rw [shown_retarget_self, same]
      rfl
    · exact absurd (alone elt' name' values' i found place) other
  · exact shown_retarget_of_ne o target pointer

theorem changed_of_alone (here : (o.mProps elt).find name = some values)
    (there : values[index.toNat]? = some (.pointer cep))
    (right : target = o.mTarget cep ∨ o.Alone elt name index cep) :
    o.Changed (o.retarget cep target) elt name
      ((values.map o.shown).set index.toNat (.pointer cep target)) := by
  have lists (elt' : Nat) (name' : String) :
      ((o.retarget cep target).mProps elt').find name' = (o.mProps elt').find name' := rfl
  refine ⟨?_, fun elt' name' property => ?_⟩
  · simp only [Objects.contents, lists, here, Option.map_some, Option.some.injEq]
    apply List.ext_getElem?
    intro i
    rw [List.getElem?_map]
    by_cases this : i = index.toNat
    · have inside : index.toNat < (values.map o.shown).length := by
        rw [List.length_map]
        exact (List.getElem?_eq_some_iff.mp there).1
      rw [this, there, List.getElem?_set_self inside, Option.map_some, shown_retarget_self]
    · rw [List.getElem?_set_ne (Ne.symm this), List.getElem?_map]
      cases place : values[i]? with
      | none => rfl
      | some value =>
        rw [Option.map_some, Option.map_some,
          shown_retarget_elsewhere right here place fun same => this same.2.2]
  · rw [Objects.contents, Objects.contents, lists]
    cases found : (o.mProps elt').find name' with
    | none => rfl
    | some values' =>
      rw [Option.map_some, Option.map_some]
      congr 1
      apply List.map_congr_left
      intro value member
      obtain ⟨i, place⟩ := List.mem_iff_getElem?.mp member
      exact shown_retarget_elsewhere right found place fun same =>
        property (by rw [same.1, same.2.1])

/-- A pointer gets a target just as it should when it had that target, or when it is at no other
place. -/
theorem changed_retarget_iff (here : (o.mProps elt).find name = some values)
    (there : values[index.toNat]? = some (.pointer cep)) :
    o.Changed (o.retarget cep target) elt name
        ((values.map o.shown).set index.toNat (.pointer cep target)) ↔
      target = o.mTarget cep ∨ o.Alone elt name index cep := by
  refine ⟨fun changed => ?_, changed_of_alone here there⟩
  by_cases same : target = o.mTarget cep
  · exact .inl same
  · exact .inr (alone_of_changed here changed same)

end Retarget

/-! ## Values that are set -/

section Set

variable {s : State α} {elt : Nat} {name : String} {index : Int} {values : List (Value α)}
  {old value : Value α}

/-- The listeners are told when the old value is not `null`. -/
theorem run_firePropertyValueChanged (here : (s.configuration.mProps elt).find name = some values)
    (low : 0 ≤ index) (there : values[index.toNat]? = some value) (some' : old.isNull = false) :
    (Method.firePropertyValueChanged elt name index old).run s = .ok ⟨⟩ s := by
  rw [Method.firePropertyValueChanged, run_bind_ok (run_getPropertyValues here),
    run_bind_ok (run_elementAt low there), some']
  rfl

theorem isNull_of_ne (some' : old ≠ .null) : old.isNull = false := by
  cases old with
  | null => exact absurd rfl some'
  | string reference value => rfl
  | pointer reference => rfl
  | other object => rfl

theorem isNull_recorded (o : Objects α) (some' : old ≠ .null) :
    (o.recorded old).isNull = false := by
  cases old with
  | null => exact absurd rfl some'
  | string reference value => rfl
  | pointer reference => rfl
  | other object => rfl

variable (here : (s.configuration.mProps elt).find name = some values) (low : 0 ≤ index)

include here low in
theorem leaves_setProperty_pointer {cep : Nat} {target : Option String}
    (there : values[index.toNat]? = some (.pointer cep))
    (new : s.configuration.newTarget value = some target) :
    Leaves configuration (Method.setProperty elt name index value) s ⟨⟩
      (s.configuration.retarget cep target) := by
  let t := holding s (s.configuration.retarget cep target)
  have fired : (Method.firePropertyValueChanged elt name index
      (s.configuration.recorded (.pointer cep))).run t = .ok ⟨⟩ t :=
    run_firePropertyValueChanged (s := t) here low there (isNull_recorded _ (by simp))
  refine ⟨t, ?_, rfl⟩
  rw [Method.setProperty, run_bind_ok (run_getPropertyValues here),
    run_bind_ok (run_elementAt low there)]
  cases value with
  | null => cases new
  | string reference text =>
    cases new
    exact fired
  | pointer reference =>
    cases new
    exact fired
  | other object => cases new

include here low in
theorem refuses_setProperty_pointer {cep : Nat}
    (there : values[index.toNat]? = some (.pointer cep))
    (new : s.configuration.newTarget value = none) :
    Refuses (Method.setProperty elt name index value) s := by
  refine .of_ok (run_getPropertyValues here) (.of_ok (run_elementAt low there) ?_)
  cases value with
  | null => exact ⟨.nullPointer, rfl⟩
  | string reference text => cases new
  | pointer reference => cases new
  | other object => exact ⟨.classCast, rfl⟩

variable (value) in
/-- The place that was set has the value. -/
theorem getElem?_set_of_some {i : Nat} (there : values[i]? = some old) :
    (values.set i value)[i]? = some value :=
  List.getElem?_set_self (List.getElem?_eq_some_iff.mp there).1

include here low in
theorem leaves_setProperty (there : values[index.toNat]? = some old) (some' : old ≠ .null)
    (noPointer : ∀ cep, old ≠ .pointer cep) :
    Leaves configuration (Method.setProperty elt name index value) s ⟨⟩
      (s.configuration.put elt name (values.set index.toNat value)) := by
  let t := holding s (s.configuration.put elt name (values.set index.toNat value))
  have fired : (Method.firePropertyValueChanged elt name index old).run t = .ok ⟨⟩ t :=
    run_firePropertyValueChanged (s := t) (find_put_self ..) low (getElem?_set_of_some _ there)
      (isNull_of_ne some')
  refine ⟨t, ?_, rfl⟩
  rw [Method.setProperty, run_bind_ok (run_getPropertyValues here),
    run_bind_ok (run_elementAt low there)]
  cases old with
  | null => exact absurd rfl some'
  | string reference text => exact fired
  | pointer cep => exact absurd rfl (noPointer cep)
  | other object => exact fired

include here low in
/-- The exception comes after the value was set. -/
theorem setProperty_null (there : values[index.toNat]? = some .null) :
    (Method.setProperty elt name index value).run s = .error .nullPointer
      (holding s (s.configuration.put elt name (values.set index.toNat value))) := by
  let t := holding s (s.configuration.put elt name (values.set index.toNat value))
  have second : (Method.getPropertyValues elt name).run t =
      .ok (values.set index.toNat value) t := run_getPropertyValues (find_put_self ..)
  have third : (Method.elementAt (values.set index.toNat value) index).run t = .ok value t :=
    run_elementAt low (getElem?_set_of_some _ there)
  have thrown : (Method.firePropertyValueChanged elt name index .null).run t =
      .error .nullPointer t := by
    rw [Method.firePropertyValueChanged, run_bind_ok second, run_bind_ok third]
    rfl
  rw [Method.setProperty, run_bind_ok (run_getPropertyValues here),
    run_bind_ok (run_elementAt low there)]
  exact thrown

end Set

theorem put_of_find {o : Objects α} {elt : Nat} {name : String} {values : List (Value α)}
    (here : (o.mProps elt).find name = some values) : o.put elt name values = o := by
  simp [Objects.put, SortedMap.insert_of_find here]

/-! ## Setting behaves -/

section Setting

variable {s : State α} {elt : Nat} {name : String} {index : Int} {values : List (Value α)}
  {old value : Value α} (here : (s.configuration.mProps elt).find name = some values)
  (low : 0 ≤ index) (there : values[index.toNat]? = some old)

/-- What is documented for a value that is set. -/
def Replaces (o : Objects α) (elt : Nat) (name : String) (index : Int)
    (values : List (Value α)) (old value : Value α) (after : Objects α) : Prop :=
  o.Changed after elt name ((values.map o.shown).set index.toNat (o.replaced old value))

variable (value) in
include here low there in
/-- A value of another kind is replaced in the list. -/
theorem replaces_setProperty (some' : old ≠ .null) (noPointer : ∀ cep, old ≠ .pointer cep) :
    ∃ after, Leaves configuration (Method.setProperty elt name index value) s ⟨⟩ after ∧
      Replaces s.configuration elt name index values old value after := by
  refine ⟨_, leaves_setProperty here low there some' noPointer, ?_⟩
  have same : s.configuration.replaced old value = s.configuration.shown value := by
    cases old with
    | null => rfl
    | string reference text => rfl
    | pointer cep => exact absurd rfl (noPointer cep)
    | other object => rfl
  rw [Replaces, same, ← List.map_set]
  exact changed_put ..

theorem replaced_pointer (o : Objects α) {cep : Nat} {target : Option String}
    (new : o.newTarget value = some target) :
    o.replaced (.pointer cep) value = .pointer cep target := by
  cases value with
  | null => cases new
  | string reference text =>
    cases new
    rfl
  | pointer reference =>
    cases new
    rfl
  | other object => cases new

include here low there in
/-- The old value is not `null`, and the new one is set. -/
theorem behaves_set_iff {x : Method α PUnit} {ctx : Bool} (some' : old ≠ .null)
    (differs : ¬ (ctx = true ∧
      s.configuration.equals equalObjects (s.configuration.recorded old) value = true))
    (refuses : Refuses (Method.setProperty elt name index value) s → Refuses x s)
    (leaves : ∀ after, Leaves configuration (Method.setProperty elt name index value) s ⟨⟩ after →
      Leaves configuration x s ⟨⟩ after) :
    Behaves configuration x s (fun _ after =>
        Replaces s.configuration elt name index values old value after) ↔
      s.configuration.Settable equalObjects elt name index value ctx old := by
  cases old with
  | null => exact absurd rfl some'
  | pointer cep =>
    cases new : s.configuration.newTarget value with
    | none =>
      have refused := refuses (refuses_setProperty_pointer here low there new)
      simp [behaves_of_refuses refused, Objects.Settable, new]
    | some target =>
      have left := leaves _ (leaves_setProperty_pointer here low there new)
      rw [behaves_iff_of_leaves left, Replaces, replaced_pointer _ new,
        changed_retarget_iff here there]
      simp [Objects.Settable, new, differs]
  | string reference text =>
    obtain ⟨after, left, replaces⟩ := replaces_setProperty value here low there some'
      fun cep => by simp
    simp [behaves_iff_of_leaves (leaves after left), replaces, Objects.Settable]
  | other object =>
    obtain ⟨after, left, replaces⟩ := replaces_setProperty value here low there some'
      fun cep => by simp
    simp [behaves_iff_of_leaves (leaves after left), replaces, Objects.Settable]

include here low there in
theorem behaves_setProperty_iff :
    Behaves configuration (Method.setProperty elt name index value) s (fun _ after =>
        Replaces s.configuration elt name index values old value after) ↔
      s.configuration.Settable equalObjects elt name index value false old := by
  by_cases null : old = .null
  · subst null
    rw [behaves_iff_of_error (setProperty_null here low there)]
    simp only [Objects.Settable, Bool.false_eq_true, false_or]
    constructor
    · intro same
      have found : (s.configuration.mProps elt).find name =
          some (values.set index.toNat value) := by
        rw [← same]
        exact find_put_self ..
      rw [here] at found
      have at' := getElem?_set_of_some value there
      rw [← Option.some.inj found, there] at at'
      exact (Option.some.inj at').symm
    · rintro rfl
      have unchanged : values.set index.toNat .null = values := by
        obtain ⟨inside, same⟩ := List.getElem?_eq_some_iff.mp there
        rw [← same]
        exact List.set_getElem_self inside
      rw [unchanged, put_of_find here]
      rfl
  · exact behaves_set_iff equalObjects here low there null (by simp) (fun refuses => refuses)
      fun after left => left

include here low there in
theorem behaves_setPropertyIn_iff :
    Behaves configuration (Method.setPropertyIn equalObjects elt name index value) s
        (fun _ after => if s.configuration.equals equalObjects (s.configuration.recorded old) value
          then after = s.configuration
          else Replaces s.configuration elt name index values old value after) ↔
      s.configuration.Settable equalObjects elt name index value true old := by
  unfold Method.setPropertyIn
  rw [behaves_bind_of_ok (run_getPropertyValues here), behaves_bind_of_ok (run_elementAt low there),
    behaves_bind_of_ok (EStateM.run_get s)]
  by_cases null : old = .null
  · subst null
    simp only [Objects.Settable, true_or, iff_true]
    exact behaves_of_refuses (refuses_throw Thrown.nullPointer s)
  · rw [if_neg (by simp [isNull_recorded _ null])]
    by_cases equal : s.configuration.equals equalObjects (s.configuration.recorded old) value = true
    · simp only [if_pos equal]
      rw [behaves_iff_of_leaves (leaves_pure _ s)]
      cases old with
      | null => exact absurd rfl null
      | string reference text => simp [Objects.Settable]
      | pointer cep => simp [Objects.Settable, equal]
      | other object => simp [Objects.Settable]
    · simp only [if_neg equal]
      refine behaves_set_iff equalObjects here low there null (by simp [equal])
        (fun refuses => refuses.bind) fun after left => left.bind fun t same => ?_
      rw [← same]
      exact leaves_postEdit _ t

end Setting

/-! ## Moving behaves -/

section Moving

variable {s : State α} {elt : Nat} {name : String} {oldIndex newIndex : Int}

/-- A move that has come to its end did what it should. -/
theorem moved_of_outcome {values : List (Value α)} {value : Value α}
    (defined : s.configuration.Variable elt name)
    (here : (s.configuration.mProps elt).find name = some values) (low : 0 ≤ oldIndex)
    (there : values[oldIndex.toNat]? = some value) (low' : 0 ≤ newIndex)
    (high' : newIndex < values.length) :
    s.configuration.Moved ((s.configuration.put elt name (values.eraseIdx oldIndex.toNat)).put elt
      name ((values.eraseIdx oldIndex.toNat).insertIdx newIndex.toNat value)) elt name oldIndex
      newIndex :=
  ⟨defined, values, value, here, low, there, low', high', changed_put_put ..⟩

/-- With equal indices nothing changes. -/
theorem moved_self_iff {values : List (Value α)} (defined : s.configuration.Variable elt name)
    (here : (s.configuration.mProps elt).find name = some values)
    (high : oldIndex < values.length) :
    s.configuration.Moved s.configuration elt name oldIndex oldIndex ↔ 0 ≤ oldIndex := by
  constructor
  · rintro ⟨-, values', value, -, low, -⟩
    exact low
  · intro low
    have inside : oldIndex.toNat < values.length := by omega
    refine ⟨defined, values, values[oldIndex.toNat], here, low, List.getElem?_eq_getElem inside,
      low, high, ?_, fun _ _ _ => rfl⟩
    rw [Objects.contents, here, List.insertIdx_eraseIdx_getElem inside, Option.map_some]

theorem behaves_setPropertyValueIndex_iff :
    Behaves configuration (Method.setPropertyValueIndex elt name oldIndex newIndex) s
        (fun _ after => s.configuration.Moved after elt name oldIndex newIndex) ↔
      s.configuration.Movable elt name oldIndex newIndex false := by
  simp only [Objects.Movable, Bool.false_eq_true, if_false]
  cases setPropertyValueIndex_outcome s elt name oldIndex newIndex with
  | refused refuses kept unequal =>
    refine iff_of_true (behaves_of_refuses refuses) ⟨?_, ?_⟩
    · intro defined values here low high
      by_contra below
      exact kept defined values here ⟨high, by omega, low⟩
    · intro equal defined values here high
      exact absurd high (unequal defined values here equal)
  | same leaves defined here equal high =>
    subst equal
    rw [behaves_iff_of_leaves leaves, moved_self_iff defined here high]
    constructor
    · intro low
      exact ⟨fun _ _ _ _ _ => low, fun _ _ _ _ _ => low⟩
    · rintro ⟨-, right⟩
      exact right rfl defined _ here high
  | @lost defined values e t here low high below thrown left =>
    rw [behaves_iff_of_error thrown]
    refine iff_of_false (fun same => ?_) (fun right => ?_)
    · -- the value is gone
      have found : (s.configuration.mProps elt).find name =
          some (values.eraseIdx oldIndex.toNat) := by
        rw [← same, left, find_put_self]
      rw [here] at found
      have size := congrArg List.length (Option.some.inj found)
      rw [List.length_eraseIdx_of_lt (by omega)] at size
      omega
    · exact absurd (right.1 defined _ here low high) (by omega)
  | moved defined here low there unequal low' high' leaves =>
    rw [behaves_iff_of_leaves leaves]
    exact iff_of_true (moved_of_outcome defined here low there low' high')
      ⟨fun _ _ _ _ _ => low', fun equal => absurd equal unequal⟩

theorem behaves_setPropertyValueIndexIn_iff :
    Behaves configuration (Method.setPropertyValueIndexIn elt name oldIndex newIndex) s
        (fun _ after => s.configuration.Moved after elt name oldIndex newIndex) ↔
      s.configuration.Movable elt name oldIndex newIndex true := by
  unfold Method.setPropertyValueIndexIn
  by_cases equal : oldIndex = newIndex
  · -- nothing is looked at
    subst equal
    rw [if_neg (not_not.mpr rfl), behaves_iff_of_leaves (leaves_pure _ s)]
    simp only [Objects.Movable, if_true, forall_const]
    constructor
    · rintro ⟨defined, values, value, here, low, there, -, high, -⟩
      exact ⟨fun _ _ _ _ _ => low, defined, values, here, low, high⟩
    · rintro ⟨-, defined, values, here, low, high⟩
      exact (moved_self_iff defined here high).mpr low
  · rw [if_pos equal, behaves_bind_iff (g := id) fun _ t => leaves_postEdit _ t]
    refine behaves_setPropertyValueIndex_iff.trans ?_
    simp [Objects.Movable, equal]

end Moving

/-! ## Adding and removing behave -/

section Adding

variable {s : State α} {elt : Nat} {name : String} {index : Int} {value : Value α}

/-- An edit is posted with the index that is returned. -/
theorem leaves_posted {x : Method α Int} {anEdit : Int → Edit α} {b : Int} {o : Objects α}
    (leaves : Leaves configuration x s b o) :
    Leaves configuration
      (x >>= fun i => Method.postEdit (anEdit i) >>= fun _ => pure i) s b o := by
  refine leaves.bind fun t same => ?_
  subst same
  exact (leaves_postEdit _ t).bind fun u same => leaves_pure_of_eq _ same

variable (s elt name index value) in
/-- The outcome of an addition, with a context or without. -/
theorem addPropertyAt_cases (ctx : Bool) :
    let x : Method α Int := if ctx then Method.addPropertyAtIn elt name index value
      else Method.addPropertyAt elt name index value
    Refuses x s ∨
      s.configuration.Variable elt name ∧ ∃ values,
        (s.configuration.mProps elt).find name = some values ∧ 0 ≤ index ∧
        ∃ after, Leaves configuration x s (min index values.length) after ∧
          s.configuration.Changed after elt name ((values.map s.configuration.shown).insertIdx
            (min index values.length).toNat (s.configuration.shown value)) := by
  intro x
  rcases addPropertyAt_outcome s elt name index value with
    refuses | ⟨defined, values, here, low, left⟩
  · refine .inl ?_
    cases ctx with
    | false => exact refuses
    | true => exact refuses.bind
  · refine .inr ⟨defined, values, here, low, s.configuration.put elt name (values.insertIdx
      (min index values.length).toNat value), ?_, ?_⟩
    · cases ctx with
      | false => exact left
      | true => exact leaves_posted left
    · rw [← List.map_insertIdx]
      exact changed_put ..

variable (s elt name index) in
/-- The outcome of a removal, with a context or without. -/
theorem removePropertyAt_cases (ctx : Bool) :
    let x : Method α Int := if ctx then Method.removePropertyAtIn elt name index
      else Method.removePropertyAt elt name index
    Refuses x s ∨
      s.configuration.Variable elt name ∧ ∃ values,
        (s.configuration.mProps elt).find name = some values ∧ 0 ≤ index ∧
        index < values.length ∧ ∃ after, Leaves configuration x s index after ∧
          s.configuration.Changed after elt name
            ((values.map s.configuration.shown).eraseIdx index.toNat) := by
  intro x
  rcases removePropertyAt_outcome s elt name index with
    refuses | ⟨defined, values, here, low, high, left⟩
  · refine .inl ?_
    cases ctx with
    | false => exact refuses
    | true =>
      show Refuses (Method.removePropertyAtIn elt name index) s
      unfold Method.removePropertyAtIn
      cases here : (s.configuration.mProps elt).find name with
      | none => exact (refuses_getPropertyValues here).bind
      | some values =>
        refine .of_ok (run_getPropertyValues here) ?_
        by_cases inside : 0 ≤ index ∧ ∃ value, values[index.toNat]? = some value
        · obtain ⟨low, value, there⟩ := inside
          exact .of_ok (run_elementAt low there) refuses.bind
        · refine (refuses_elementAt fun low => ?_).bind
          by_contra some'
          exact inside ⟨low, Option.ne_none_iff_exists'.mp some'⟩
  · refine .inr ⟨defined, values, here, low, high,
      s.configuration.put elt name (values.eraseIdx index.toNat), ?_, ?_⟩
    · cases ctx with
      | false => exact left
      | true =>
        have there : values[index.toNat]? = some values[index.toNat] :=
          List.getElem?_eq_getElem (by omega)
        refine .of_ok (run_getPropertyValues here) (.of_ok (run_elementAt low there) ?_)
        refine left.bind fun t same => ?_
        rw [← same, if_pos low]
        exact (leaves_postEdit _ t).bind fun u same => leaves_pure_of_eq _ same
    · rw [List.eraseIdx_map]
      exact changed_put ..

end Adding

end Parts

/-! ## All calls -/

section Calls

variable [DecidableEq α] (equalObjects : α → α → Bool) (s : State α)

theorem proper_setProperty_iff (elt : Nat) (name : String) (index : Int) (value : Value α)
    (ctx : Bool) : Proper equalObjects s (.setProperty elt name index value ctx) ↔
      Safe equalObjects s.configuration (.setProperty elt name index value ctx) := by
  unfold Proper Call.perform
  rw [behaves_bind_iff (g := fun _ => none) fun _ t => leaves_pure _ t]
  -- a property or a place that is not there
  have refused (refuses : ∀ x ∈ [Method.setPropertyIn equalObjects elt name index value,
      Method.setProperty elt name index value], Refuses x s) :
      Refuses (if ctx then Method.setPropertyIn equalObjects elt name index value
        else Method.setProperty elt name index value) s := by
    cases ctx with
    | false => exact refuses _ (by simp)
    | true => exact refuses _ (by simp)
  simp only [Safe, Documented]
  cases here : (s.configuration.mProps elt).find name with
  | none =>
    refine iff_of_true (behaves_of_refuses (refused fun x member => ?_)) (by simp)
    simp only [List.mem_cons, List.not_mem_nil, or_false] at member
    rcases member with rfl | rfl
    · exact (refuses_getPropertyValues here).bind
    · exact (refuses_getPropertyValues here).bind
  | some values =>
    by_cases inside : 0 ≤ index ∧ ∃ old, values[index.toNat]? = some old
    · obtain ⟨low, old, there⟩ := inside
      have one {P : List (Value α) → Value α → Prop} : (∃ values' old', some values = some values' ∧
          0 ≤ index ∧ values'[index.toNat]? = some old' ∧ P values' old') ↔ P values old := by
        simp [low, there]
      have each {P : List (Value α) → Value α → Prop} :
          (∀ values' old', some values = some values' → 0 ≤ index →
            values'[index.toNat]? = some old' → P values' old') ↔ P values old := by
        constructor
        · exact fun all => all values old rfl low there
        · rintro holds values' old' found - there'
          cases found
          rw [there] at there'
          cases there'
          exact holds
      simp only [one, each]
      cases ctx with
      | false =>
        simp only [Bool.false_eq_true, false_and, if_false]
        exact behaves_setProperty_iff equalObjects here low there
      | true =>
        simp only [true_and, if_true]
        exact behaves_setPropertyIn_iff equalObjects here low there
    · have none' (low : 0 ≤ index) : values[index.toNat]? = none := by
        by_contra some'
        exact inside ⟨low, Option.ne_none_iff_exists'.mp some'⟩
      refine iff_of_true (behaves_of_refuses (refused fun x member => ?_)) ?_
      · simp only [List.mem_cons, List.not_mem_nil, or_false] at member
        rcases member with rfl | rfl
        · exact .of_ok (run_getPropertyValues here) (refuses_elementAt none').bind
        · exact .of_ok (run_getPropertyValues here) (refuses_elementAt none').bind
      · intro values' old found low there
        cases found
        rw [none' low] at there
        cases there

theorem proper_addPropertyAt (elt : Nat) (name : String) (index : Int) (value : Value α)
    (ctx : Bool) : Proper equalObjects s (.addPropertyAt elt name index value ctx) := by
  unfold Proper Call.perform
  rw [behaves_bind_iff (g := some) fun _ t => leaves_pure _ t]
  rcases addPropertyAt_cases s elt name index value ctx with
    refuses | ⟨defined, values, here, low, after, left, changed⟩
  · exact behaves_of_refuses refuses
  · rw [behaves_iff_of_leaves left]
    exact ⟨defined, values, here, low, rfl, changed⟩

theorem proper_addProperty (elt : Nat) (name : String) (value : Value α) (ctx : Bool) :
    Proper equalObjects s (.addProperty elt name value ctx) := by
  unfold Proper Call.perform
  rw [behaves_bind_iff (g := some) fun _ t => leaves_pure _ t]
  have read : (if ctx then Method.addPropertyIn elt name value
      else Method.addProperty elt name value) = Method.getPropertyValues elt name >>= fun values =>
        if ctx then Method.addPropertyAtIn elt name values.length value
        else Method.addPropertyAt elt name values.length value := by
    cases ctx with
    | false => rfl
    | true => rfl
  rw [read]
  cases here : (s.configuration.mProps elt).find name with
  | none => exact behaves_of_refuses (refuses_getPropertyValues here).bind
  | some values =>
    rw [behaves_bind_of_ok (run_getPropertyValues here)]
    rcases addPropertyAt_cases s elt name values.length value ctx with
      refuses | ⟨defined, values', here', -, after, left, changed⟩
    · exact behaves_of_refuses refuses
    · rw [here] at here'
      cases here'
      rw [min_self, Int.toNat_natCast] at changed
      rw [min_self] at left
      rw [behaves_iff_of_leaves left]
      refine ⟨defined, values, here, rfl, ?_⟩
      have size : values.length = (values.map s.configuration.shown).length :=
        (List.length_map _).symm
      rwa [size, List.insertIdx_length_self] at changed

theorem proper_removePropertyAt (elt : Nat) (name : String) (index : Int) (ctx : Bool) :
    Proper equalObjects s (.removePropertyAt elt name index ctx) := by
  unfold Proper Call.perform
  rw [behaves_bind_iff (g := some) fun _ t => leaves_pure _ t]
  rcases removePropertyAt_cases s elt name index ctx with
    refuses | ⟨defined, values, here, low, high, after, left, changed⟩
  · exact behaves_of_refuses refuses
  · rw [behaves_iff_of_leaves left]
    exact ⟨defined, values, here, low, high, rfl, changed⟩

theorem proper_removeProperty (elt : Nat) (name : String) (oldValue : Value α) (ctx : Bool) :
    Proper equalObjects s (.removeProperty elt name oldValue ctx) := by
  unfold Proper Call.perform
  rw [behaves_bind_iff (g := some) fun _ t => leaves_pure _ t]
  cases here : (s.configuration.mProps elt).find name with
  | none =>
    apply behaves_of_refuses
    cases ctx with
    | false => exact (refuses_getPropertyValues here).bind
    | true => exact (refuses_getPropertyValues here).bind
  | some values =>
    simp only [Documented, here, Option.some.injEq, exists_eq_left']
    have first := run_getPropertyValues here
    cases found : s.configuration.indexOf equalObjects values oldValue with
    | none =>
      -- it is not there
      have left : Leaves configuration (if ctx
          then Method.removePropertyIn equalObjects elt name oldValue
          else Method.removeProperty equalObjects elt name oldValue) s (-1) s.configuration := by
        cases ctx with
        | false =>
          refine .of_ok first (.of_ok (EStateM.run_get s) ?_)
          rw [found]
          exact leaves_pure _ s
        | true =>
          refine .of_ok first (.of_ok (EStateM.run_get s) ?_)
          rw [found]
          exact leaves_pure _ s
      rw [behaves_iff_of_leaves left]
      exact ⟨rfl, rfl⟩
    | some i =>
      have outcome := removePropertyAt_cases s elt name i ctx
      rcases outcome with refuses | ⟨defined, values', here', -, -, after, left, changed⟩
      · apply behaves_of_refuses
        cases ctx with
        | false =>
          refine .of_ok first (.of_ok (EStateM.run_get s) ?_)
          rw [found]
          exact refuses.bind
        | true =>
          refine .of_ok first (.of_ok (EStateM.run_get s) ?_)
          rw [found]
          exact refuses
      · rw [here] at here'
        cases here'
        have left' : Leaves configuration (if ctx then
            Method.removePropertyIn equalObjects elt name oldValue
            else Method.removeProperty equalObjects elt name oldValue) s i after := by
          cases ctx with
          | false =>
            refine .of_ok first (.of_ok (EStateM.run_get s) ?_)
            rw [found]
            exact Leaves.bind left fun t same => leaves_pure_of_eq _ same
          | true =>
            refine .of_ok first (.of_ok (EStateM.run_get s) ?_)
            rw [found]
            exact left
        rw [behaves_iff_of_leaves left']
        exact ⟨defined, rfl, changed⟩

theorem proper_setPropertyValueIndex_iff (elt : Nat) (name : String) (oldIndex newIndex : Int)
    (ctx : Bool) : Proper equalObjects s (.setPropertyValueIndex elt name oldIndex newIndex ctx) ↔
      s.configuration.Movable elt name oldIndex newIndex ctx := by
  unfold Proper Call.perform
  rw [behaves_bind_iff (g := fun _ => none) fun _ t => leaves_pure _ t]
  cases ctx with
  | false => exact behaves_setPropertyValueIndex_iff
  | true => exact behaves_setPropertyValueIndexIn_iff

theorem proper_moveValue_iff (elt : Nat) (name : String) (value : Value α) (newIndex : Int)
    (ctx : Bool) : Proper equalObjects s (.moveValue elt name value newIndex ctx) ↔
      ∀ values, (s.configuration.mProps elt).find name = some values →
        s.configuration.Movable elt name (Method.indexOfObject values value) newIndex ctx := by
  unfold Proper Call.perform
  rw [behaves_bind_iff (g := fun _ => none) fun _ t => leaves_pure _ t]
  have read : (if ctx then Method.moveValueIn elt name value newIndex
      else Method.moveValue elt name value newIndex) =
        Method.getPropertyValueIndex elt name value >>= fun oldIndex =>
          if ctx then Method.setPropertyValueIndexIn elt name oldIndex newIndex
          else Method.setPropertyValueIndex elt name oldIndex newIndex := by
    cases ctx with
    | false => rfl
    | true => rfl
  rw [read]
  cases here : (s.configuration.mProps elt).find name with
  | none =>
    refine iff_of_true (behaves_of_refuses ?_) (by simp)
    exact (refuses_getPropertyValues here).bind.bind
  | some values =>
    have found : (Method.getPropertyValueIndex elt name value).run s =
        .ok (Method.indexOfObject values value) s := by
      rw [Method.getPropertyValueIndex, run_bind_ok (run_getPropertyValues here)]
      rfl
    rw [behaves_bind_of_ok found]
    simp only [Documented, here, Option.some.injEq, exists_eq_left', forall_eq']
    cases ctx with
    | false => exact behaves_setPropertyValueIndex_iff
    | true => exact behaves_setPropertyValueIndexIn_iff

/-- A call throws without a change, or does what is documented, just when no value is moved
below the first one or from nowhere, `null` is not replaced without a context, and a pointer
whose target changes is at no other place. -/
theorem proper_iff (call : Call α) :
    Proper equalObjects s call ↔ Safe equalObjects s.configuration call := by
  cases call with
  | setProperty elt name index value ctx =>
    exact proper_setProperty_iff equalObjects s elt name index value ctx
  | addProperty elt name value ctx =>
    exact iff_of_true (proper_addProperty equalObjects s elt name value ctx) trivial
  | addPropertyAt elt name index value ctx =>
    exact iff_of_true (proper_addPropertyAt equalObjects s elt name index value ctx) trivial
  | removeProperty elt name oldValue ctx =>
    exact iff_of_true (proper_removeProperty equalObjects s elt name oldValue ctx) trivial
  | removePropertyAt elt name index ctx =>
    exact iff_of_true (proper_removePropertyAt equalObjects s elt name index ctx) trivial
  | setPropertyValueIndex elt name oldIndex newIndex ctx =>
    exact proper_setPropertyValueIndex_iff equalObjects s elt name oldIndex newIndex ctx
  | moveValue elt name value newIndex ctx =>
    exact proper_moveValue_iff equalObjects s elt name value newIndex ctx

end Calls

/-! ## Friends -/

/-- One element with two friends. -/
def friends : Objects Unit where
  mTarget _ := none
  mProps _ := SortedMap.empty.insert "friends" [.string 1 "Aron", .string 2 "Ben"]
  mDefinition _ := [("friends", true)]

/-- The first friend is moved below the first place: the exception comes when it is gone. -/
theorem setPropertyValueIndex_loses :
    ¬ ∀ (s : State Unit) (call : Call Unit), Proper (fun _ _ => true) s call := by
  intro all
  have proper := all (.initial friends) (.setPropertyValueIndex 0 "friends" 0 (-1) true)
  rw [proper_setPropertyValueIndex_iff] at proper
  have kept := proper.1 rfl [.string 1 "Aron", .string 2 "Ben"]
    (SortedMap.find_insert_self ..) (by decide) (by decide)
  exact absurd kept (by decide)

end VRJuggler.Config.PropertyCalls
