import VRJuggler.Config.ElementStore
import VRJuggler.Config.Timeline
import Mathlib.Data.List.InsertIdx

/-!
# Edits of elements that can be undone

A change that is made through a context posts an edit that leads back, unless an element is
taken out of the middle of a data source, a value is moved below the first one, or a pointer
takes or loses its place.
-/
namespace VRJuggler.Config

open ElementStore

/-! ## The values of a property -/

theorem lookup_replaceValues {name : String} {old : List PropertyValue}
    (values : List PropertyValue) {props : List (String × List PropertyValue)}
    (here : props.lookup name = some old) :
    (replaceValues name values props).lookup name = some values := by
  induction props with
  | nil => cases here
  | cons p rest ih =>
    by_cases same : p.1 = name
    · rw [replaceValues, if_pos same, List.lookup_cons_self]
    · have other : (name == p.1) = false := by
        rw [beq_eq_false_iff_ne]
        exact fun equal => same equal.symm
      rw [List.lookup_cons, other] at here
      rw [replaceValues, if_neg same, List.lookup_cons, other]
      exact ih here

theorem replaceValues_replaceValues (name : String) (values next : List PropertyValue)
    (props : List (String × List PropertyValue)) :
    replaceValues name next (replaceValues name values props) = replaceValues name next props := by
  induction props with
  | nil => rfl
  | cons p rest ih =>
    by_cases same : p.1 = name
    · rw [replaceValues, if_pos same, replaceValues, if_pos rfl, replaceValues, if_pos same]
    · rw [replaceValues, if_neg same, replaceValues, if_neg same, replaceValues, if_neg same, ih]

theorem replaceValues_self {name : String} {values : List PropertyValue}
    {props : List (String × List PropertyValue)} (here : props.lookup name = some values) :
    replaceValues name values props = props := by
  induction props with
  | nil => rfl
  | cons p rest ih =>
    obtain ⟨key, present⟩ := p
    by_cases same : key = name
    · subst same
      rw [List.lookup_cons_self] at here
      rw [replaceValues, if_pos rfl, Option.some.inj here]
    · have other : (name == key) = false := by
        rw [beq_eq_false_iff_ne]
        exact fun equal => same equal.symm
      rw [List.lookup_cons, other] at here
      rw [replaceValues, if_neg same, ih here]

section Values

variable {s : ElementStore} {elt : Nat} {name : String} {values : List PropertyValue}

theorem getPropertyValues_set (here : s.getPropertyValues elt name = some values)
    (next : List PropertyValue) :
    (s.setPropertyValues elt name next).getPropertyValues elt name = some next := by
  obtain ⟨c, object, found⟩ := Option.bind_eq_some_iff.mp here
  rw [getPropertyValues, setPropertyValues, List.getElem?_modify_eq, object]
  exact lookup_replaceValues next found

theorem setPropertyValues_set (s : ElementStore) (elt : Nat) (name : String)
    (values next : List PropertyValue) :
    (s.setPropertyValues elt name values).setPropertyValues elt name next =
      s.setPropertyValues elt name next := by
  rw [setPropertyValues, setPropertyValues, setPropertyValues, List.modify_modify_eq]
  congr 2
  funext c
  simp only [Function.comp_apply, replaceValues_replaceValues]

theorem setPropertyValues_self (here : s.getPropertyValues elt name = some values) :
    s.setPropertyValues elt name values = s := by
  obtain ⟨c, object, found⟩ := Option.bind_eq_some_iff.mp here
  have same : s.objects.modify elt (fun c =>
      { c with mProps := replaceValues name values c.mProps }) = s.objects := by
    apply List.ext_getElem?
    intro i
    by_cases this : elt = i
    · subst this
      rw [List.getElem?_modify_eq, object, Option.map_eq_map, Option.map_some,
        replaceValues_self found]
    · rw [List.getElem?_modify_ne _ _ this]
  rw [setPropertyValues, same]

@[simp] theorem isVariable_set (next : List PropertyValue) :
    (s.setPropertyValues elt name next).isVariable elt name = s.isVariable elt name := by
  rw [isVariable, isVariable, setPropertyValues, List.getElem?_modify_eq]
  cases s.objects[elt]? with
  | none => rfl
  | some c => rfl

theorem getProperty_eq_some {index : Int} {value : PropertyValue}
    (here : s.getPropertyValues elt name = some values) :
    s.getProperty elt name index = some value ↔
      0 ≤ index ∧ values[index.toNat]? = some value := by
  rw [getProperty, here]
  by_cases low : 0 ≤ index
  · simp [low]
  · simp [low]

theorem getPropertyValues_of_getProperty {index : Int} {value : PropertyValue}
    (here : s.getProperty elt name index = some value) :
    ∃ values, s.getPropertyValues elt name = some values ∧ 0 ≤ index ∧
      values[index.toNat]? = some value := by
  rw [getProperty] at here
  split at here
  · next low =>
    obtain ⟨values, found, there⟩ := Option.bind_eq_some_iff.mp here
    exact ⟨values, found, low, there⟩
  · cases here

end Values

/-! ## Edits of one property -/

theorem quietly_fst (after : Option ElementStore) : (quietly after).map Prod.fst = after := by
  cases after with
  | none => rfl
  | some after => rfl

/-- A pointer has a target, and is set where a pointer was. -/
def KeepsPointers : PropertyValue → PropertyValue → Prop
  | .pointer mTarget, _ => mTarget.isSome
  | _, .pointer _ => False
  | _, _ => True

instance : DecidableRel KeepsPointers := fun old value => by
  cases old <;> cases value <;> simp only [KeepsPointers] <;> infer_instance

theorem assign_recordedValue {old value new : PropertyValue} (keeps : KeepsPointers old value)
    (assigned : assign old value = some new) : assign new (recordedValue old) = some old := by
  cases old with
  | pointer mTarget =>
    obtain ⟨target, rfl⟩ := Option.isSome_iff_exists.mp keeps
    cases value with
    | string value =>
      cases assigned
      rfl
    | pointer mTarget =>
      cases assigned
      rfl
    | _ => cases assigned
  | _ =>
    -- The old value is put back as it is, since the new one is no pointer either.
    cases value with
    | pointer mTarget => exact keeps.elim
    | _ =>
      cases assigned
      rfl

section Property

variable {s after : ElementStore} {elt : Nat} {name : String} {index : Int}

theorem exact_property {old value : PropertyValue}
    (here : s.getProperty elt name index = some old) (keeps : KeepsPointers old value)
    (done : s.setProperty elt name index value = some after) :
    Exact elementEdits s (.property elt name index (recordedValue old) value) after := by
  obtain ⟨values, found, low, there⟩ := getPropertyValues_of_getProperty here
  refine ⟨?_, (quietly_fst _).trans done⟩
  rw [setProperty, found, Option.bind_some, here, Option.bind_some] at done
  obtain ⟨new, assigned, rfl⟩ := Option.map_eq_some_iff.mp done
  have bound : index.toNat < values.length := (List.getElem?_eq_some_iff.mp there).1
  have moved := getPropertyValues_set found (values.set index.toNat new)
  have now : (s.setPropertyValues elt name (values.set index.toNat new)).getProperty elt name
      index = some new := by
    rw [getProperty_eq_some moved]
    exact ⟨low, List.getElem?_set_self bound⟩
  apply (quietly_fst _).trans
  rw [setProperty, moved, Option.bind_some, now, Option.bind_some,
    assign_recordedValue keeps assigned, Option.map_some, setPropertyValues_set, List.set_set]
  have back : values.set index.toNat old = values := by
    obtain ⟨_, rfl⟩ := List.getElem?_eq_some_iff.mp there
    exact List.set_getElem_self bound
  rw [back, setPropertyValues_self found]

/-- A value that was added can be taken away, and added again where it was. -/
theorem addProperty_spec {value : PropertyValue} {added : ElementStore × Nat}
    (done : s.addProperty elt name index value = some added) :
    ∃ values, s.getPropertyValues elt name = some values ∧ s.isVariable elt name = true ∧
      added.2 ≤ values.length ∧
      added.1 = s.setPropertyValues elt name (values.insertIdx added.2 value) := by
  obtain ⟨values, found, rest⟩ := Option.bind_eq_some_iff.mp done
  refine ⟨values, found, ?_⟩
  cases grows : s.isVariable elt name with
  | false => simp [grows] at rest
  | true =>
    simp only [grows, Bool.not_true, Bool.false_eq_true, if_false] at rest
    split at rest
    · obtain rfl := Option.some.inj rest
      exact ⟨rfl, Nat.le_refl _, by rw [List.insertIdx_length_self]⟩
    · split at rest
      · obtain rfl := Option.some.inj rest
        refine ⟨rfl, ?_, rfl⟩
        show index.toNat ≤ values.length
        omega
      · cases rest

theorem addProperty_eq {values : List PropertyValue} {value : PropertyValue} {i : Nat}
    (found : s.getPropertyValues elt name = some values)
    (grows : s.isVariable elt name = true) (bound : i ≤ values.length) :
    s.addProperty elt name i value =
      some (s.setPropertyValues elt name (values.insertIdx i value), i) := by
  rw [addProperty, found, Option.bind_some, if_neg (by simp [grows])]
  by_cases last : values.length = i
  · rw [if_pos (by omega), ← last, List.insertIdx_length_self]
  · rw [if_neg (by omega), if_pos (by omega), Int.toNat_natCast]

theorem removeProperty_spec (done : s.removeProperty elt name index = some after) :
    ∃ values, s.getPropertyValues elt name = some values ∧ s.isVariable elt name = true ∧
      0 ≤ index ∧ index < values.length ∧
      after = s.setPropertyValues elt name (values.eraseIdx index.toNat) := by
  obtain ⟨values, found, rest⟩ := Option.bind_eq_some_iff.mp done
  refine ⟨values, found, ?_⟩
  cases shrinks : s.isVariable elt name with
  | false => simp [shrinks] at rest
  | true =>
    simp only [shrinks, Bool.not_true, Bool.false_eq_true, if_false] at rest
    split at rest
    · next bound => exact ⟨rfl, bound.1, bound.2, (Option.some.inj rest).symm⟩
    · cases rest

theorem removeProperty_eq {values : List PropertyValue} {i : Nat}
    (found : s.getPropertyValues elt name = some values)
    (shrinks : s.isVariable elt name = true) (bound : i < values.length) :
    s.removeProperty elt name i = some (s.setPropertyValues elt name (values.eraseIdx i)) := by
  rw [removeProperty, found, Option.bind_some, if_neg (by simp [shrinks]), if_pos (by omega),
    Int.toNat_natCast]

theorem exact_valueAdd {value : PropertyValue} {added : ElementStore × Nat}
    (done : s.addProperty elt name index value = some added) :
    Exact elementEdits s (.valueAdd elt name added.2 value) added.1 := by
  obtain ⟨values, found, grows, bound, after⟩ := addProperty_spec done
  constructor
  · apply (quietly_fst _).trans
    rw [after]
    have moved := getPropertyValues_set found (values.insertIdx added.2 value)
    rw [removeProperty_eq moved (by rw [isVariable_set, grows])
      (by rw [List.length_insertIdx_of_le_length bound]; omega)]
    rw [setPropertyValues_set, List.eraseIdx_insertIdx_self, setPropertyValues_self found]
  · apply (quietly_fst _).trans
    rw [addProperty_eq found grows bound, Option.map_some, after]

theorem exact_valueRemove {old : PropertyValue} (here : s.getProperty elt name index = some old)
    (done : s.removeProperty elt name index = some after) :
    Exact elementEdits s (.valueRemove elt name index old) after := by
  refine ⟨?_, (quietly_fst _).trans done⟩
  obtain ⟨values, found, shrinks, low, high, rfl⟩ := removeProperty_spec done
  obtain ⟨-, there⟩ := (getProperty_eq_some found).mp here
  obtain ⟨i, rfl⟩ := Int.eq_ofNat_of_zero_le low
  rw [Int.toNat_natCast] at there
  obtain ⟨bound, rfl⟩ := List.getElem?_eq_some_iff.mp there
  apply (quietly_fst _).trans
  have moved := getPropertyValues_set found (values.eraseIdx i)
  have size : i ≤ (values.eraseIdx i).length := by
    rw [List.length_eraseIdx_of_lt bound]
    omega
  rw [Int.toNat_natCast, addProperty_eq moved (by rw [isVariable_set, shrinks]) size,
    Option.map_some, setPropertyValues_set, List.insertIdx_eraseIdx_getElem bound,
    setPropertyValues_self found]

/-- A value that was moved can be moved back. -/
theorem setPropertyValueIndex_spec {oldIndex newIndex : Int} (differ : oldIndex ≠ newIndex)
    (low : 0 ≤ newIndex)
    (done : s.setPropertyValueIndex elt name oldIndex newIndex = (false, after)) :
    ∃ values value, s.getPropertyValues elt name = some values ∧
      s.isVariable elt name = true ∧ 0 ≤ oldIndex ∧ newIndex < values.length ∧
      values[oldIndex.toNat]? = some value ∧ after = s.setPropertyValues elt name
        ((values.eraseIdx oldIndex.toNat).insertIdx newIndex.toNat value) := by
  rw [setPropertyValueIndex] at done
  split at done
  · next values value found here =>
    obtain ⟨start, there⟩ := (getProperty_eq_some found).mp here
    split at done
    · cases done
    · next fits =>
      obtain ⟨grows, high⟩ := not_or.mp fits
      refine ⟨values, value, found, ?_, start, by omega, there, ?_⟩
      · simpa using grows
      · exact (Prod.mk.inj done).2.symm
  · cases done

theorem setPropertyValueIndex_thrown {oldIndex newIndex : Int} (low : 0 ≤ newIndex)
    (thrown : s.setPropertyValueIndex elt name oldIndex newIndex = (true, after)) : after = s := by
  rw [setPropertyValueIndex] at thrown
  split at thrown
  · split at thrown
    · exact (Prod.mk.inj thrown).2.symm
    · split at thrown
      · cases thrown
      · cases thrown
  · exact (Prod.mk.inj thrown).2.symm

theorem setPropertyValueIndex_eq {values : List PropertyValue} {value : PropertyValue} {i j : Nat}
    (found : s.getPropertyValues elt name = some values)
    (grows : s.isVariable elt name = true) (there : values[i]? = some value)
    (bound : j < values.length) (differ : i ≠ j) :
    s.setPropertyValueIndex elt name i j =
      (false, s.setPropertyValues elt name ((values.eraseIdx i).insertIdx j value)) := by
  have here : s.getProperty elt name i = some value :=
    (getProperty_eq_some found).mpr ⟨by omega, there⟩
  rw [setPropertyValueIndex, found, here]
  simp only [grows, Bool.not_true, Bool.false_eq_true, false_or]
  rw [if_neg (by omega), if_neg (by omega), if_pos (by omega), Int.toNat_natCast,
    Int.toNat_natCast]

theorem exact_valueIndex {oldIndex newIndex : Int} (differ : oldIndex ≠ newIndex)
    (low : 0 ≤ newIndex)
    (done : s.setPropertyValueIndex elt name oldIndex newIndex = (false, after)) :
    Exact elementEdits s (.valueIndex elt name oldIndex newIndex) after := by
  constructor
  · obtain ⟨values, value, found, grows, start, high, there, rfl⟩ :=
      setPropertyValueIndex_spec differ low done
    obtain ⟨i, rfl⟩ := Int.eq_ofNat_of_zero_le start
    obtain ⟨j, rfl⟩ := Int.eq_ofNat_of_zero_le low
    rw [Int.toNat_natCast] at there
    obtain ⟨bound, rfl⟩ := List.getElem?_eq_some_iff.mp there
    have size : (values.eraseIdx i).length + 1 = values.length := by
      rw [List.length_eraseIdx_of_lt bound]
      omega
    have last : j ≤ (values.eraseIdx i).length := by omega
    have moved := getPropertyValues_set found ((values.eraseIdx i).insertIdx j values[i])
    -- The value stands at its new index, and without it the others are as before.
    have now : ((values.eraseIdx i).insertIdx j values[i])[j]? = some values[i] := by
      rw [List.getElem?_insertIdx_self, if_pos last]
    apply (quietly_fst _).trans
    simp only [Int.toNat_natCast]
    rw [setPropertyValueIndex_eq moved (by rw [isVariable_set, grows]) now
      (by rw [List.length_insertIdx_of_le_length last, size]; exact bound)
      (fun same => differ (by rw [same]))]
    rw [List.eraseIdx_insertIdx_self, List.insertIdx_eraseIdx_getElem bound,
      setPropertyValues_set, setPropertyValues_self found]
    rfl
  · apply (quietly_fst _).trans
    rw [done]
    rfl

end Property

/-! ## Names -/

theorem exact_name {s after : ElementStore} {elt : Nat} {name : String} {c : ConfigElement}
    (object : s.objects[elt]? = some c) (done : s.setName elt name = some after) :
    Exact elementEdits s (.name elt c.mName name) after := by
  refine ⟨?_, (quietly_fst _).trans done⟩
  obtain ⟨bound, rfl⟩ := List.getElem?_eq_some_iff.mp object
  rw [setName, object, Option.map_some] at done
  obtain rfl := Option.some.inj done
  apply (quietly_fst _).trans
  rw [setName, List.getElem?_set_self bound, Option.map_some, List.set_set,
    List.set_getElem_self bound]

/-! ## Data sources -/

section Sources

variable {s after : ElementStore} {elt source : Nat}

theorem equal_self (s : ElementStore) (elt : Nat) : s.equal elt elt = true := by
  rw [ElementStore.equal]
  cases s.objects.length with
  | zero => exact decide_eq_true rfl
  | succ depth => rw [equals, decide_eq_true rfl, Bool.true_or]

theorem setElements_self {dataSource : DataSource} (known : s.sources[source]? = some dataSource) :
    s.setElements source dataSource.elements = s := by
  have same : s.sources.modify source (fun data_source =>
      { data_source with elements := dataSource.elements }) = s.sources := by
    apply List.ext_getElem?
    intro i
    by_cases this : source = i
    · subst this
      rw [List.getElem?_modify_eq, known, Option.map_eq_map, Option.map_some]
    · rw [List.getElem?_modify_ne _ _ this]
  rw [setElements, same]

theorem setElements_set (s : ElementStore) (source : Nat) (elements next : List Nat) :
    (s.setElements source elements).setElements source next = s.setElements source next := by
  rw [setElements, setElements, setElements, List.modify_modify_eq]
  rfl

theorem sources_setElements {dataSource : DataSource}
    (known : s.sources[source]? = some dataSource) (elements : List Nat) :
    (s.setElements source elements).sources[source]? =
      some { dataSource with elements := elements } := by
  rw [setElements, List.getElem?_modify_eq, known]
  rfl

/-- Which elements are equal does not depend on the data sources. -/
theorem equals_setElements (s : ElementStore) (source : Nat) (elements : List Nat) (depth : Nat) :
    (s.setElements source elements).equals depth = s.equals depth := by
  induction depth with
  | zero => rfl
  | succ depth ih =>
    funext reference other
    rw [equals, equals, ih]
    rfl

@[simp] theorem indexOf_setElements (elements list : List Nat) :
    (s.setElements source elements).indexOf list elt = s.indexOf list elt := by
  have same : (s.setElements source elements).equal = s.equal :=
    equals_setElements s source elements s.objects.length
  rw [indexOf, indexOf, same]

theorem brokerAdd_spec (done : s.brokerAdd elt source = some after) :
    ∃ dataSource, s.sources[source]? = some dataSource ∧ dataSource.isReadOnly = false ∧
      s.indexOf dataSource.elements elt = none ∧
      after = s.setElements source (dataSource.elements ++ [elt]) := by
  obtain ⟨dataSource, known, rest⟩ := Option.bind_eq_some_iff.mp done
  refine ⟨dataSource, known, ?_⟩
  split at rest
  · cases rest
  · next writable =>
    split at rest
    · cases rest
    · next absent =>
      exact ⟨by simpa using writable, by simpa using absent, (Option.some.inj rest).symm⟩

theorem brokerRemove_spec (done : s.brokerRemove elt source = some (some after)) :
    ∃ dataSource i, s.sources[source]? = some dataSource ∧ dataSource.isReadOnly = false ∧
      s.indexOf dataSource.elements elt = some i ∧
      after = s.setElements source (dataSource.elements.eraseIdx i) := by
  obtain ⟨dataSource, known, rest⟩ := Option.bind_eq_some_iff.mp done
  cases found : s.indexOf dataSource.elements elt with
  | none =>
    rw [found] at rest
    cases rest
  | some i =>
    rw [found] at rest
    simp only at rest
    split at rest
    · cases rest
    · next writable =>
      exact ⟨dataSource, i, known, by simpa using writable, found,
        (Option.some.inj (Option.some.inj rest)).symm⟩

theorem brokerAdd_eq {dataSource : DataSource} (known : s.sources[source]? = some dataSource)
    (writable : dataSource.isReadOnly = false)
    (absent : s.indexOf dataSource.elements elt = none) :
    s.brokerAdd elt source = some (s.setElements source (dataSource.elements ++ [elt])) := by
  rw [brokerAdd, known, Option.bind_some, writable, absent]
  rfl

theorem brokerRemove_eq {dataSource : DataSource} {i : Nat}
    (known : s.sources[source]? = some dataSource) (writable : dataSource.isReadOnly = false)
    (found : s.indexOf dataSource.elements elt = some i) :
    s.brokerRemove elt source =
      some (some (s.setElements source (dataSource.elements.eraseIdx i))) := by
  rw [brokerRemove, known, Option.bind_some, found, writable]
  rfl

/-- An element that was added is found behind the others. -/
theorem indexOf_append_self {elements : List Nat} (absent : s.indexOf elements elt = none) :
    s.indexOf (elements ++ [elt]) elt = some elements.length := by
  rw [indexOf, List.findIdx?_append]
  rw [indexOf] at absent
  rw [absent, List.findIdx?_singleton, equal_self, if_pos rfl, Option.map_some, Nat.zero_add]
  rfl

theorem exact_add (done : s.brokerAdd elt source = some after) :
    Exact elementEdits s (.context elt source true) after := by
  constructor
  · obtain ⟨dataSource, known, writable, absent, rfl⟩ := brokerAdd_spec done
    have found : (s.setElements source (dataSource.elements ++ [elt])).indexOf
        (dataSource.elements ++ [elt]) elt = some dataSource.elements.length := by
      rw [indexOf_setElements]
      exact indexOf_append_self absent
    have undone := brokerRemove_eq (sources_setElements known (dataSource.elements ++ [elt]))
      writable found
    rw [setElements_set, List.eraseIdx_append_of_length_le (Nat.le_refl _), Nat.sub_self,
      List.eraseIdx_zero, List.tail_cons, List.append_nil, setElements_self known] at undone
    show ((contextRemove _ elt source).map fun removed => posting _ removed).map Prod.fst = some s
    rw [contextRemove, undone]
    rfl
  · show ((contextAdd s elt source).map fun added => posting s (some added)).map Prod.fst = _
    rw [contextAdd, done]
    rfl

/-- The element is found at the end of its data source. -/
theorem exact_remove (done : s.brokerRemove elt source = some (some after))
    (last : ∀ dataSource i, s.sources[source]? = some dataSource →
      s.indexOf dataSource.elements elt = some i →
      i + 1 = dataSource.elements.length ∧ dataSource.elements[i]? = some elt) :
    Exact elementEdits s (.context elt source false) after := by
  constructor
  · obtain ⟨dataSource, i, known, writable, found, rfl⟩ := brokerRemove_spec done
    obtain ⟨size, here⟩ := last dataSource i known found
    -- Nothing in front of the element is equal to it.
    obtain ⟨bound, -, before⟩ := List.findIdx?_eq_some_iff_getElem.mp found
    have split : dataSource.elements = dataSource.elements.eraseIdx i ++ [elt] := by
      obtain ⟨_, same⟩ := List.getElem?_eq_some_iff.mp here
      rw [List.eraseIdx_eq_take_drop_succ, size, List.drop_length, List.append_nil, ← same,
        List.take_append_getElem, size, List.take_length]
    have absent : (s.setElements source (dataSource.elements.eraseIdx i)).indexOf
        (dataSource.elements.eraseIdx i) elt = none := by
      rw [indexOf_setElements, indexOf, List.findIdx?_eq_none_iff]
      intro other member
      rw [List.eraseIdx_eq_take_drop_succ, size, List.drop_length, List.append_nil] at member
      obtain ⟨j, low, rfl⟩ := List.mem_take_iff_getElem.mp member
      simpa using before j (by omega)
    have undone := brokerAdd_eq
      (sources_setElements known (dataSource.elements.eraseIdx i)) writable absent
    rw [setElements_set, ← split, setElements_self known] at undone
    show ((contextAdd _ elt source).map fun added => posting _ (some added)).map Prod.fst = some s
    rw [contextAdd, undone]
    rfl
  · show ((contextRemove s elt source).map fun removed => posting s removed).map Prod.fst = _
    rw [contextRemove, done]
    rfl

end Sources

/-! ## Operations -/

/-- A pointer keeps its place and has a target, no value is moved below the first one, and
only the last element of a data source is taken out. -/
def Undoable (s : ElementStore) : ElementOperation → Prop
  | .setProperty elt name index value =>
    ∀ old ∈ s.getProperty elt name index, KeepsPointers old value
  | .setPropertyValueIndex _ _ _ newIndex => 0 ≤ newIndex
  | .remove elt source =>
    ∀ dataSource ∈ s.sources[source]?, ∀ i ∈ s.indexOf dataSource.elements elt,
      i + 1 = dataSource.elements.length ∧ dataSource.elements[i]? = some elt
  | _ => True

instance (s : ElementStore) : DecidablePred (Undoable s) := fun operation => by
  cases operation <;> simp only [Undoable] <;> infer_instance

/-- What an operation posts leads back. -/
theorem postsExact_posting {operation : ElementOperation} {s : ElementStore}
    {done : Option (ElementStore × ElementEdit)}
    (performed : performOperation s operation = posting s done)
    (exact : ∀ posted, done = some posted → Exact elementEdits s posted.2 posted.1) :
    PostsExact elementEdits operation s := by
  cases result : done with
  | none =>
    rw [result] at performed
    exact .inl performed
  | some posted =>
    rw [result] at performed
    exact .inr ⟨posted.2, posted.1, performed, exact posted result⟩

theorem postsExact_of_undoable {operation : ElementOperation} {s : ElementStore}
    (undoable : Undoable s operation) : PostsExact elementEdits operation s := by
  cases operation with
  | setName elt name =>
    refine postsExact_posting rfl fun posted done => ?_
    obtain ⟨c, object, done⟩ := Option.bind_eq_some_iff.mp done
    obtain ⟨_, named, rfl⟩ := Option.map_eq_some_iff.mp done
    exact exact_name object named
  | setProperty elt name index value =>
    refine postsExact_posting rfl fun posted done => ?_
    obtain ⟨old, here, done⟩ := Option.bind_eq_some_iff.mp done
    split at done
    · cases done
    · obtain ⟨_, replaced, rfl⟩ := Option.map_eq_some_iff.mp done
      exact exact_property here (undoable old here) replaced
  | addProperty elt name index value =>
    refine postsExact_posting rfl fun posted done => ?_
    obtain ⟨_, added, rfl⟩ := Option.map_eq_some_iff.mp done
    exact exact_valueAdd added
  | removeProperty elt name index =>
    refine postsExact_posting rfl fun posted done => ?_
    obtain ⟨old, here, done⟩ := Option.bind_eq_some_iff.mp done
    obtain ⟨_, removed, rfl⟩ := Option.map_eq_some_iff.mp done
    exact exact_valueRemove here removed
  | setPropertyValueIndex elt name oldIndex newIndex =>
    by_cases same : oldIndex = newIndex
    · exact .inl (if_pos same)
    · have performed : performOperation s (.setPropertyValueIndex elt name oldIndex newIndex) = _ :=
        if_neg same
      cases moved : s.setPropertyValueIndex elt name oldIndex newIndex with
      | mk throws after =>
        cases throws with
        | false =>
          rw [moved] at performed
          exact .inr ⟨_, _, performed, exact_valueIndex same undoable moved⟩
        | true =>
          -- With an index that is not below zero, it throws before anything is done.
          have unchanged : after = s := setPropertyValueIndex_thrown undoable moved
          rw [moved, unchanged] at performed
          exact .inl performed
  | add elt source =>
    refine postsExact_posting rfl fun posted done => ?_
    obtain ⟨_, added, rfl⟩ := Option.map_eq_some_iff.mp done
    exact exact_add added
  | remove elt source =>
    refine postsExact_posting rfl fun posted done => ?_
    cases removed : s.brokerRemove elt source with
    | none =>
      rw [contextRemove, removed] at done
      cases done
    | some after =>
      rw [contextRemove, removed] at done
      obtain ⟨after, rfl, rfl⟩ := Option.map_eq_some_iff.mp done
      exact exact_remove removed fun dataSource i known => undoable dataSource known i

end VRJuggler.Config
