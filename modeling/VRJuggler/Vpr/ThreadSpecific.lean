import Mathlib.Logic.Function.Basic
import Mathlib.Algebra.Order.Group.Nat
import VRJuggler.Base.Run

/-!
# Thread-specific objects

A `TSObjectProxy` stands for one object in each thread. The objects of a thread are in a table by
the keys of the proxies, whatever their types, and are made when they are first asked for. This
module shows that the tables keep the threads and the proxies apart: what a proxy yields is what
was done through this proxy in this thread.
-/
namespace VRJuggler.Vpr

variable {ι τ : Type} [DecidableEq ι] [DecidableEq τ] {T : ι → Type}

/-- `std::vector<TSBaseObject*>`, with the type of each object. -/
abbrev TSTable (T : ι → Type) := List (Option (Sigma T))

namespace TSTable

variable (table : TSTable T) (key : Nat)

omit [DecidableEq ι] in
/-- The key is made an `unsigned int` before it is compared with the size. -/
def containsKey : Bool := key % 2 ^ 32 < table.length

/-- That the key is inside the table is only asserted. -/
def getObject : Option (Option (Sigma T)) := table[key]?

def setObject (object : Option (Sigma T)) : TSTable T :=
  let resized :=
    if table.length ≤ key then table ++ List.replicate (key + 1 - table.length) none else table
  resized.set key object

end TSTable

/-- `dynamic_cast< TSObject<T>* >`. -/
def dynamicCast (i : ι) : Sigma T → Option (T i)
  | ⟨j, value⟩ => if same : j = i then some (same ▸ value) else none

/-- `getSpecific`, once the table is found: the object and the table in which it is. A new object
is `fresh`, whatever its constructor left in it. A failed cast is an exception. -/
def getSpecific (table : TSTable T) (mObjectKey : Nat) (i : ι) (fresh : T i) :
    Option (T i × TSTable T) :=
  let table := if table.containsKey mObjectKey then table else table.setObject mObjectKey none
  match table.getObject mObjectKey with
  | none => none
  | some none => some (fresh, table.setObject mObjectKey (some ⟨i, fresh⟩))
  | some (some object) => (dynamicCast i object).map fun value => (value, table)

/-- The tables of the threads and the global one, and the type of each proxy, by its key. -/
structure ThreadData (τ : Type) (T : ι → Type) where
  tables : Option τ → TSTable T := fun _ => []
  proxies : List ι := []

/-- A proxy is constructed; something is done to its object in the thread that is asked for, or in
the own one, or without a thread; a thread ends. -/
inductive ThreadOp (τ : Type) (T : ι → Type) where
  | construct (i : ι)
  | use (reqThread self : Option τ) (mObjectKey : Nat) (i : ι) (fresh : T i) (change : T i → T i)
  | exit (thread : τ)

namespace ThreadData

variable (s : ThreadData τ T)

/-- `generateNewTSKey` counts the proxies. -/
def construct (i : ι) : ThreadData τ T := { s with proxies := s.proxies ++ [i] }

def setTable (owner : Option τ) (table : TSTable T) : ThreadData τ T :=
  { s with tables := Function.update s.tables owner table }

omit [DecidableEq ι] in
@[simp] theorem setTable_self (owner : Option τ) (table : TSTable T) :
    (s.setTable owner table).tables owner = table := Function.update_self ..

omit [DecidableEq ι] in
theorem setTable_of_ne {owner other : Option τ} (apart : other ≠ owner) (table : TSTable T) :
    (s.setTable owner table).tables other = s.tables other := Function.update_of_ne apart ..

def step : ThreadOp τ T → Option (ThreadData τ T)
  | .construct i => some (s.construct i)
  | .use reqThread self mObjectKey i fresh change =>
    let owner := reqThread.or self
    if s.proxies[mObjectKey]? = some i then
      (getSpecific (s.tables owner) mObjectKey i fresh).map fun (object, table) =>
        -- the object is changed where it is
        s.setTable owner (table.setObject mObjectKey (some ⟨i, change object⟩))
    else none
  | .exit thread => some (s.setTable (some thread) [])

end ThreadData

/-- What the operations make of the object of a thread, none if it has not been asked for. -/
def held (owner : Option τ) (mObjectKey : Nat) (i : ι) : List (ThreadOp τ T) → Option (T i) :=
  List.foldl (fun object op =>
    match op with
    | .construct _ => object
    | .use reqThread self key j fresh change =>
      if same : reqThread.or self = owner ∧ key = mObjectKey ∧ j = i then
        some ((same.2.2 ▸ change : T i → T i) (object.getD (same.2.2 ▸ fresh)))
      else object
    | .exit thread => if owner = some thread then none else object) none

/-! ## Tables -/

namespace TSTable

variable {table : TSTable T} {key : Nat}

/-- The object with a key, if there is one. -/
def lookUp (table : TSTable T) (key : Nat) : Option (Sigma T) := table[key]?.join

omit [DecidableEq ι] in
theorem length_setObject (object : Option (Sigma T)) :
    (table.setObject key object).length = max table.length (key + 1) := by
  simp only [setObject, List.length_set]
  split
  · rw [List.length_append, List.length_replicate]
    omega
  · omega

omit [DecidableEq ι] in
theorem getElem?_setObject (object : Option (Sigma T)) :
    (table.setObject key object)[key]? = some object := by
  simp only [setObject]
  refine List.getElem?_set_self ?_
  split
  · rw [List.length_append, List.length_replicate]
    omega
  · omega

omit [DecidableEq ι] in
theorem lookUp_setObject (object : Option (Sigma T)) (k : Nat) :
    (table.setObject key object).lookUp k = if k = key then object else table.lookUp k := by
  split
  next here =>
    subst here
    rw [lookUp, getElem?_setObject, Option.join_some]
  next other =>
    simp only [lookUp, setObject, List.getElem?_set_ne (Ne.symm other)]
    split
    next short =>
      by_cases inside : k < table.length
      · rw [List.getElem?_append_left inside]
      · rw [List.getElem?_append_right (Nat.le_of_not_lt inside),
          List.getElem?_eq_none (Nat.le_of_not_lt inside), List.getElem?_replicate]
        split <;> rfl
    next => rfl

end TSTable

theorem dynamicCast_self {i : ι} (value : T i) : dynamicCast i ⟨i, value⟩ = some value :=
  dif_pos rfl

/-- The object in a table for a proxy of the type. -/
def objectAt (table : TSTable T) (key : Nat) (i : ι) : Option (T i) :=
  (table.lookUp key).bind (dynamicCast i)

/-- In a table that has no object of another type for it, a proxy finds its object, or makes it. -/
theorem getSpecific_spec {table : TSTable T} {key : Nat} {i : ι} (fresh : T i)
    (small : key < 2 ^ 32) (typed : ∀ object, table.lookUp key = some object → object.1 = i) :
    ∃ table', getSpecific table key i fresh = some ((objectAt table key i).getD fresh, table') ∧
      (∀ k, k ≠ key → table'.lookUp k = table.lookUp k) ∧
      table'.length ≤ max table.length (key + 1) := by
  have contains : table.containsKey key = decide (key < table.length) := by
    rw [TSTable.containsKey, Nat.mod_eq_of_lt small]
  -- the table is long enough, and has the same objects as before
  obtain ⟨table', extended, here, same, length⟩ : ∃ table' : TSTable T,
      (if table.containsKey key then table else table.setObject key none) = table' ∧
      table'[key]? = some (table.lookUp key) ∧ (∀ k, table'.lookUp k = table.lookUp k) ∧
      table'.length ≤ max table.length (key + 1) := by
    by_cases inside : key < table.length
    · refine ⟨table, by simp [contains, inside], ?_, fun _ => rfl, Nat.le_max_left ..⟩
      rw [TSTable.lookUp, List.getElem?_eq_getElem inside, Option.join_some]
    · have none' : table.lookUp key = none := by
        rw [TSTable.lookUp, List.getElem?_eq_none (Nat.le_of_not_lt inside)]
        rfl
      refine ⟨table.setObject key none, by simp [contains, inside], ?_, fun k => ?_,
        (TSTable.length_setObject _).le⟩
      · rw [TSTable.getElem?_setObject, none']
      · rw [TSTable.lookUp_setObject]
        split
        next equal => rw [equal, none']
        next => rfl
  unfold getSpecific
  simp only [extended, TSTable.getObject, here, objectAt]
  cases found : table.lookUp key with
  | none =>
    refine ⟨_, rfl, fun k other => ?_, ?_⟩
    · rw [TSTable.lookUp_setObject, if_neg other, same]
    · rw [TSTable.length_setObject]
      omega
  | some object =>
    obtain ⟨j, value⟩ := object
    obtain rfl : j = i := typed _ found
    exact ⟨table', by simp [dynamicCast_self], fun k _ => same k, length⟩

/-! ## Steps -/

/-- The objects in the tables have the types of their proxies. -/
def Typed (s : ThreadData τ T) : Prop :=
  ∀ owner key object, (s.tables owner).lookUp key = some object → s.proxies[key]? = some object.1

omit [DecidableEq ι] [DecidableEq τ] in
theorem typed_start : Typed ({} : ThreadData τ T) := fun _ _ _ found => (nomatch found)

section Steps

variable {s : ThreadData τ T} (typed : Typed s)
include typed

omit [DecidableEq τ] in
/-- A proxy has its own object in a table, or none. -/
theorem Typed.getSpecific (owner : Option τ) {key : Nat} {i : ι}
    (known : s.proxies[key]? = some i) (few : s.proxies.length ≤ 2 ^ 32) (fresh : T i) :
    ∃ table, getSpecific (s.tables owner) key i fresh =
        some ((objectAt (s.tables owner) key i).getD fresh, table) ∧
      ∀ k, k ≠ key → table.lookUp k = (s.tables owner).lookUp k := by
  obtain ⟨table, specific, others, -⟩ := getSpecific_spec fresh
    ((List.getElem?_eq_some_iff.mp known).1.trans_le few) fun object found =>
      Option.some.inj ((typed owner key object found).symm.trans known)
  exact ⟨table, specific, others⟩

omit [DecidableEq ι] [DecidableEq τ] in
theorem Typed.construct (i : ι) : Typed (s.construct i) := by
  intro owner key object found
  have known := typed owner key object found
  rw [ThreadData.construct, List.getElem?_append_left (List.getElem?_eq_some_iff.mp known).1, known]

omit [DecidableEq ι] in
theorem Typed.exit (thread : τ) : Typed (s.setTable (some thread) []) := by
  intro owner key object found
  by_cases here : owner = some thread
  · subst here
    simp [TSTable.lookUp] at found
  · rw [s.setTable_of_ne here] at found
    exact typed owner key object found

/-- The object of one proxy in one table is changed, and no other. -/
theorem Typed.use (reqThread self : Option τ) {key : Nat} {i : ι} (fresh : T i)
    (change : T i → T i) (known : s.proxies[key]? = some i) (few : s.proxies.length ≤ 2 ^ 32) :
    ∃ t, s.step (.use reqThread self key i fresh change) = some t ∧ t.proxies = s.proxies ∧
      Typed t ∧
      objectAt (t.tables (reqThread.or self)) key i =
        some (change ((objectAt (s.tables (reqThread.or self)) key i).getD fresh)) ∧
      ∀ owner k j, ¬ (owner = reqThread.or self ∧ k = key) →
        objectAt (t.tables owner) k j = objectAt (s.tables owner) k j := by
  obtain ⟨table, specific, others⟩ :=
    typed.getSpecific (reqThread.or self) known few fresh
  let object := change ((objectAt (s.tables (reqThread.or self)) key i).getD fresh)
  refine ⟨s.setTable (reqThread.or self) (table.setObject key (some ⟨i, object⟩)), ?_, rfl, ?_, ?_,
    ?_⟩
  · simp only [ThreadData.step, if_pos known, specific, Option.map_some]
    rfl
  · intro owner k object' found
    by_cases here : owner = reqThread.or self
    · subst here
      rw [s.setTable_self, TSTable.lookUp_setObject] at found
      split at found
      next same =>
        obtain rfl := Option.some.inj found
        exact same ▸ known
      next other => exact typed _ k object' (others k other ▸ found)
    · rw [s.setTable_of_ne here] at found
      exact typed owner k object' found
  · simp [objectAt, TSTable.lookUp_setObject, dynamicCast_self, object]
  · intro owner k j apart
    by_cases here : owner = reqThread.or self
    · subst here
      have other : k ≠ key := fun same => apart ⟨rfl, same⟩
      simp [objectAt, TSTable.lookUp_setObject, other, others k other]
    · rw [s.setTable_of_ne here]

end Steps

/-! ## Runs -/

theorem held_concat (owner : Option τ) (key : Nat) (i : ι) (ops : List (ThreadOp τ T))
    (op : ThreadOp τ T) : held owner key i (ops ++ [op]) =
      match op with
      | .construct _ => held owner key i ops
      | .use reqThread self key' j fresh change =>
        if same : reqThread.or self = owner ∧ key' = key ∧ j = i then
          some ((same.2.2 ▸ change : T i → T i)
            ((held owner key i ops).getD (same.2.2 ▸ fresh)))
        else held owner key i ops
      | .exit thread => if owner = some thread then none else held owner key i ops := by
  rw [held, List.foldl_append]
  rfl

theorem held_concat_use (reqThread self : Option τ) (key : Nat) (i : ι) (fresh : T i)
    (change : T i → T i) (ops : List (ThreadOp τ T)) :
    held (reqThread.or self) key i (ops ++ [.use reqThread self key i fresh change]) =
      some (change ((held (reqThread.or self) key i ops).getD fresh)) := by
  rw [held_concat]
  exact dif_pos ⟨rfl, rfl, rfl⟩

theorem held_concat_use_of_ne {owner reqThread self : Option τ} {key k : Nat} {i j : ι}
    (apart : ¬ (reqThread.or self = owner ∧ key = k ∧ i = j)) (fresh : T i) (change : T i → T i)
    (ops : List (ThreadOp τ T)) :
    held owner k j (ops ++ [.use reqThread self key i fresh change]) = held owner k j ops := by
  rw [held_concat]
  exact dif_neg apart

/-- The objects are what was made of them; a key that no proxy has yet has no objects. -/
structure Separate (s : ThreadData τ T) (ops : List (ThreadOp τ T)) : Prop where
  typed : Typed s
  values : ∀ owner key i, (∀ j, s.proxies[key]? = some j → j = i) →
    objectAt (s.tables owner) key i = held owner key i ops

theorem Separate.step {s t : ThreadData τ T} {ops : List (ThreadOp τ T)} (separate : Separate s ops)
    {op : ThreadOp τ T} (few : s.proxies.length ≤ 2 ^ 32) (stepped : s.step op = some t) :
    Separate t (ops ++ [op]) := by
  obtain ⟨typed, values⟩ := separate
  cases op with
  | construct i =>
    obtain rfl := Option.some.inj stepped
    refine ⟨typed.construct i, fun owner key j only => ?_⟩
    rw [held_concat]
    refine values owner key j fun j' known => only j' ?_
    rw [ThreadData.construct, List.getElem?_append_left (List.getElem?_eq_some_iff.mp known).1,
      known]
  | exit thread =>
    obtain rfl := Option.some.inj stepped
    refine ⟨typed.exit thread, fun owner key i only => ?_⟩
    rw [held_concat]
    by_cases here : owner = some thread
    · subst here
      simp [objectAt, TSTable.lookUp]
    · rw [s.setTable_of_ne here]
      simp only [if_neg here]
      exact values owner key i only
  | use reqThread self key i fresh change =>
    have known : s.proxies[key]? = some i := by
      by_contra unknown
      rw [ThreadData.step, if_neg unknown] at stepped
      cases stepped
    obtain ⟨t', stepped', proxies, typed', changed, others⟩ :=
      typed.use reqThread self fresh change known few
    obtain rfl := Option.some.inj (stepped'.symm.trans stepped)
    refine ⟨typed', fun owner k j only => ?_⟩
    rw [proxies] at only
    by_cases here : owner = reqThread.or self ∧ k = key
    · obtain ⟨rfl, rfl⟩ := here
      obtain rfl : i = j := only i known
      rw [held_concat_use, changed, values _ k i only]
    · rw [held_concat_use_of_ne fun same => here ⟨same.1.symm, same.2.1.symm⟩,
        others owner k j here, values owner k j only]

omit [DecidableEq τ] in
theorem proxies_step [DecidableEq τ] {s t : ThreadData τ T} {op : ThreadOp τ T}
    (stepped : s.step op = some t) : s.proxies.length ≤ t.proxies.length := by
  cases op with
  | construct i =>
    obtain rfl := Option.some.inj stepped
    simp [ThreadData.construct]
  | exit thread =>
    obtain rfl := Option.some.inj stepped
    rfl
  | use reqThread self key i fresh change =>
    obtain ⟨-, stepped⟩ := Option.ite_none_right_eq_some.mp stepped
    obtain ⟨_, -, rfl⟩ := Option.map_eq_some_iff.mp stepped
    rfl

/-- With at most 2 ^ 32 proxies, in every interleaving: a proxy yields in a thread what was made of
its object there, through this proxy and since the thread began, or a new object; it never finds an
object of another type. -/
theorem proxies_separate (ops : List (ThreadOp τ T)) (s : ThreadData τ T)
    (reached : run ThreadData.step {} ops = some s) (few : s.proxies.length ≤ 2 ^ 32)
    (owner : Option τ) (key : Nat) (i : ι) (known : s.proxies[key]? = some i) (fresh : T i) :
    ∃ table, getSpecific (s.tables owner) key i fresh =
      some ((held owner key i ops).getD fresh, table) := by
  have separate : s.proxies.length ≤ 2 ^ 32 → Separate s ([] ++ ops) := by
    refine run_history_of_meets (fun s past => s.proxies.length ≤ 2 ^ 32 → Separate s past)
      (fun _ _ => True) ?_ ?_ (meets_of_forall (fun _ _ => trivial) {} ops) reached
    · intro s op t past separate _ stepped few
      have few' := (proxies_step stepped).trans few
      exact (separate few').step few' stepped
    · exact fun _ => ⟨typed_start, fun _ _ _ _ => rfl⟩
  obtain ⟨typed, values⟩ := separate few
  obtain ⟨table, specific, -⟩ := typed.getSpecific owner known few fresh
  refine ⟨table, ?_⟩
  rw [specific, values owner key i fun j known' => Option.some.inj (known'.symm.trans known),
    List.nil_append]

/-- Two proxies in two threads, of which one ends. -/
theorem proxies_separate_two :
    let ops : List (ThreadOp Bool fun _ : Bool => Nat) :=
      [.construct true, .construct false, .use none (some true) 0 true 7 (· + 1),
        .use none (some false) 0 true 7 (· + 2), .use none (some true) 1 false 0 (· + 3),
        .exit false]
    ∃ (s : ThreadData Bool fun _ : Bool => Nat) (table table' : TSTable fun _ : Bool => Nat),
      run ThreadData.step {} ops = some s ∧
      getSpecific (s.tables (some true)) 0 true 0 = some (8, table) ∧
      getSpecific (s.tables (some false)) 0 true 0 = some (0, table') := by
  intro ops
  obtain ⟨s, reached, proxies⟩ : ∃ s : ThreadData Bool fun _ : Bool => Nat,
      run ThreadData.step {} ops = some s ∧ s.proxies = [true, false] := ⟨_, rfl, rfl⟩
  have few : s.proxies.length ≤ 2 ^ 32 := by
    rw [proxies]
    decide
  have known : s.proxies[0]? = some true := by
    rw [proxies]
    rfl
  obtain ⟨table, first⟩ := proxies_separate ops s reached few (some true) 0 true known 0
  obtain ⟨table', second⟩ := proxies_separate ops s reached few (some false) 0 true known 0
  exact ⟨s, table, table', reached, first, second⟩

end VRJuggler.Vpr
