import Mathlib.Algebra.Ring.Int.Defs
import VRJuggler.Vpr.ThreadSpecific

/-!
# Context-specific data

A `ContextData` stands for one object in each OpenGL context. It keeps a vector of objects in each
thread, by the number of the context, and takes the number that the draw manager has set for the
thread. A context is drawn by one thread, which goes through the contexts of its pipe.
-/
namespace VRJuggler.Draw

open Vpr

variable {τ κ ω : Type} [DecidableEq τ] [DecidableEq κ] [DecidableEq ω] {V : κ → Type}
  {W : ω → Type}

/-- The types of thread-specific objects: the number of the current context, the vectors of the
types of data, and what other proxies stand for. -/
inductive ContextType (κ ω : Type) where
  | contextId
  | contextData (k : κ)
  | other (o : ω)
  deriving DecidableEq

abbrev ContextObject (V : κ → Type) (W : ω → Type) : ContextType κ ω → Type
  | .contextId => Int
  | .contextData k => List (V k)
  | .other o => W o

/-- `ThreadContextData::checkSize`: new objects are made until there are enough. -/
def checkSize {α : Type} (construct : α) (requiredSize : Nat) (mContextDataVector : List α) :
    List α :=
  mContextDataVector ++ List.replicate (requiredSize - mContextDataVector.length) construct

/-- A proxy is constructed, alone or as a part of a `ContextData` or of the draw manager; the
current context of a thread is set; something is done to the object of a `ContextData` in the
current context, or to that of another proxy; a thread ends. Where the context was never set,
`unset` is what the memory holds. -/
inductive DrawOp (τ : Type) (V : κ → Type) (W : ω → Type) where
  | construct (i : ContextType κ ω)
  | setCurrentContext (self : Option τ) (unset val : Int)
  | use (self : Option τ) (unset : Int) (mObjectKey : Nat) (k : κ) (change : V k → V k)
  | other (reqThread self : Option τ) (mObjectKey : Nat) (o : ω) (fresh : W o)
      (change : W o → W o)
  | exit (thread : τ)

/-- `getPtrToCur` with what is done through the pointer. `contextKey` is the key of the draw
manager's `mContextId`. The vector has no element below zero, and the number of its elements is
an `int` first. -/
def drawStep (contextKey : Nat) (initial : (k : κ) → V k) (s : ThreadData τ (ContextObject V W)) :
    DrawOp τ V W → Option (ThreadData τ (ContextObject V W))
  | .construct i => s.step (.construct i)
  | .setCurrentContext self unset val =>
    s.step (.use none self contextKey .contextId unset fun _ => val)
  | .use self unset mObjectKey k change =>
    match getSpecific (s.tables self) contextKey .contextId unset with
    | none => none
    | some (context_id, _) =>
      -- the number of the context is read, and made if it is not there
      (s.step (.use none self contextKey .contextId unset id)).bind fun s =>
        if (0 : Int) ≤ context_id ∧ context_id + 1 < 2 ^ 31 then
          s.step (.use none self mObjectKey (.contextData k) [] fun mContextDataVector =>
            (checkSize (initial k) (context_id.toNat + 1) mContextDataVector).modify
              context_id.toNat change)
        else none
  | .other reqThread self mObjectKey o fresh change =>
    s.step (.use reqThread self mObjectKey (.other o) fresh change)
  | .exit thread => s.step (.exit thread)

/-! ## One object in each context -/

/-- What the data are for: an object for each thread, `ContextData` and context. -/
structure Contexts (τ ω : Type) (V : κ → Type) where
  current : Option τ → Option Int := fun _ => none
  contents : Option τ → Nat → Int → (k : κ) → V k
  proxies : List (ContextType κ ω) := []

section Contexts

variable (contextKey : Nat) (initial : (k : κ) → V k)

def Contexts.start : Contexts τ ω V where
  contents := fun _ _ _ => initial

/-- In a thread whose context is set, the object of that context is changed. -/
def Contexts.step (a : Contexts τ ω V) : DrawOp τ V W → Option (Contexts τ ω V)
  | .construct i =>
    -- all keys must fit into 32 bits
    if a.proxies.length + 1 ≤ 2 ^ 32 then some { a with proxies := a.proxies ++ [i] } else none
  | .setCurrentContext self _ val =>
    -- the draw manager is there
    if a.proxies[contextKey]? = some .contextId then
      some { a with current := Function.update a.current self (some val) }
    else none
  | .use self _ mObjectKey k change =>
    match a.current self with
    | none => none
    | some context_id =>
      if (0 ≤ context_id ∧ context_id + 1 < 2 ^ 31) ∧
          a.proxies[mObjectKey]? = some (.contextData k) then
        some { a with
          contents := fun owner key c =>
            if owner = self ∧ key = mObjectKey ∧ c = context_id then
              Function.update (a.contents owner key c) k (change (a.contents owner key c k))
            else a.contents owner key c }
      else none
  | .other _ _ mObjectKey o _ _ => if a.proxies[mObjectKey]? = some (.other o) then some a else none
  | .exit thread =>
    some { a with
      current := Function.update a.current (some thread) none
      contents := fun owner key c =>
        if owner = some thread then initial else a.contents owner key c }

/-- The object of a context in the vector of a thread. -/
def contextObject (table : TSTable (ContextObject V W)) (key : Nat) (c : Int) (k : κ) : V k :=
  ((objectAt table key (.contextData k)).getD [])[c.toNat]?.getD (initial k)

/-- The tables hold the contexts. -/
structure Holds (s : ThreadData τ (ContextObject V W)) (a : Contexts τ ω V) : Prop where
  typed : Typed s
  proxies : s.proxies = a.proxies
  few : s.proxies.length ≤ 2 ^ 32
  set : ∀ owner c, a.current owner = some c → s.proxies[contextKey]? = some .contextId
  current : ∀ owner, (∀ i, s.proxies[contextKey]? = some i → i = .contextId) →
    objectAt (s.tables owner) contextKey .contextId = a.current owner
  contents : ∀ owner key k, (∀ i, s.proxies[key]? = some i → i = .contextData k) →
    ∀ c, 0 ≤ c → contextObject initial (s.tables owner) key c k = a.contents owner key c k

end Contexts

/-- What is found in a vector that was made long enough and changed at one place. -/
theorem getD_modify_checkSize {α : Type} (new : α) (n c : Nat) (l : List α) (f : α → α) :
    ((checkSize new (n + 1) l).modify n f)[c]?.getD new =
      if c = n then f (l[c]?.getD new) else l[c]?.getD new := by
  have long : (checkSize new (n + 1) l)[c]?.getD new = l[c]?.getD new := by
    rw [checkSize]
    by_cases inside : c < l.length
    · rw [List.getElem?_append_left inside]
    · rw [List.getElem?_append_right (Nat.le_of_not_lt inside), List.getElem?_replicate,
        List.getElem?_eq_none (Nat.le_of_not_lt inside)]
      split <;> rfl
  rw [List.getElem?_modify]
  by_cases here : n = c
  · subst here
    have inside : n < (checkSize new (n + 1) l).length := by
      simp only [checkSize, List.length_append, List.length_replicate]
      omega
    rw [if_pos rfl, ← long, List.getElem?_eq_getElem inside]
    simp
  · simp [here, Ne.symm here, long]

section Steps

variable {contextKey : Nat} {initial : (k : κ) → V k} {s : ThreadData τ (ContextObject V W)}
  {a : Contexts τ ω V} (holds : Holds contextKey initial s a)
include holds

omit [DecidableEq τ] in
theorem Holds.construct {i : ContextType κ ω} (room : a.proxies.length + 1 ≤ 2 ^ 32) :
    Holds contextKey initial (s.construct i) { a with proxies := a.proxies ++ [i] } := by
  -- a key that had a proxy has the same
  have earlier : ∀ {key : Nat} {j}, s.proxies[key]? = some j →
      (s.construct i).proxies[key]? = some j := fun known => by
    rw [ThreadData.construct, List.getElem?_append_left (List.getElem?_eq_some_iff.mp known).1,
      known]
  refine ⟨holds.typed.construct _, congrArg (· ++ [i]) holds.proxies, ?_,
    fun owner c there => earlier (holds.set owner c there),
    fun owner only => holds.current owner fun j known => only j (earlier known),
    fun owner key k only => holds.contents owner key k fun j known => only j (earlier known)⟩
  rw [ThreadData.construct, holds.proxies]
  simpa using room

theorem Holds.exit (thread : τ) {b : Contexts τ ω V}
    (stepped : a.step contextKey initial (.exit thread : DrawOp τ V W) = some b) :
    Holds contextKey initial (s.setTable (some thread) []) b := by
  obtain rfl := Option.some.inj stepped
  refine ⟨holds.typed.exit thread, holds.proxies, holds.few, fun owner c there => ?_,
    fun owner only => ?_, fun owner key k only c above => ?_⟩
  · by_cases here : owner = some thread
    · simp [here] at there
    · exact holds.set owner c ((Function.update_of_ne here ..).symm.trans there)
  · by_cases here : owner = some thread
    · subst here
      simp [objectAt, TSTable.lookUp]
    · rw [s.setTable_of_ne here]
      exact (holds.current owner only).trans (Function.update_of_ne here ..).symm
  · by_cases here : owner = some thread
    · subst here
      simp [contextObject, objectAt, TSTable.lookUp]
    · rw [s.setTable_of_ne here]
      simp only [if_neg here]
      exact holds.contents owner key k only c above

/-- The current context is a thread-specific object. -/
theorem Holds.setCurrentContext (self : Option τ) (unset val : Int) (change : Int → Int)
    (known : s.proxies[contextKey]? = some .contextId)
    (sets : change ((a.current self).getD unset) = val) :
    ∃ t, s.step (.use none self contextKey .contextId unset change) = some t ∧
      Holds contextKey initial t
        { a with current := Function.update a.current self (some val) } := by
  obtain ⟨t, stepped, proxies, typed, changed, others⟩ :=
    holds.typed.use none self unset change known holds.few
  have only : ∀ i, s.proxies[contextKey]? = some i → i = .contextId :=
    fun i known' => Option.some.inj (known'.symm.trans known)
  rw [Option.none_or] at changed others
  refine ⟨t, stepped, typed, proxies.trans holds.proxies, proxies ▸ holds.few,
    fun _ _ _ => proxies ▸ known, fun owner _ => ?_, fun owner key k kind c above => ?_⟩
  · by_cases here : owner = self
    · subst here
      rw [changed, holds.current owner only, sets]
      exact (Function.update_self owner (some val) a.current).symm
    · rw [others owner _ _ fun same => here same.1]
      exact (holds.current owner only).trans (Function.update_of_ne here ..).symm
  · rw [proxies] at kind
    have other : key ≠ contextKey := by
      rintro rfl
      cases kind _ known
    rw [contextObject, others owner key _ fun same => other same.2]
    exact holds.contents owner key k kind c above

/-- The vector of a `ContextData` is another one. -/
theorem Holds.changeVector {self : Option τ} {key : Nat} {k : κ} {context_id : Int}
    (above : 0 ≤ context_id) (known : s.proxies[key]? = some (.contextData k))
    (change : V k → V k) :
    ∃ t, s.step (.use none self key (.contextData k) [] fun mContextDataVector =>
        (checkSize (initial k) (context_id.toNat + 1) mContextDataVector).modify
          context_id.toNat change) = some t ∧
      Holds contextKey initial t { a with
        contents := fun owner key' c =>
          if owner = self ∧ key' = key ∧ c = context_id then
            Function.update (a.contents owner key' c) k (change (a.contents owner key' c k))
          else a.contents owner key' c } := by
  obtain ⟨t, stepped, proxies, typed, changed, others⟩ :=
    holds.typed.use none self [] (fun mContextDataVector =>
      (checkSize (initial k) (context_id.toNat + 1) mContextDataVector).modify
        context_id.toNat change) known holds.few
  rw [Option.none_or] at changed others
  refine ⟨t, stepped, typed, proxies.trans holds.proxies, proxies ▸ holds.few,
    fun owner c there => proxies ▸ holds.set owner c there, fun owner only => ?_,
    fun owner key' j only c above' => ?_⟩
  · rw [proxies] at only
    have other : contextKey ≠ key := by
      rintro rfl
      cases only _ known
    rw [others owner _ _ fun same => other same.2]
    exact holds.current owner only
  · rw [proxies] at only
    have before := holds.contents owner key' j only c above'
    by_cases here : owner = self ∧ key' = key
    · obtain ⟨rfl, rfl⟩ := here
      obtain rfl : k = j := ContextType.contextData.inj (only _ known)
      rw [contextObject, changed, Option.getD_some, getD_modify_checkSize]
      have numbers : c.toNat = context_id.toNat ↔ c = context_id := by omega
      simp only [numbers, true_and]
      split
      · rw [Function.update_self, ← before]
        rfl
      · exact before
    · have apart : ¬ (owner = self ∧ key' = key ∧ c = context_id) :=
        fun all => here ⟨all.1, all.2.1⟩
      rw [contextObject, others owner key' _ here]
      simp only [if_neg apart]
      exact before

/-- The objects of other proxies are none of a context. -/
theorem Holds.other (reqThread self : Option τ) {key : Nat} {o : ω} (fresh : W o)
    (change : W o → W o) (known : s.proxies[key]? = some (.other o)) :
    ∃ t, s.step (.use reqThread self key (.other o) fresh change) = some t ∧
      Holds contextKey initial t a := by
  obtain ⟨t, stepped, proxies, typed, -, others⟩ :=
    holds.typed.use (i := .other o) reqThread self fresh change known holds.few
  refine ⟨t, stepped, typed, proxies.trans holds.proxies, proxies ▸ holds.few,
    fun owner c there => proxies ▸ holds.set owner c there, fun owner only => ?_,
    fun owner key' k only c above => ?_⟩
  · rw [proxies] at only
    have apart : contextKey ≠ key := by
      rintro rfl
      cases only _ known
    rw [others owner _ _ fun same => apart same.2]
    exact holds.current owner only
  · rw [proxies] at only
    have apart : key' ≠ key := by
      rintro rfl
      cases only _ known
    rw [contextObject, others owner key' _ fun same => apart same.2]
    exact holds.contents owner key' k only c above

/-- What the contexts allow, the tables can do. -/
theorem Holds.step {b : Contexts τ ω V} {op : DrawOp τ V W}
    (stepped : a.step contextKey initial op = some b) :
    ∃ t, drawStep contextKey initial s op = some t ∧ Holds contextKey initial t b := by
  cases op with
  | construct i =>
    obtain ⟨room, same⟩ := Option.ite_none_right_eq_some.mp stepped
    obtain rfl := Option.some.inj same
    exact ⟨_, rfl, holds.construct room⟩
  | exit thread => exact ⟨_, rfl, holds.exit thread stepped⟩
  | other reqThread self key o fresh change =>
    obtain ⟨known, same⟩ := Option.ite_none_right_eq_some.mp stepped
    obtain rfl := Option.some.inj same
    exact holds.other reqThread self fresh change (holds.proxies ▸ known)
  | setCurrentContext self unset val =>
    obtain ⟨known, same⟩ := Option.ite_none_right_eq_some.mp stepped
    obtain rfl := Option.some.inj same
    exact holds.setCurrentContext self unset val (fun _ => val) (holds.proxies ▸ known) rfl
  | use self unset key k change =>
    cases current : a.current self with
    | none => simp [Contexts.step, current] at stepped
    | some context_id =>
      simp only [Contexts.step, current] at stepped
      obtain ⟨⟨inside, kind⟩, same⟩ := Option.ite_none_right_eq_some.mp stepped
      obtain rfl := Option.some.inj same
      have known := holds.set self context_id current
      obtain ⟨_, specific, -⟩ := holds.typed.getSpecific self known holds.few unset
      rw [holds.current self fun i known' => Option.some.inj (known'.symm.trans known), current,
        Option.getD_some] at specific
      -- the context is only read
      obtain ⟨t, read, holds'⟩ :=
        holds.setCurrentContext self unset context_id id known (by rw [current]; rfl)
      have unchanged :
          { a with current := Function.update a.current self (some context_id) } = a := by
        rw [← current, Function.update_eq_self]
      rw [unchanged] at holds'
      obtain ⟨u, changed, holds''⟩ := holds'.changeVector inside.1 (holds'.proxies ▸ kind) change
      refine ⟨u, ?_, holds''⟩
      simp only [drawStep, specific, read, Option.bind_some, if_pos inside]
      exact changed

end Steps

/-- In every interleaving in which objects are used only where a context is set, the data are those
of the contexts: what is done in one context, thread or `ContextData`, or through another proxy, is
not seen in another, and each begins with a new object. -/
theorem context_data_separate (contextKey : Nat) (initial : (k : κ) → V k)
    (ops : List (DrawOp τ V W)) (b : Contexts τ ω V)
    (drawn : run (Contexts.step contextKey initial) (.start initial) ops = some b) :
    ∃ t : ThreadData τ (ContextObject V W),
      run (drawStep contextKey initial) {} ops = some t ∧
      (t.proxies[contextKey]? = some .contextId →
        ∀ owner, objectAt (t.tables owner) contextKey .contextId = b.current owner) ∧
      ∀ owner key k, t.proxies[key]? = some (.contextData k) → ∀ c, 0 ≤ c →
        contextObject initial (t.tables owner) key c k = b.contents owner key c k := by
  have begun : Holds contextKey initial ({} : ThreadData τ (ContextObject V W))
      (.start initial) :=
    ⟨typed_start, rfl, by simp, fun _ _ there => (nomatch there), fun _ _ => rfl,
      fun _ _ _ _ _ _ => rfl⟩
  obtain ⟨t, reached, holds⟩ : ∃ t : ThreadData τ (ContextObject V W),
      run (drawStep contextKey initial) {} ops = some t ∧ Holds contextKey initial t b := by
    generalize ({} : ThreadData τ (ContextObject V W)) = s, Contexts.start initial = a
      at begun drawn ⊢
    induction ops generalizing s a with
    | nil =>
      obtain rfl := Option.some.inj drawn
      exact ⟨s, rfl, begun⟩
    | cons op ops ih =>
      obtain ⟨a', stepped, rest⟩ := run_cons_eq_some.mp drawn
      obtain ⟨s', stepped', holds⟩ := begun.step stepped
      obtain ⟨t, reached, ends⟩ := ih s' a' holds rest
      exact ⟨t, run_cons_eq_some.mpr ⟨s', stepped', reached⟩, ends⟩
  refine ⟨t, reached, fun known owner => ?_, fun owner key k known c above => ?_⟩
  · exact holds.current owner fun i known' => Option.some.inj (known'.symm.trans known)
  · exact holds.contents owner key k (fun i known' => Option.some.inj (known'.symm.trans known)) c
      above

/-- One thread draws two contexts, and uses another proxy that was there before. -/
theorem context_data_separate_two :
    let ops : List (DrawOp Bool (fun _ : Unit => Nat) fun _ : Unit => Nat) :=
      [.construct (.other ()), .construct .contextId, .construct (.contextData ()),
        .setCurrentContext (some true) 0 3, .use (some true) 0 2 () (· + 5),
        .other none (some true) 0 () 0 (· + 1), .setCurrentContext (some true) 0 1,
        .use (some true) 0 2 () (· + 2)]
    ∃ t, run (drawStep 1 fun _ => 0) {} ops = some t ∧
      contextObject (fun _ => 0) (t.tables (some true)) 2 3 () = 5 ∧
      contextObject (fun _ => 0) (t.tables (some true)) 2 1 () = 2 ∧
      contextObject (fun _ => 0) (t.tables (some true)) 2 0 () = 0 := by
  intro ops
  obtain ⟨b, drawn, three, one, zero⟩ :
      ∃ b : Contexts Bool Unit fun _ : Unit => Nat,
        run (Contexts.step 1 fun _ => 0) (.start fun _ => 0) ops = some b ∧
          b.contents (some true) 2 3 () = 5 ∧ b.contents (some true) 2 1 () = 2 ∧
          b.contents (some true) 2 0 () = 0 := ⟨_, rfl, rfl, rfl, rfl⟩
  obtain ⟨t, reached, -, same⟩ := context_data_separate 1 (fun _ => 0) ops b drawn
  have known : t.proxies[2]? = some (.contextData ()) := by
    obtain rfl := Option.some.inj reached
    rfl
  have each := same (some true) 2 () known
  exact ⟨t, reached, (each 3 (by decide)).trans three, (each 1 (by decide)).trans one,
    (each 0 (by decide)).trans zero⟩

end VRJuggler.Draw
