import Mathlib.Data.List.Basic

/-!
# Object writers and readers

`vpr::ObjectWriter` and `vpr::ObjectReader`: the typed values they carry, the calls
made on a writer, and the calls made on a reader. A `float` or `double` is given by its
bit pattern, a `std::string` by its bytes.

The calls made on a writer do not depend on what it answers, so code that writes is
given by the list of its calls. Code that reads does, and is a program of `Reading`.
-/
namespace VRJuggler.Io

inductive Kind where
  | uint8 | uint16 | uint32 | uint64 | float | double | bool | string
  deriving DecidableEq

@[reducible] def Kind.Carrier : Kind → Type
  | uint8 => UInt8
  | uint16 => UInt16
  | uint32 | float => UInt32
  | uint64 | double => UInt64
  | bool => Bool
  | string => List UInt8

instance Kind.decidableEqCarrier : (k : Kind) → DecidableEq k.Carrier
  | uint8 => inferInstanceAs (DecidableEq UInt8)
  | uint16 => inferInstanceAs (DecidableEq UInt16)
  | uint32 | float => inferInstanceAs (DecidableEq UInt32)
  | uint64 | double => inferInstanceAs (DecidableEq UInt64)
  | bool => inferInstanceAs (DecidableEq Bool)
  | string => inferInstanceAs (DecidableEq (List UInt8))

structure Value where
  kind : Kind
  val : kind.Carrier
  deriving DecidableEq

/-- A call on an `ObjectWriter`. -/
inductive Call where
  | beginTag (tagName : String)
  | endTag
  | beginAttribute (attributeName : String)
  | endAttribute
  | write (k : Kind) (val : k.Carrier)
  deriving DecidableEq

/-- A call on an `ObjectReader`. -/
inductive Ask where
  | beginTag (tagName : String)
  | endTag
  | beginAttribute (attributeName : String)
  | endAttribute
  | read (k : Kind)
  deriving DecidableEq

/-- The call of a reader that corresponds to a call of a writer. -/
def Call.ask : Call → Ask
  | beginTag tagName => .beginTag tagName
  | endTag => .endTag
  | beginAttribute attributeName => .beginAttribute attributeName
  | endAttribute => .endAttribute
  | write k _ => .read k

def Call.value? : Call → Option Value
  | write k val => some ⟨k, val⟩
  | _ => none

/-- The values written by some calls, in their order. -/
def values (calls : List Call) : List Value := calls.filterMap Call.value?

@[simp] theorem values_nil : values [] = [] := rfl

@[simp] theorem values_append (front rest : List Call) :
    values (front ++ rest) = values front ++ values rest := List.filterMap_append

/-- How a call ends when it does not return. `undefined` is what the language leaves
undefined, such as `back()` of an empty vector. -/
inductive Fault where
  | eofException
  | ioException
  | clusterException
  | undefined
  deriving DecidableEq

/-- A program that reads: it returns or throws, and leaves a state in either case. -/
def Reading (σ α : Type) : Type := σ → Except Fault α × σ

namespace Reading

variable {σ α β : Type}

instance : Monad (Reading σ) where
  pure a := fun s => (.ok a, s)
  bind m f := fun s =>
    match m s with
    | (.ok a, t) => f a t
    | (.error fault, t) => (.error fault, t)

def throw (fault : Fault) : Reading σ α := fun s => (.error fault, s)

def get : Reading σ σ := fun s => (.ok s, s)

def modify (f : σ → σ) : Reading σ Unit := fun s => (.ok (), f s)

@[simp] theorem pure_apply (a : α) (s : σ) : (pure a : Reading σ α) s = (.ok a, s) := rfl

@[simp] theorem throw_apply (fault : Fault) (s : σ) :
    (throw fault : Reading σ α) s = (.error fault, s) := rfl

@[simp] theorem get_apply (s : σ) : get s = (.ok s, s) := rfl

@[simp] theorem modify_apply (f : σ → σ) (s : σ) : modify f s = (.ok (), f s) := rfl

theorem bind_apply (m : Reading σ α) (f : α → Reading σ β) (s : σ) :
    (m >>= f) s =
      match m s with
      | (.ok a, t) => f a t
      | (.error fault, t) => (.error fault, t) := rfl

theorem bind_of_ok {m : Reading σ α} {s t : σ} {a : α} (returned : m s = (.ok a, t))
    (f : α → Reading σ β) : (m >>= f) s = f a t := by
  rw [bind_apply, returned]

theorem bind_of_error {m : Reading σ α} {s t : σ} {fault : Fault}
    (thrown : m s = (.error fault, t)) (f : α → Reading σ β) :
    (m >>= f) s = (.error fault, t) := by
  rw [bind_apply, thrown]

/-- A program that returned made both of its parts return. -/
theorem bind_eq_ok {m : Reading σ α} {f : α → Reading σ β} {s u : σ} {b : β} :
    (m >>= f) s = (.ok b, u) ↔ ∃ a t, m s = (.ok a, t) ∧ f a t = (.ok b, u) := by
  rw [bind_apply]
  cases first : m s with
  | mk result t =>
    cases result with
    | ok a => simp
    | error fault => simp

/-- `catch` around a program that throws another exception instead. -/
def rethrow (m : Reading σ α) (fault : Fault) : Reading σ α := fun s =>
  match m s with
  | (.ok a, t) => (.ok a, t)
  | (.error _, t) => (.error fault, t)

/-- A program on a part of the state. -/
def zoom (part : σ → β) (put : σ → β → σ) (m : Reading β α) : Reading σ α := fun s =>
  ((m (part s)).1, put s (m (part s)).2)

theorem rethrow_of_ok {m : Reading σ α} {s t : σ} {a : α} (returned : m s = (.ok a, t))
    (fault : Fault) : rethrow m fault s = (.ok a, t) := by
  rw [rethrow, returned]

theorem rethrow_of_error {m : Reading σ α} {s t : σ} {other : Fault}
    (thrown : m s = (.error other, t)) (fault : Fault) :
    rethrow m fault s = (.error fault, t) := by
  rw [rethrow, thrown]

/-- `for (i = 0; i < n; ++i)` over a body that reads one thing. -/
def times (m : Reading σ α) : Nat → Reading σ (List α)
  | 0 => pure []
  | n + 1 => do
    let a ← m
    let rest ← times m n
    pure (a :: rest)

/-- Whether it returns or throws, a program leads from each state to one that is related
to it. -/
def Respects (rel : σ → σ → Prop) (m : Reading σ α) : Prop := ∀ s, rel s (m s).2

section Respects

variable {rel : σ → σ → Prop}

theorem respects_pure (refl : ∀ s, rel s s) (a : α) : Respects rel (pure a : Reading σ α) :=
  fun s => refl s

theorem respects_bind (trans : ∀ ⦃s t u⦄, rel s t → rel t u → rel s u) {m : Reading σ α}
    {f : α → Reading σ β} (first : Respects rel m) (later : ∀ a, Respects rel (f a)) :
    Respects rel (m >>= f) := by
  intro s
  have here := first s
  rw [bind_apply]
  cases ended : m s with
  | mk result t =>
    rw [ended] at here
    cases result with
    | ok a => exact trans here (later a t)
    | error fault => exact here

theorem respects_times (refl : ∀ s, rel s s) (trans : ∀ ⦃s t u⦄, rel s t → rel t u → rel s u)
    {m : Reading σ α} (each : Respects rel m) (n : Nat) : Respects rel (times m n) := by
  induction n with
  | zero => exact respects_pure refl []
  | succ n ih =>
    exact respects_bind trans each fun _ => respects_bind trans ih fun _ => respects_pure refl _

end Respects

/-- What a program throws, if it throws. -/
def Throws (fault : Fault) (m : Reading σ α) : Prop :=
  ∀ s other, (m s).1 = .error other → other = fault

theorem throws_pure (fault : Fault) (a : α) : Throws fault (pure a : Reading σ α) := by
  intro s other thrown
  cases thrown

theorem throws_bind {fault : Fault} {m : Reading σ α} {f : α → Reading σ β}
    (first : Throws fault m) (later : ∀ a, Throws fault (f a)) : Throws fault (m >>= f) := by
  intro s other thrown
  rw [bind_apply] at thrown
  cases ended : m s with
  | mk result t =>
    rw [ended] at thrown
    cases result with
    | ok a => exact later a t other thrown
    | error fault =>
      obtain rfl := Except.error.inj thrown
      exact first s fault (by rw [ended])

theorem throws_times {fault : Fault} {m : Reading σ α} (each : Throws fault m) (n : Nat) :
    Throws fault (times m n) := by
  induction n with
  | zero => exact throws_pure fault []
  | succ n ih => exact throws_bind each fun _ => throws_bind ih fun _ => throws_pure fault _

end Reading

/-- The calls that a `vpr::ObjectReader` offers. -/
structure ObjectReader (σ : Type) where
  beginTag : String → Reading σ Unit
  endTag : Reading σ Unit
  beginAttribute : String → Reading σ Unit
  endAttribute : Reading σ Unit
  read : (k : Kind) → Reading σ k.Carrier

namespace ObjectReader

variable {σ : Type} (rd : ObjectReader σ)

def answer : Ask → Reading σ (List Value)
  | .beginTag tagName => do rd.beginTag tagName; pure []
  | .endTag => do rd.endTag; pure []
  | .beginAttribute attributeName => do rd.beginAttribute attributeName; pure []
  | .endAttribute => do rd.endAttribute; pure []
  | .read k => do let val ← rd.read k; pure [⟨k, val⟩]

/-- Make some calls on a reader and collect the values it returns. -/
def answers : List Ask → Reading σ (List Value)
  | [] => pure []
  | ask :: asks => do
    let first ← rd.answer ask
    let rest ← answers asks
    pure (first ++ rest)

theorem answers_append (front rest : List Ask) (s : σ) :
    rd.answers (front ++ rest) s =
      (rd.answers front >>= fun first => rd.answers rest >>= fun later =>
        pure (first ++ later)) s := by
  induction front generalizing s with
  | nil =>
    rw [List.nil_append, Reading.bind_of_ok (m := rd.answers []) (Reading.pure_apply _ _),
      Reading.bind_apply]
    cases rd.answers rest s with
    | mk result t => cases result with | ok _ | error _ => rfl
  | cons ask front ih =>
    simp only [List.cons_append, answers, Reading.bind_apply, ih, Reading.pure_apply]
    cases rd.answer ask s with
    | mk result t =>
      cases result with
      | error fault => rfl
      | ok first =>
        cases second : rd.answers front t with
        | mk result u =>
          cases result with
          | error fault => simp only [second]
          | ok vals =>
            cases third : rd.answers rest u with
            | mk result v =>
              cases result with
              | error fault => simp only [second, third]
              | ok more => simp only [second, third, List.append_assoc]

/-- A program ends as it ends to make some calls one after the other, whatever it does
with the answers. -/
def Follows {α : Type} (m : Reading σ α) (asks : List Ask) : Prop :=
  ∀ s, (∃ a vals t, m s = (.ok a, t) ∧ rd.answers asks s = (.ok vals, t)) ∨
    ∃ fault t, m s = (.error fault, t) ∧ rd.answers asks s = (.error fault, t)

section Follows

variable {rd} {α β : Type}

theorem follows_pure (a : α) : rd.Follows (pure a) [] :=
  fun s => Or.inl ⟨a, [], s, rfl, rfl⟩

theorem follows_read (k : Kind) : rd.Follows (rd.read k) [.read k] := by
  intro s
  cases ended : rd.read k s with
  | mk result t =>
    cases result with
    | ok val =>
      have answered : rd.answer (.read k) s = (.ok [⟨k, val⟩], t) := by
        rw [answer, Reading.bind_of_ok ended, Reading.pure_apply]
      exact Or.inl ⟨val, _, t, rfl, by
        rw [answers, Reading.bind_of_ok answered, answers]; rfl⟩
    | error fault =>
      have answered : rd.answer (.read k) s = (.error fault, t) := by
        rw [answer, Reading.bind_of_error ended]
      exact Or.inr ⟨fault, t, rfl, by rw [answers, Reading.bind_of_error answered]⟩

theorem follows_bind {m : Reading σ α} {f : α → Reading σ β} {front rest : List Ask}
    (first : rd.Follows m front) (later : ∀ a, rd.Follows (f a) rest) :
    rd.Follows (m >>= f) (front ++ rest) := by
  intro s
  rcases first s with ⟨a, vals, t, ran, answered⟩ | ⟨fault, t, ran, answered⟩
  · rcases later a t with ⟨b, more, u, ran', answered'⟩ | ⟨fault, u, ran', answered'⟩
    · refine Or.inl ⟨b, vals ++ more, u, ?_, ?_⟩
      · rw [Reading.bind_of_ok ran, ran']
      · rw [answers_append, Reading.bind_of_ok answered, Reading.bind_of_ok answered',
          Reading.pure_apply]
    · refine Or.inr ⟨fault, u, ?_, ?_⟩
      · rw [Reading.bind_of_ok ran, ran']
      · rw [answers_append, Reading.bind_of_ok answered, Reading.bind_of_error answered']
  · refine Or.inr ⟨fault, t, ?_, ?_⟩
    · rw [Reading.bind_of_error ran]
    · rw [answers_append, Reading.bind_of_error answered]

end Follows

/-- The reader answers the calls that correspond to those of a writer with the values
that were written. -/
def Replays : σ → List Call → σ → Prop
  | s, [], t => s = t
  | s, .beginTag tagName :: calls, t =>
    ∃ u, rd.beginTag tagName s = (.ok (), u) ∧ Replays u calls t
  | s, .endTag :: calls, t => ∃ u, rd.endTag s = (.ok (), u) ∧ Replays u calls t
  | s, .beginAttribute attributeName :: calls, t =>
    ∃ u, rd.beginAttribute attributeName s = (.ok (), u) ∧ Replays u calls t
  | s, .endAttribute :: calls, t => ∃ u, rd.endAttribute s = (.ok (), u) ∧ Replays u calls t
  | s, .write k val :: calls, t => ∃ u, rd.read k s = (.ok val, u) ∧ Replays u calls t

variable {rd}

theorem replays_append {s t : σ} {front rest : List Call} :
    rd.Replays s (front ++ rest) t ↔ ∃ u, rd.Replays s front u ∧ rd.Replays u rest t := by
  induction front generalizing s with
  | nil => simp [Replays]
  | cons call front ih =>
    cases call with
    | beginTag | endTag | beginAttribute | endAttribute | write =>
      simp only [List.cons_append, Replays, ih]
      constructor
      · rintro ⟨v, here, u, first, second⟩
        exact ⟨u, ⟨v, here, first⟩, second⟩
      · rintro ⟨u, ⟨v, here, first⟩, second⟩
        exact ⟨v, here, u, first, second⟩

theorem answers_of_replays {s t : σ} {calls : List Call} (replays : rd.Replays s calls t) :
    rd.answers (calls.map Call.ask) s = (.ok (values calls), t) := by
  induction calls generalizing s with
  | nil =>
    obtain rfl : s = t := replays
    rfl
  | cons call calls ih =>
    cases call with
    | beginTag | endTag | beginAttribute | endAttribute | write =>
      obtain ⟨u, here, later⟩ := replays
      rw [List.map_cons, Call.ask, answers,
        Reading.bind_of_ok (m := rd.answer _) (by rw [answer, Reading.bind_of_ok here]; rfl),
        Reading.bind_of_ok (ih later)]
      rfl

end ObjectReader

end VRJuggler.Io
