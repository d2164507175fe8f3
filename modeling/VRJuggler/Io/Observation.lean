import VRJuggler.Io.ObjectStream

/-!
# What reads can tell apart

The results of a sequence of calls, exceptions included: a program may catch one and go
on. Behind a call without a defined result there is nothing more to see.
-/
namespace VRJuggler.Io

namespace ObjectReader

variable {σ : Type} (rd : ObjectReader σ)

/-- What the calls return or throw, one after the other. -/
def results : List Ask → σ → List (Except Fault (List Value))
  | [], _ => []
  | ask :: asks, s =>
    if (rd.answer ask s).1 = .error .undefined then [.error .undefined]
    else (rd.answer ask s).1 :: results asks (rd.answer ask s).2

/-- The state behind the calls; `none` when one of them has no defined result. -/
def after : List Ask → σ → Option σ
  | [], s => some s
  | ask :: asks, s =>
    if (rd.answer ask s).1 = .error .undefined then none else after asks (rd.answer ask s).2

/-- No sequence of calls tells the two states apart. -/
def Alike (s t : σ) : Prop := ∀ asks, rd.results asks s = rd.results asks t

variable {rd}

theorem after_cons {s u : σ} {ask : Ask} {asks : List Ask} :
    rd.after (ask :: asks) s = some u ↔
      (rd.answer ask s).1 ≠ .error .undefined ∧ rd.after asks (rd.answer ask s).2 = some u := by
  rw [after]
  split
  · next lost => simp [lost]
  · next defined => simp [defined]

theorem after_append {s u : σ} {front rest : List Ask} :
    rd.after (front ++ rest) s = some u ↔
      ∃ t, rd.after front s = some t ∧ rd.after rest t = some u := by
  induction front generalizing s with
  | nil => simp [after]
  | cons ask front ih =>
    rw [List.cons_append, after_cons, ih]
    constructor
    · rintro ⟨defined, t, first, second⟩
      exact ⟨t, after_cons.mpr ⟨defined, first⟩, second⟩
    · rintro ⟨t, first, second⟩
      obtain ⟨defined, first⟩ := after_cons.mp first
      exact ⟨defined, t, first, second⟩

/-- What holds at first, and is kept by each call with a result, holds behind the calls. -/
theorem after_induction (inv : σ → Prop)
    (keeps : ∀ s ask, inv s → (rd.answer ask s).1 ≠ .error .undefined → inv (rd.answer ask s).2)
    {asks : List Ask} {s t : σ} (start : inv s) (ended : rd.after asks s = some t) : inv t := by
  induction asks generalizing s with
  | nil =>
    obtain rfl := Option.some.inj ended
    exact start
  | cons ask asks ih =>
    obtain ⟨defined, later⟩ := after_cons.mp ended
    exact ih (keeps s ask start defined) later

theorem alike_refl (s : σ) : rd.Alike s s := fun _ => rfl

theorem Alike.symm {s t : σ} (alike : rd.Alike s t) : rd.Alike t s := fun asks => (alike asks).symm

theorem Alike.trans {s t u : σ} (first : rd.Alike s t) (second : rd.Alike t u) : rd.Alike s u :=
  fun asks => (first asks).trans (second asks)

/-- The first call has the same result in both states. -/
theorem Alike.answer {s t : σ} (alike : rd.Alike s t) (ask : Ask) :
    (rd.answer ask s).1 = (rd.answer ask t).1 := by
  have first := alike [ask]
  simp only [results] at first
  split at first
  · next lost =>
    split at first
    · next lost' => rw [lost, lost']
    · next defined => exact absurd (List.cons.inj first).1.symm defined
  · next defined =>
    split at first
    · next lost => exact absurd (List.cons.inj first).1 defined
    · exact (List.cons.inj first).1

/-- Behind a call that has a result the states are still alike. -/
theorem Alike.later {s t : σ} (alike : rd.Alike s t) {ask : Ask}
    (defined : (rd.answer ask s).1 ≠ .error .undefined) :
    rd.Alike (rd.answer ask s).2 (rd.answer ask t).2 := by
  intro asks
  have whole := alike (ask :: asks)
  rw [results, results, if_neg defined, if_neg (alike.answer ask ▸ defined)] at whole
  exact (List.cons.inj whole).2

theorem Alike.after {s t u : σ} (alike : rd.Alike s t) {asks : List Ask}
    (ended : rd.after asks s = some u) : ∃ v, rd.after asks t = some v ∧ rd.Alike u v := by
  induction asks generalizing s t with
  | nil =>
    obtain rfl := Option.some.inj ended
    exact ⟨t, rfl, alike⟩
  | cons ask asks ih =>
    obtain ⟨defined, later⟩ := after_cons.mp ended
    obtain ⟨v, ended, alike'⟩ := ih (alike.later defined) later
    exact ⟨v, after_cons.mpr ⟨alike.answer ask ▸ defined, ended⟩, alike'⟩

/-- States are alike that a relation connects which each call respects. -/
theorem alike_of_related (rel : σ → σ → Prop)
    (step : ∀ s t ask, rel s t → (rd.answer ask s).1 = (rd.answer ask t).1 ∧
      ((rd.answer ask s).1 ≠ .error .undefined → rel (rd.answer ask s).2 (rd.answer ask t).2))
    {s t : σ} (related : rel s t) : rd.Alike s t := by
  intro asks
  induction asks generalizing s t with
  | nil => rfl
  | cons ask asks ih =>
    obtain ⟨same, later⟩ := step s t ask related
    rw [results, results, ← same]
    split
    · rfl
    · next defined => rw [ih (later defined)]

/-- The result of a read is the value, or the exception. -/
theorem answer_read (k : Kind) (s : σ) :
    rd.answer (.read k) s = ((rd.read k s).1.map fun val => [⟨k, val⟩], (rd.read k s).2) := by
  rw [answer, Reading.bind_apply]
  cases rd.read k s with
  | mk result t => cases result with | ok val | error fault => rfl

/-- The other calls return nothing, or throw. -/
theorem answer_of_unit {m : Reading σ Unit} (s : σ) :
    (do m; pure ([] : List Value)) s = ((m s).1.map fun _ => [], (m s).2) := by
  rw [Reading.bind_apply]
  cases m s with
  | mk result t => cases result with | ok _ | error fault => rfl

theorem answer_beginTag (tagName : String) (s : σ) :
    rd.answer (.beginTag tagName) s =
      ((rd.beginTag tagName s).1.map fun _ => [], (rd.beginTag tagName s).2) :=
  answer_of_unit s

theorem answer_endTag (s : σ) :
    rd.answer .endTag s = ((rd.endTag s).1.map fun _ => [], (rd.endTag s).2) :=
  answer_of_unit s

theorem answer_beginAttribute (attributeName : String) (s : σ) :
    rd.answer (.beginAttribute attributeName) s =
      ((rd.beginAttribute attributeName s).1.map fun _ => [],
        (rd.beginAttribute attributeName s).2) :=
  answer_of_unit s

/-- A reader of which only reads have a result. -/
def OnlyReads (rd : ObjectReader σ) : Prop :=
  ∀ ask s, (∀ k, ask ≠ .read k) → (rd.answer ask s).1 = .error .undefined

/-- Then states are alike that no sequence of reads tells apart. -/
theorem alike_of_reads (only : rd.OnlyReads) {s t : σ}
    (reads : ∀ kinds : List Kind,
      rd.results (kinds.map Ask.read) s = rd.results (kinds.map Ask.read) t) :
    rd.Alike s t := by
  refine alike_of_related (fun s t => ∀ kinds : List Kind,
    rd.results (kinds.map Ask.read) s = rd.results (kinds.map Ask.read) t) ?_ reads
  intro s t ask reads
  cases ask with
  | beginTag | endTag | beginAttribute | endAttribute =>
    refine ⟨(only _ s ?_).trans (only _ t ?_).symm, fun defined => absurd (only _ s ?_) defined⟩
    all_goals
      intro k same
      cases same
  | read k =>
    have first := reads [k]
    have whole (kinds : List Kind) := reads (k :: kinds)
    simp only [List.map_cons, List.map_nil, results] at first whole
    by_cases lost : (rd.answer (.read k) s).1 = .error .undefined
    · rw [if_pos lost] at first
      split at first
      · next lost' => exact ⟨lost.trans lost'.symm, fun defined => absurd lost defined⟩
      · next defined => exact absurd (List.cons.inj first).1.symm defined
    · rw [if_neg lost] at first
      split at first
      · exact absurd (List.cons.inj first).1 lost
      · next defined =>
        refine ⟨(List.cons.inj first).1, fun _ kinds => ?_⟩
        have both := whole kinds
        rw [if_neg lost, if_neg defined] at both
        exact (List.cons.inj both).2

end ObjectReader

end VRJuggler.Io
