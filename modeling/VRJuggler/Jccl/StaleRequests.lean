import Mathlib.Data.List.InsertIdx
import VRJuggler.Jccl.KeyedActive

/-!
# The test for a stale pending list

`shouldCheckPending` tells from the size of the pending list and from a counter whether the
list has changed. The requests that one handler has been offered are followed, to compare what
the test leaves out with what has been looked at.
-/
namespace VRJuggler.Jccl

open ConfigManager

/-- How a pending request stands with a handler. -/
inductive Mark where
  /-- It came in, and has not been offered. -/
  | merged
  /-- A scan put it there, and it has not been offered. -/
  | found
  | offered
  deriving DecidableEq

variable {reg : Registered} {i : Nat} {s t : ConfigManager} {marks : List Mark} {o : Operation}

/-! ## Definitions -/

/-- The handler `mElementHandlers[i]` is at work. -/
def AtWork (reg : Registered) (i : Nat) (s : ConfigManager) : Prop :=
  s.handling.length + i = reg.mElementHandlers.length

instance : Decidable (AtWork reg i s) := inferInstanceAs (Decidable (_ = _))

/-- The marks of the pending requests after a step, for the handler `mElementHandlers[i]`. -/
def marksAfter (reg : Registered) (i : Nat) (s : ConfigManager) (marks : List Mark) :
    Operation → List Mark
  | .attemptReconfiguration => marks ++ s.mIncomingConfig.map fun _ => .merged
  | .visit accepted =>
    let marks := if AtWork reg i s then marks.set s.visited.length .offered else marks
    -- a request that any handler processes leaves the list
    if (s.processed reg (.visit accepted)).isSome then marks.eraseIdx s.visited.length else marks
  | .finish => marks ++ ((s.foundLost reg .finish).flatMap lostPair).map fun _ => .found
  | _ => marks

/-- A step of the manager, where the marks are followed. -/
def offer (reg : Registered) (i : Nat) (state : ConfigManager × List Mark) (o : Operation) :
    Option (ConfigManager × List Mark) :=
  (step reg state.1 o).map fun t => (t, marksAfter reg i state.1 state.2 o)

/-- What the test answers at the beginning of a call. -/
def Stale (s : ConfigManager) : Prop := s.mergeIncomingToPending.shouldCheckPending.1 = false

/-- No request is left out before the handler was offered it. -/
structure NoneSkipped (reg : Registered) (i : Nat) (os : List Operation) : Prop where
  /-- The test leaves no list out that holds a request which the handler was not offered. -/
  tested : ∀ front s marks, front ++ [.attemptReconfiguration] <+: os →
    run (offer reg i) (.initial, []) front = some (s, marks) → s.handling = [] → Stale s →
      s.mIncomingConfig = [] ∧ ∀ mark ∈ marks, mark = .offered
  /-- When a call returns, the handler was offered all that had come in before the call. -/
  merged : ∀ front s marks, front <+: os →
    run (offer reg i) (.initial, []) front = some (s, marks) → s.handling = [] →
      .merged ∉ marks

/-- Where requests have come in, the call finds the size of the list changed, or it has not
found it unchanged often enough. -/
def Noticed (s : ConfigManager) (o : Operation) : Prop :=
  o = .attemptReconfiguration → s.mIncomingConfig ≠ [] →
    s.mPendingConfig.length + s.mIncomingConfig.length ≠ s.mLastPendingSize ∨
      s.mPendingCheckCount < pending_repeat_limit

instance : Decidable (Noticed s o) := inferInstanceAs (Decidable (_ → _ → _ ∨ _))

/-! ## The test -/

theorem stale_iff : Stale s ↔
    s.mPendingConfig.length + s.mIncomingConfig.length = s.mLastPendingSize ∧
      pending_repeat_limit ≤ s.mPendingCheckCount := by
  have size : s.mergeIncomingToPending.mPendingConfig.length =
      s.mPendingConfig.length + s.mIncomingConfig.length := by
    simp only [mergeIncomingToPending, mPendingConfig, List.length_append, Nat.add_assoc]
  unfold Stale shouldCheckPending
  simp only [size]
  split
  · next changed =>
    simp only [Bool.true_eq_false, false_iff]
    exact fun both => changed both.1
  · next same =>
    have same : s.mPendingConfig.length + s.mIncomingConfig.length = s.mLastPendingSize :=
      Decidable.not_not.mp same
    rw [and_iff_right same]
    show (if s.mPendingCheckCount < pending_repeat_limit then _ else _ :
      Bool × ConfigManager).1 = false ↔ _
    split
    · next below => simpa using below
    · next reached =>
      -- whether the stale list is reported or has been before, it is left out
      simp only [Nat.not_lt.mp reached, iff_true]
      split <;> rfl

/-- What a scan has found makes the list fresh. -/
theorem Stale.counted (stale : Stale s) : s.mPendingCheckCount ≠ 0 := by
  intro none
  have limit := (stale_iff.mp stale).2
  rw [none] at limit
  exact absurd limit (by decide)

theorem noticed_iff :
    Noticed s o ↔ (o = .attemptReconfiguration → Stale s → s.mIncomingConfig = []) := by
  rw [stale_iff]
  unfold Noticed
  constructor
  · intro noticed begins stale
    by_contra comes
    rcases noticed begins comes with changed | below
    · exact changed stale.1
    · exact absurd stale.2 (Nat.not_le.mpr below)
  · intro quiet begins comes
    by_contra missed
    rw [not_or, not_not, Nat.not_lt] at missed
    exact comes (quiet begins missed)

/-! ## Marks -/

/-- The handler has been offered what it has walked along, and after its walk it lacks only
what scans have found since, which makes the list fresh. -/
structure Marked (reg : Registered) (i : Nat) (state : ConfigManager × List Mark) : Prop where
  each : state.2.length = state.1.mPendingConfig.length
  walked : AtWork reg i state.1 → ∀ mark ∈ state.2.take state.1.visited.length, mark = .offered
  after : state.1.handling.length + i < reg.mElementHandlers.length →
    ∀ mark ∈ state.2, mark = .offered ∨ mark = .found ∧ state.1.mPendingCheckCount = 0

theorem marked_initial : Marked reg i (.initial, []) where
  each := rfl
  walked := fun _ _ member => absurd member List.not_mem_nil
  after := fun _ _ member => absurd member List.not_mem_nil

section Moves

variable (kept : Marked reg i (s, marks))
include kept

/-- A call begins. -/
theorem marked_began (registered : i < reg.mElementHandlers.length)
    (idle : s.handling = []) {mPendingCheckCount mLastPendingSize : Nat} {check : Bool}
    (checked : s.mergeIncomingToPending.shouldCheckPending =
      (check, { s.mergeIncomingToPending with mPendingCheckCount, mLastPendingSize }))
    (noticed : Noticed s .attemptReconfiguration) :
    Marked reg i
      ({ s with
          visited := []
          remaining := s.mPendingConfig ++ s.mIncomingConfig
          mIncomingConfig := []
          mPendingCheckCount
          mLastPendingSize
          handling := if check then reg.mElementHandlers else []
          elements_processed := 0 },
        marks ++ s.mIncomingConfig.map fun _ => .merged) where
  each := by
    have each : marks.length = s.mPendingConfig.length := kept.each
    rw [List.length_append, List.length_map, each]
    simp only [mPendingConfig, List.nil_append, List.length_append]
  walked := by
    intro _ mark member
    exact absurd member (by simp)
  after := by
    intro later mark member
    cases check with
    | true =>
      -- all handlers are still to work
      rw [if_pos rfl] at later
      exact absurd later (Nat.not_lt.mpr (Nat.le_add_right _ _))
    | false =>
      have stale : Stale s := congrArg Prod.fst checked
      have none : s.mIncomingConfig = [] := noticed_iff.mp noticed rfl stale
      simp only [none, List.map_nil, List.append_nil] at member
      have before : s.handling.length + i < reg.mElementHandlers.length := by
        rw [idle]
        simpa using registered
      rcases kept.after before mark member with done | ⟨-, fresh⟩
      · exact Or.inl done
      · exact absurd fresh stale.counted

/-- The request at `current` stays pending. -/
theorem marked_passed {cur : PendingElement} {rest : List PendingElement}
    (here : s.remaining = cur :: rest) :
    Marked reg i
      ({ s with visited := s.visited ++ [cur], remaining := rest },
        if AtWork reg i s then marks.set s.visited.length .offered else marks) where
  each := by
    have each : marks.length = s.mPendingConfig.length := kept.each
    have length : (if AtWork reg i s then marks.set s.visited.length .offered else marks).length =
        marks.length := by
      split
      · exact List.length_set
      · rfl
    rw [length, each]
    simp only [mPendingConfig, here, List.append_assoc, List.singleton_append]
  walked := by
    intro works mark member
    have works : AtWork reg i s := works
    rw [if_pos works, List.length_append, List.length_singleton] at member
    obtain ⟨k, bound, rfl⟩ := List.mem_take_iff_getElem.mp member
    rw [List.length_set] at bound
    rw [List.getElem_set]
    split
    · rfl
    · next different =>
      -- the mark is one of those before `current`
      apply kept.walked works
      refine List.mem_take_iff_getElem.mpr ⟨k, ?_, rfl⟩
      show k < min s.visited.length marks.length
      omega
  after := by
    intro later mark member
    have later : s.handling.length + i < reg.mElementHandlers.length := later
    have idle : ¬ AtWork reg i s := Nat.ne_of_lt later
    rw [if_neg idle] at member
    exact kept.after later mark member

/-- The request at `current` is processed. -/
theorem marked_processed {cur : PendingElement} {rest : List PendingElement}
    {mActiveConfig : List ConfigElement} {scan_for_lost_dependants : Bool}
    (here : s.remaining = cur :: rest) :
    Marked reg i
      ({ s with
          mActiveConfig
          remaining := rest
          scan_for_lost_dependants
          elements_processed := s.elements_processed + 1 },
        (if AtWork reg i s then marks.set s.visited.length .offered else marks).eraseIdx
          s.visited.length) where
  each := by
    have each : marks.length = s.visited.length + (rest.length + 1) := by
      rw [← List.length_cons, ← here, ← List.length_append]
      exact kept.each
    have length : (if AtWork reg i s then marks.set s.visited.length .offered else marks).length =
        marks.length := by
      split
      · exact List.length_set
      · rfl
    rw [List.length_eraseIdx_of_lt (by omega), length, each]
    simp only [mPendingConfig, List.length_append]
    omega
  walked := by
    intro works mark member
    have works : AtWork reg i s := works
    rw [if_pos works, List.take_eraseIdx_eq_take_of_le _ _ _ (Nat.le_refl _),
      List.take_set_of_le (Nat.le_refl _)] at member
    exact kept.walked works mark member
  after := by
    intro later mark member
    have later : s.handling.length + i < reg.mElementHandlers.length := later
    have idle : ¬ AtWork reg i s := Nat.ne_of_lt later
    rw [if_neg idle] at member
    exact kept.after later mark (List.mem_of_mem_eraseIdx member)

/-- A walk ends, and what its scan finds is pending for the next one. -/
theorem marked_finished {handler : ConfigElementHandler} {others : List ConfigElementHandler}
    (walks : s.handling = handler :: others) (ended : s.remaining = [])
    (elements : List ConfigElement) :
    Marked reg i
      ({ s with
          visited := []
          remaining := s.visited ++ elements.flatMap lostPair
          mPendingCheckCount := if elements.isEmpty then s.mPendingCheckCount else 0
          handling := others
          scan_for_lost_dependants := false },
        marks ++ (elements.flatMap lostPair).map fun _ => .found) where
  each := by
    have each : marks.length = s.mPendingConfig.length := kept.each
    rw [List.length_append, List.length_map, each]
    simp only [mPendingConfig, ended, List.nil_append, List.append_nil, List.length_append]
  walked := by
    intro _ mark member
    exact absurd member (by simp)
  after := by
    intro later mark member
    have more : s.handling.length = others.length + 1 := by rw [walks, List.length_cons]
    have later : others.length + i < reg.mElementHandlers.length := later
    show _ ∨ _ ∧ (if elements.isEmpty then s.mPendingCheckCount else 0) = 0
    rcases List.mem_append.mp member with old | new
    · -- the walk that ends is that of the handler, or one after it
      by_cases works : AtWork reg i s
      · have whole : marks.take s.visited.length = marks := by
          have each : marks.length = s.mPendingConfig.length := kept.each
          apply List.take_of_length_le
          exact Nat.le_of_eq (by rw [each, mPendingConfig, ended, List.append_nil])
        exact Or.inl (kept.walked works mark (whole.symm ▸ old))
      · have before : s.handling.length + i < reg.mElementHandlers.length := by
          have works : s.handling.length + i ≠ reg.mElementHandlers.length := works
          omega
        rcases kept.after before mark old with done | ⟨found, fresh⟩
        · exact Or.inl done
        · refine Or.inr ⟨found, ?_⟩
          split
          · exact fresh
          · rfl
    · obtain ⟨p, pair, rfl⟩ := List.mem_map.mp new
      refine Or.inr ⟨rfl, ?_⟩
      cases elements with
      | nil => cases pair
      | cons e elements => rfl

/-- What a step keeps of the marks. -/
theorem marked_step (registered : i < reg.mElementHandlers.length) (noticed : Noticed s o)
    (stepped : step reg s o = some t) : Marked reg i (t, marksAfter reg i s marks o) := by
  cases move_of_step stepped with
  | requested => exact ⟨kept.each, kept.walked, kept.after⟩
  | refreshed =>
    refine ⟨kept.each, kept.walked, ?_⟩
    intro later mark member
    rcases kept.after later mark member with done | ⟨found, -⟩
    · exact Or.inl done
    · exact Or.inr ⟨found, rfl⟩
  | began idle _ _ _ checked => exact marked_began kept registered idle checked noticed
  | passed walks here refused =>
    rw [marksAfter, processed_eq_none walks here refused]
    exact marked_passed kept here
  | activated walks here handles satisfied =>
    rw [marksAfter, processed_eq walks here handles (Or.inr satisfied)]
    exact marked_processed kept here
  | deactivated walks here handles =>
    rw [marksAfter, processed_eq walks here handles (Or.inl rfl)]
    exact marked_processed kept here
  | scanned walks ended scans =>
    rw [marksAfter, foundLost, if_pos scans]
    exact marked_finished kept walks ended (s.lost reg)
  | finished walks ended scans =>
    rw [marksAfter, foundLost, scans]
    simpa [scans] using marked_finished kept walks ended []

end Moves

/-! ## Runs -/

theorem step_of_offer {state state' : ConfigManager × List Mark}
    (offered : offer reg i state o = some state') :
    step reg state.1 o = some state'.1 ∧ state'.2 = marksAfter reg i state.1 state.2 o := by
  obtain ⟨u, stepped, rfl⟩ := Option.map_eq_some_iff.mp offered
  exact ⟨stepped, rfl⟩

theorem map_offer (state : ConfigManager × List Mark) (o : Operation) :
    (offer reg i state o).map Prod.fst = step reg state.1 o := by
  rw [offer, Option.map_map]
  exact Option.map_id_fun' ▸ rfl

theorem marked_run (registered : i < reg.mElementHandlers.length) {os : List Operation}
    {state : ConfigManager × List Mark}
    (meets : Meets (offer reg i) (fun state => Noticed state.1) (.initial, []) os)
    (reached : run (offer reg i) (.initial, []) os = some state) : Marked reg i state := by
  refine run_invariant_of_meets (Marked reg i) _ ?_ marked_initial meets reached
  rintro state o ⟨u, marks⟩ kept noticed offered
  obtain ⟨stepped, rfl⟩ := step_of_offer offered
  exact marked_step kept registered noticed stepped

variable (reg) in
/-- No request is left out before a handler was offered it just when every call that merges
requests finds the size of the pending list changed, or the counter below its limit. -/
theorem none_skipped_iff (registered : i < reg.mElementHandlers.length) (os : List Operation) :
    NoneSkipped reg i os ↔ Meets (step reg) Noticed .initial os := by
  have follow : Meets (offer reg i) (fun state => Noticed state.1) (.initial, []) os ↔
      Meets (step reg) Noticed .initial os := meets_watch Prod.fst map_offer
  rw [← follow]
  constructor
  · rintro ⟨tested, -⟩
    apply meets_iff_forall.mpr
    rintro front o ⟨s, marks⟩ ⟨t, marks'⟩ part here offered
    apply noticed_iff.mpr
    rintro rfl stale
    -- a call begins when the one before has returned
    have idle : s.handling = [] := by
      cases move_of_step (step_of_offer offered).1 with
      | began idle => exact idle
    exact (tested front s marks part here idle stale).1
  · intro meets
    have marked {front : List Operation} {s : ConfigManager} {marks : List Mark}
        (part : front <+: os) (here : run (offer reg i) (.initial, []) front = some (s, marks))
        (idle : s.handling = []) :
        ∀ mark ∈ marks, mark = .offered ∨ mark = .found ∧ s.mPendingCheckCount = 0 := by
      apply (marked_run registered (meets_of_front meets part) here).after
      simpa [idle] using registered
    constructor
    · intro front s marks part here idle stale
      have before : front <+: os := (List.prefix_append _ _).trans part
      constructor
      · have begins : offer reg i (s, marks) .attemptReconfiguration =
            some (s.attemptReconfiguration reg, marksAfter reg i s marks .attemptReconfiguration) :=
          by rw [offer, step, if_pos (List.isEmpty_iff.mpr idle), Option.map_some]
        have noticed := allowed_of_meets meets part here begins
        exact noticed_iff.mp noticed rfl stale
      · intro mark member
        rcases marked before here idle mark member with done | ⟨-, fresh⟩
        · exact done
        · exact absurd fresh stale.counted
    · intro front s marks part here idle member
      rcases marked part here idle .merged member with done | ⟨found, -⟩
      · cases done
      · cases found

/-- Requests one by one, each processed in the call that merges it. -/
def oneByOne : List String → List Operation :=
  List.flatMap fun name => .addConfiguration .ADD [element name []] :: call 1

theorem none_skipped_oneByOne : NoneSkipped oneHandler 0 (oneByOne ["a", "b", "c", "d"]) :=
  (none_skipped_iff oneHandler (i := 0) (by decide) _).mpr (by decide)

/-- After four such calls, the fifth request is not offered in the call that merges it, nor in
the next one. -/
theorem none_skipped_fails :
    ¬ NoneSkipped oneHandler 0
      (oneByOne ["a", "b", "c", "d"] ++ [.addConfiguration .ADD [element "e" []],
        .attemptReconfiguration]) ∧
    ∃ t, run (offer oneHandler 0) (.initial, [])
        (oneByOne ["a", "b", "c", "d"] ++ [.addConfiguration .ADD [element "e" []],
          .attemptReconfiguration, .attemptReconfiguration]) = some (t, [.merged]) ∧
      t.handling = [] ∧ t.mPendingConfig = [⟨.ADD, element "e" []⟩] := by
  refine ⟨?_, _, rfl, rfl, rfl⟩
  intro skipped
  exact skipped.merged _ _ [.merged] (List.prefix_refl _) rfl rfl (List.mem_singleton_self _)

end VRJuggler.Jccl
