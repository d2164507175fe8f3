import VRJuggler.Jccl.ConfigManager

/-!
# The steps of the configuration manager

What each step does to the lists of elements and requests, case by case.
-/
namespace VRJuggler.Jccl

variable {reg : Registered} {s : ConfigManager}

/-! ## Requests -/

namespace PendingElement

/-- A request to add an element of this name. -/
def Adds (name : String) (p : PendingElement) : Prop := p.mType = .ADD ∧ p.mElement.name = name

/-- A request to remove the element of this name. -/
def Removes (name : String) (p : PendingElement) : Prop :=
  p.mType = .REMOVE ∧ p.mElement.name = name

instance (name : String) (p : PendingElement) : Decidable (p.Adds name) :=
  inferInstanceAs (Decidable (_ ∧ _))

instance (name : String) (p : PendingElement) : Decidable (p.Removes name) :=
  inferInstanceAs (Decidable (_ ∧ _))

end PendingElement

/-- The requests that an operation makes. -/
def Operation.requests : Operation → List PendingElement
  | .addConfiguration mType cfg => cfg.map (PendingElement.mk mType)
  | _ => []

/-! ## Lost dependencies -/

/-- The two requests for an element that has lost a dependency. -/
def lostPair (element : ConfigElement) : List PendingElement :=
  [⟨.REMOVE, element⟩, ⟨.ADD, element⟩]

namespace ConfigManager

variable (reg s) in
/-- The active elements without their dependencies. -/
def lost : List ConfigElement := s.mActiveConfig.filter fun element => !reg.isSatisfied s element

theorem mem_lost {element : ConfigElement} :
    element ∈ s.lost reg ↔ element ∈ s.mActiveConfig ∧ reg.isSatisfied s element = false := by
  rw [lost, List.mem_filter, Bool.not_eq_true']

theorem isElementInActiveList_iff {name : String} :
    s.isElementInActiveList name = true ↔ ∃ e ∈ s.mActiveConfig, e.name = name := by
  simp only [isElementInActiveList, List.any_eq_true, beq_iff_eq]

theorem scanForLostDependencies_eq :
    s.scanForLostDependencies reg = { s with
      remaining := s.remaining ++ (s.lost reg).flatMap lostPair
      mPendingCheckCount := if (s.lost reg).isEmpty then s.mPendingCheckCount else 0 } := by
  have loop (elements : List ConfigElement) (t : ConfigManager)
      (same : t.mActiveConfig = s.mActiveConfig) :
      elements.foldl (fun t element =>
          if reg.isSatisfied t element then t
          else (t.addPending ⟨.REMOVE, element⟩).addPending ⟨.ADD, element⟩) t =
        { t with
          remaining := t.remaining ++
            (elements.filter fun element => !reg.isSatisfied s element).flatMap lostPair
          mPendingCheckCount :=
            if (elements.filter fun element => !reg.isSatisfied s element).isEmpty then
              t.mPendingCheckCount
            else 0 } := by
    induction elements generalizing t with
    | nil => simp
    | cons element elements ih =>
      have agree : reg.isSatisfied t element = reg.isSatisfied s element := by
        unfold Registered.isSatisfied isElementInActiveList
        rw [same]
      rw [List.foldl_cons, agree]
      cases satisfied : reg.isSatisfied s element with
      | true => simp [ih t same, satisfied]
      | false =>
        rw [if_neg (by decide), ih _ (by exact same)]
        simp [satisfied, addPending, refreshPendingList, lostPair]
  exact loop s.mActiveConfig s rfl

theorem shouldCheckPending_snd : s.shouldCheckPending.2 = { s with
    mPendingCheckCount := s.shouldCheckPending.2.mPendingCheckCount
    mLastPendingSize := s.shouldCheckPending.2.mLastPendingSize } := by
  by_cases changed : s.mPendingConfig.length ≠ s.mLastPendingSize
  · simp only [shouldCheckPending, if_pos changed]
  by_cases below : s.mPendingCheckCount < pending_repeat_limit
  · simp only [shouldCheckPending, if_neg changed, if_pos below]
  by_cases at' : s.mPendingCheckCount = pending_repeat_limit
  · simp only [shouldCheckPending, if_neg changed, if_neg below, if_pos at']
  · simp only [shouldCheckPending, if_neg changed, if_neg below, if_neg at']

/-- Whether the pending requests are looked at, and the counters then. -/
theorem attemptReconfiguration_eq : s.attemptReconfiguration reg = { s with
    visited := []
    remaining := s.mPendingConfig ++ s.mIncomingConfig
    mIncomingConfig := []
    mPendingCheckCount := s.mergeIncomingToPending.shouldCheckPending.2.mPendingCheckCount
    mLastPendingSize := s.mergeIncomingToPending.shouldCheckPending.2.mLastPendingSize
    handling :=
      if s.mergeIncomingToPending.shouldCheckPending.1 then reg.mElementHandlers else []
    elements_processed := 0 } := by
  unfold attemptReconfiguration
  have counters := shouldCheckPending_snd (s := s.mergeIncomingToPending)
  generalize s.mergeIncomingToPending.shouldCheckPending = checked at counters
  obtain ⟨check, t⟩ := checked
  simp only at counters
  rw [counters]
  simp only [rewind, mPendingConfig, mergeIncomingToPending, List.append_assoc]

/-! ## One step -/

variable (reg s) in
/-- The request that the step processes. -/
def processed : Operation → Option PendingElement
  | .visit true =>
    match s.handling, s.remaining with
    | handler :: _, cur :: _ =>
      if handler.configCanHandle cur.mElement ∧
          (cur.mType = .REMOVE ∨ reg.isSatisfied s cur.mElement) then some cur
      else none
    | _, _ => none
  | _ => none

variable (reg s) in
/-- The elements that the step finds without their dependencies. -/
def foundLost : Operation → List ConfigElement
  | .finish => if s.scan_for_lost_dependants then s.lost reg else []
  | _ => []

end ConfigManager

namespace ConfigManager

theorem processed_eq {handler : ConfigElementHandler} {others : List ConfigElementHandler}
    {cur : PendingElement} {rest : List PendingElement} (walks : s.handling = handler :: others)
    (here : s.remaining = cur :: rest) (handles : handler.configCanHandle cur.mElement = true)
    (able : cur.mType = .REMOVE ∨ reg.isSatisfied s cur.mElement = true) :
    s.processed reg (.visit true) = some cur := by
  simp only [processed, walks, here]
  rw [if_pos ⟨handles, able⟩]

theorem processed_eq_none {accepted : Bool} {handler : ConfigElementHandler}
    {others : List ConfigElementHandler} {cur : PendingElement} {rest : List PendingElement}
    (walks : s.handling = handler :: others) (here : s.remaining = cur :: rest)
    (refused : handler.configCanHandle cur.mElement = true →
      cur.mType = .REMOVE ∨ reg.isSatisfied s cur.mElement = true → accepted = false) :
    s.processed reg (.visit accepted) = none := by
  cases accepted with
  | false => rfl
  | true =>
    simp only [processed, walks, here]
    exact if_neg fun able => Bool.noConfusion (refused able.1 able.2)

/-- A request that is processed is the one at `current`, and the handler at work takes it. -/
theorem of_processed {o : Operation} {p : PendingElement} (taken : s.processed reg o = some p) :
    o = .visit true ∧ s.remaining.head? = some p ∧
      (p.mType = .REMOVE ∨ reg.isSatisfied s p.mElement = true) := by
  unfold processed at taken
  split at taken
  · split at taken
    · next handler others cur rest walks here =>
      split at taken
      · next able =>
        obtain rfl := Option.some.inj taken
        rw [here]
        exact ⟨rfl, rfl, able.2⟩
      · cases taken
    · cases taken
  · cases taken

end ConfigManager

open ConfigManager

variable (reg s) in
/-- A step, by what it does. -/
inductive Move : Operation → ConfigManager → Prop where
  | requested (mType : PendingType) (cfg : List ConfigElement) :
    Move (.addConfiguration mType cfg) (s.addConfiguration mType cfg)
  | refreshed : Move .refreshPendingList s.refreshPendingList
  | began (idle : s.handling = []) (mPendingCheckCount mLastPendingSize : Nat) (check : Bool)
    (checked : s.mergeIncomingToPending.shouldCheckPending =
      (check, { s.mergeIncomingToPending with mPendingCheckCount, mLastPendingSize })) :
    Move .attemptReconfiguration
      { s with
        visited := []
        remaining := s.mPendingConfig ++ s.mIncomingConfig
        mIncomingConfig := []
        mPendingCheckCount
        mLastPendingSize
        handling := if check then reg.mElementHandlers else []
        elements_processed := 0 }
  | passed {accepted : Bool} {handler : ConfigElementHandler} {others : List ConfigElementHandler}
    {cur : PendingElement} {rest : List PendingElement} (walks : s.handling = handler :: others)
    (here : s.remaining = cur :: rest)
    (refused : handler.configCanHandle cur.mElement = true →
      cur.mType = .REMOVE ∨ reg.isSatisfied s cur.mElement = true → accepted = false) :
    Move (.visit accepted) { s with visited := s.visited ++ [cur], remaining := rest }
  | activated {handler : ConfigElementHandler} {others : List ConfigElementHandler}
    {element : ConfigElement} {rest : List PendingElement} (walks : s.handling = handler :: others)
    (here : s.remaining = ⟨.ADD, element⟩ :: rest)
    (handles : handler.configCanHandle element = true)
    (satisfied : reg.isSatisfied s element = true) :
    Move (.visit true)
      { s with
        mActiveConfig := s.mActiveConfig ++ [element]
        remaining := rest
        elements_processed := s.elements_processed + 1 }
  | deactivated {handler : ConfigElementHandler} {others : List ConfigElementHandler}
    {element : ConfigElement} {rest : List PendingElement} (walks : s.handling = handler :: others)
    (here : s.remaining = ⟨.REMOVE, element⟩ :: rest)
    (handles : handler.configCanHandle element = true) :
    Move (.visit true)
      { s with
        mActiveConfig := Configuration.remove s.mActiveConfig element.name
        remaining := rest
        scan_for_lost_dependants := true
        elements_processed := s.elements_processed + 1 }
  | scanned {handler : ConfigElementHandler} {others : List ConfigElementHandler}
    (walks : s.handling = handler :: others) (ended : s.remaining = [])
    (scans : s.scan_for_lost_dependants = true) :
    Move .finish
      { s with
        visited := []
        remaining := s.visited ++ (s.lost reg).flatMap lostPair
        mPendingCheckCount := if (s.lost reg).isEmpty then s.mPendingCheckCount else 0
        handling := others
        scan_for_lost_dependants := false }
  | finished {handler : ConfigElementHandler} {others : List ConfigElementHandler}
    (walks : s.handling = handler :: others) (ended : s.remaining = [])
    (scans : s.scan_for_lost_dependants = false) :
    Move .finish { s with visited := [], remaining := s.visited, handling := others }

theorem move_of_visit {t : ConfigManager} {accepted : Bool}
    (stepped : s.visit reg accepted = some t) : Move reg s (.visit accepted) t := by
  unfold visit at stepped
  split at stepped
  · next handler others cur rest walks here =>
    have past : s.advance = { s with visited := s.visited ++ [cur], remaining := rest } := by
      simp only [advance, here, List.head?_cons, Option.toList_some, List.tail_cons]
    obtain ⟨mType, element⟩ := cur
    split at stepped
    · next handles =>
      cases mType with
      | ADD =>
        simp only at stepped
        split at stepped
        · next satisfied =>
          cases accepted with
          | true =>
            obtain rfl := Option.some.inj stepped
            simp only [addActive, removePending, here, List.tail_cons]
            exact .activated walks here handles satisfied
          | false =>
            obtain rfl := Option.some.inj stepped
            rw [past]
            exact .passed walks here fun _ _ => rfl
        · next unsatisfied =>
          obtain rfl := Option.some.inj stepped
          rw [past]
          refine .passed walks here fun _ able => ?_
          rcases able with removal | satisfied
          · cases removal
          · exact absurd satisfied unsatisfied
      | REMOVE =>
        simp only at stepped
        cases accepted with
        | true =>
          obtain rfl := Option.some.inj stepped
          simp only [removeActive, removePending, here, List.tail_cons]
          exact .deactivated walks here handles
        | false =>
          obtain rfl := Option.some.inj stepped
          rw [past]
          exact .passed walks here fun _ _ => rfl
    · next foreign =>
      obtain rfl := Option.some.inj stepped
      rw [past]
      exact .passed walks here fun handles => absurd handles foreign
  · cases stepped

theorem move_of_finish {t : ConfigManager} (stepped : s.finish reg = some t) :
    Move reg s .finish t := by
  unfold finish at stepped
  split at stepped
  · next handler others walks ended =>
    obtain rfl := Option.some.inj stepped
    cases scans : s.scan_for_lost_dependants with
    | true =>
      rw [if_pos rfl, scanForLostDependencies_eq]
      simp only [rewind, mPendingConfig, ended, List.nil_append]
      exact .scanned walks ended scans
    | false =>
      simp only [Bool.false_eq_true, if_false, rewind, mPendingConfig, ended, List.append_nil]
      rw [← scans]
      exact .finished walks ended scans
  · cases stepped

/-- All that a step can do. -/
theorem move_of_step {o : Operation} {t : ConfigManager} (stepped : step reg s o = some t) :
    Move reg s o t := by
  cases o with
  | addConfiguration mType cfg =>
    obtain rfl := Option.some.inj stepped
    exact .requested mType cfg
  | refreshPendingList =>
    obtain rfl := Option.some.inj stepped
    exact .refreshed
  | attemptReconfiguration =>
    rw [step] at stepped
    split at stepped
    · next idle =>
      obtain rfl := Option.some.inj stepped
      rw [attemptReconfiguration_eq]
      exact .began (List.isEmpty_iff.mp idle) _ _ _ (Prod.ext rfl shouldCheckPending_snd)
    · cases stepped
  | visit accepted => exact move_of_visit stepped
  | finish => exact move_of_finish stepped

end VRJuggler.Jccl
