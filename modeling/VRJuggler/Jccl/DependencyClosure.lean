import VRJuggler.Jccl.LastRequest

/-!
# Lost dependencies

After each walk in which an element was removed, the active elements are scanned for
dependencies that are gone, and each that lacks one is requested to be removed and added
again. The removals are looked at in the next call at the latest, so at rest every active
element has its dependencies. Each element waits to be added again once as long as no scan
finds it while its addition waits already.
-/
namespace VRJuggler.Jccl

open VRJuggler.Jccl.Configuration ConfigManager

variable {reg : Registered} {s t : ConfigManager} {o : Operation}

/-! ## Dependencies -/

theorem isSatisfied_mono {e : ConfigElement}
    (more : ∀ name, s.isElementInActiveList name = true → t.isElementInActiveList name = true)
    (satisfied : reg.isSatisfied s e = true) : reg.isSatisfied t e = true := by
  rw [Registered.isSatisfied, List.all_eq_true] at satisfied ⊢
  exact fun name member => more name (satisfied name member)

theorem isElementInActiveList_append {name : String} {e : ConfigElement}
    (more : t.mActiveConfig = s.mActiveConfig ++ [e])
    (active : s.isElementInActiveList name = true) : t.isElementInActiveList name = true := by
  obtain ⟨e', member, named⟩ := isElementInActiveList_iff.mp active
  refine isElementInActiveList_iff.mpr ⟨e', ?_, named⟩
  rw [more]
  exact List.mem_append_left _ member

/-- An addition causes no loss. -/
theorem mem_lost_of_append {e e' : ConfigElement} (more : t.mActiveConfig = s.mActiveConfig ++ [e'])
    (satisfied : reg.isSatisfied s e' = true) (found : e ∈ t.lost reg) : e ∈ s.lost reg := by
  obtain ⟨active, unsatisfied⟩ := mem_lost.mp found
  have before : reg.isSatisfied s e = false := by
    apply Bool.eq_false_iff.mpr
    intro was
    have still := isSatisfied_mono (fun name => isElementInActiveList_append more) was
    rw [unsatisfied] at still
    cases still
  rw [more] at active
  rcases List.mem_append.mp active with old | new
  · exact mem_lost.mpr ⟨old, before⟩
  · obtain rfl := List.mem_singleton.mp new
    rw [before] at satisfied
    cases satisfied

/-! ## Elements that wait to be added again -/

variable (reg s o) in
/-- The elements that a scan found without their dependencies and that have not been added
since. -/
def lostAfter (lost : List ConfigElement) : List ConfigElement :=
  match s.processed reg o with
  | some ⟨.ADD, e⟩ => lost.filter fun e' => e'.name ≠ e.name
  | _ => lost ++ s.foundLost reg o

/-- A step of the manager, where these elements are followed. -/
def watch (reg : Registered) (state : ConfigManager × List ConfigElement) (o : Operation) :
    Option (ConfigManager × List ConfigElement) :=
  (step reg state.1 o).map fun t => (t, lostAfter reg state.1 o state.2)

variable (s) in
/-- The element whose removal a handler refuses in the step. -/
def refusedRemoval : Operation → Option ConfigElement
  | .visit false =>
    match s.handling, s.remaining with
    | handler :: _, ⟨.REMOVE, e⟩ :: _ => if handler.configCanHandle e then some e else none
    | _, _ => none
  | _ => none

variable (reg s o) in
/-- No handler refuses to remove an element that lacks a dependency. -/
def Accepts : Prop := ∀ e ∈ refusedRemoval s o, e ∉ s.lost reg

instance : Decidable (Accepts reg s o) := inferInstanceAs (Decidable (∀ e ∈ refusedRemoval s o, _))

/-- A scan finds no element whose addition is pending, or that is active twice, and no element
comes in to be added under the name of one that waits to be added again. -/
structure Calm (reg : Registered) (state : ConfigManager × List ConfigElement) (o : Operation) :
    Prop where
  scans : ∀ e ∈ state.1.foundLost reg o,
    (∀ y ∈ state.1.mPendingConfig, ¬ y.Adds e.name) ∧ Single state.1 e.name
  merges : o = .attemptReconfiguration → ∀ y ∈ state.1.mIncomingConfig, ∀ e ∈ state.2,
    ¬ y.Adds e.name

instance (state : ConfigManager × List ConfigElement) : Decidable (Calm reg state o) :=
  decidable_of_iff
    ((∀ e ∈ state.1.foundLost reg o,
        (∀ y ∈ state.1.mPendingConfig, ¬ y.Adds e.name) ∧ Single state.1 e.name) ∧
      (o = .attemptReconfiguration → ∀ y ∈ state.1.mIncomingConfig, ∀ e ∈ state.2,
        ¬ y.Adds e.name))
    ⟨fun all => ⟨all.1, all.2⟩, fun calm => ⟨calm.scans, calm.merges⟩⟩

/-! ## At rest -/

/-- The removal of the element is still to be looked at in this call. -/
def ToVisit (s : ConfigManager) (e : ConfigElement) : Prop :=
  ∃ handler others, s.handling = handler :: others ∧
    ((handler.configCanHandle e = true ∧ ⟨.REMOVE, e⟩ ∈ s.remaining) ∨
      ∃ other ∈ others, other.configCanHandle e = true)

/-- Between a removal and the scan after it, elements may lack dependencies. Otherwise their
removals are pending and are looked at in this call or the next one, and the call has processed
something unless they are still to be looked at. -/
structure Followed (reg : Registered) (s : ConfigManager) : Prop where
  registered : ∀ handler ∈ s.handling, handler ∈ reg.mElementHandlers
  handled : ∀ e ∈ s.mActiveConfig, ∃ handler ∈ reg.mElementHandlers,
    handler.configCanHandle e = true
  scans : s.scan_for_lost_dependants = true → s.handling ≠ [] ∧ s.elements_processed ≠ 0
  waits : s.scan_for_lost_dependants = false → ∀ e ∈ s.lost reg,
    ⟨.REMOVE, e⟩ ∈ s.mPendingConfig ∧ (s.mPendingCheckCount = 0 ∨ ToVisit s e)
  visits : s.elements_processed = 0 → ∀ e ∈ s.lost reg, ToVisit s e

theorem not_toVisit_of_idle {e : ConfigElement} (idle : s.handling = []) : ¬ ToVisit s e := by
  rintro ⟨handler, others, walks, -⟩
  rw [idle] at walks
  cases walks

theorem toVisit_of_handler {e : ConfigElement}
    (handles : ∃ other ∈ s.handling, other.configCanHandle e = true)
    (pending : ⟨.REMOVE, e⟩ ∈ s.remaining) : ToVisit s e := by
  obtain ⟨other, member, able⟩ := handles
  cases walks : s.handling with
  | nil =>
    rw [walks] at member
    cases member
  | cons handler others =>
    rw [walks] at member
    rcases List.mem_cons.mp member with rfl | later
    · exact ⟨other, others, walks, Or.inl ⟨able, pending⟩⟩
    · exact ⟨handler, others, walks, Or.inr ⟨other, later, able⟩⟩

/-- The walk goes on behind another request. -/
theorem ToVisit.of_rest {e : ConfigElement} (visits : ToVisit s e)
    {handler : ConfigElementHandler} {others : List ConfigElementHandler} {cur : PendingElement}
    {rest : List PendingElement} (walks : s.handling = handler :: others)
    (here : s.remaining = cur :: rest) (walks' : t.handling = s.handling)
    (here' : t.remaining = rest)
    (different : handler.configCanHandle e = true → cur ≠ ⟨.REMOVE, e⟩) : ToVisit t e := by
  obtain ⟨handler', others', walking, which⟩ := visits
  obtain ⟨rfl, rfl⟩ := List.cons.inj (walks.symm.trans walking)
  refine ⟨handler, others, walks'.trans walks, which.imp_left ?_⟩
  rintro ⟨able, member⟩
  rw [here] at member
  rw [here']
  exact ⟨able, (List.mem_cons.mp member).resolve_left (different able).symm⟩

/-- The next handler begins. -/
theorem ToVisit.of_next {e : ConfigElement} (visits : ToVisit s e)
    {handler : ConfigElementHandler} {others : List ConfigElementHandler}
    (walks : s.handling = handler :: others) (ended : s.remaining = [])
    (walks' : t.handling = others) (pending : ⟨.REMOVE, e⟩ ∈ t.remaining) : ToVisit t e := by
  obtain ⟨handler', others', walking, which⟩ := visits
  obtain ⟨rfl, rfl⟩ := List.cons.inj (walks.symm.trans walking)
  refine toVisit_of_handler ?_ pending
  rw [walks']
  rcases which with ⟨-, member⟩ | later
  · rw [ended] at member
    cases member
  · exact later

/-- A pending list that was not looked at for the last time is looked at. -/
theorem shouldCheckPending_of_zero (fresh : s.mPendingCheckCount = 0) :
    s.shouldCheckPending.1 = true := by
  unfold shouldCheckPending
  simp only [fresh]
  split
  · rfl
  · rfl

/-- A handler that is asked and refuses. -/
theorem refusedRemoval_eq {handler : ConfigElementHandler} {others : List ConfigElementHandler}
    {e : ConfigElement} {rest : List PendingElement} (walks : s.handling = handler :: others)
    (here : s.remaining = ⟨.REMOVE, e⟩ :: rest) (handles : handler.configCanHandle e = true) :
    refusedRemoval s (.visit false) = some e := by
  simp only [refusedRemoval, walks, here]
  exact if_pos handles

variable (reg) in
theorem followed_initial : Followed reg .initial where
  registered _ member := absurd member List.not_mem_nil
  handled _ member := absurd member List.not_mem_nil
  scans flag := absurd flag Bool.false_ne_true
  waits _ _ found := absurd found List.not_mem_nil
  visits _ _ found := absurd found List.not_mem_nil

section Moves

variable (followed : Followed reg s)

include followed

/-- A call begins: what lacks a dependency will be visited in it. -/
theorem followed_began (idle : s.handling = []) {mPendingCheckCount mLastPendingSize : Nat}
    {check : Bool} (checked : s.mergeIncomingToPending.shouldCheckPending =
      (check, { s.mergeIncomingToPending with mPendingCheckCount, mLastPendingSize })) :
    Followed reg { s with
      visited := []
      remaining := s.mPendingConfig ++ s.mIncomingConfig
      mIncomingConfig := []
      mPendingCheckCount
      mLastPendingSize
      handling := if check then reg.mElementHandlers else []
      elements_processed := 0 } := by
  have quiet : s.scan_for_lost_dependants = false := by
    apply Bool.eq_false_iff.mpr
    intro scans
    exact (followed.scans scans).1 idle
  -- the counter was reset when the removals were put into the list
  have waits : ∀ e ∈ s.lost reg, ⟨.REMOVE, e⟩ ∈ s.mPendingConfig ∧ s.mPendingCheckCount = 0 := by
    intro e found
    obtain ⟨pending, fresh | visits⟩ := followed.waits quiet e found
    · exact ⟨pending, fresh⟩
    · exact absurd visits (not_toVisit_of_idle idle)
  have visits (e : ConfigElement) (found : e ∈ s.lost reg) :
      ToVisit { s with
        visited := []
        remaining := s.mPendingConfig ++ s.mIncomingConfig
        mIncomingConfig := []
        mPendingCheckCount
        mLastPendingSize
        handling := if check then reg.mElementHandlers else []
        elements_processed := 0 } e := by
    obtain ⟨pending, fresh⟩ := waits e found
    have looks : check = true := by
      rw [← show s.mergeIncomingToPending.shouldCheckPending.1 = check by rw [checked]]
      exact shouldCheckPending_of_zero fresh
    apply toVisit_of_handler _ (List.mem_append_left _ pending)
    rw [if_pos looks]
    exact followed.handled e (mem_lost.mp found).1
  refine ⟨?_, followed.handled, ?_, ?_, fun _ => visits⟩
  · intro handler member
    cases check with
    | true => exact member
    | false => cases member
  · intro scans
    rw [show s.scan_for_lost_dependants = true from scans] at quiet
    cases quiet
  · intro _ e found
    exact ⟨List.mem_append_right _ (List.mem_append_left _ (waits e found).1),
      Or.inr (visits e found)⟩

/-- The request at `current` stays pending. -/
theorem followed_passed {accepted : Bool} {handler : ConfigElementHandler}
    {others : List ConfigElementHandler} {cur : PendingElement} {rest : List PendingElement}
    (walks : s.handling = handler :: others) (here : s.remaining = cur :: rest)
    (refused : handler.configCanHandle cur.mElement = true →
      cur.mType = .REMOVE ∨ reg.isSatisfied s cur.mElement = true → accepted = false)
    (accepts : Accepts reg s (.visit accepted)) :
    Followed reg { s with visited := s.visited ++ [cur], remaining := rest } := by
  have visits (e : ConfigElement) (found : e ∈ s.lost reg) (before : ToVisit s e) :
      ToVisit { s with visited := s.visited ++ [cur], remaining := rest } e := by
    refine before.of_rest walks here rfl rfl ?_
    rintro handles rfl
    obtain rfl := refused handles (Or.inl rfl)
    exact accepts e (refusedRemoval_eq walks here handles) found
  refine ⟨followed.registered, followed.handled, followed.scans, ?_, ?_⟩
  · intro quiet e found
    obtain ⟨pending, soon⟩ := followed.waits quiet e found
    refine ⟨?_, soon.imp_right (visits e found)⟩
    rw [mPendingConfig, here] at pending
    simpa only [mPendingConfig, List.append_assoc, List.singleton_append] using pending
  · intro none e found
    exact visits e found (followed.visits none e found)

theorem followed_activated {handler : ConfigElementHandler} {others : List ConfigElementHandler}
    {element : ConfigElement} {rest : List PendingElement} (walks : s.handling = handler :: others)
    (here : s.remaining = ⟨.ADD, element⟩ :: rest)
    (handles : handler.configCanHandle element = true)
    (satisfied : reg.isSatisfied s element = true) :
    Followed reg { s with
      mActiveConfig := s.mActiveConfig ++ [element]
      remaining := rest
      elements_processed := s.elements_processed + 1 } := by
  refine ⟨followed.registered, ?_, ?_, ?_, fun none => absurd none (Nat.succ_ne_zero _)⟩
  · intro e active
    rcases List.mem_append.mp active with old | new
    · exact followed.handled e old
    · obtain rfl := List.mem_singleton.mp new
      refine ⟨handler, followed.registered _ ?_, handles⟩
      rw [walks]
      exact List.mem_cons_self ..
  · intro scans
    exact ⟨(followed.scans scans).1, Nat.succ_ne_zero _⟩
  · intro quiet e found
    have lost : e ∈ s.lost reg := mem_lost_of_append rfl satisfied found
    obtain ⟨pending, soon⟩ := followed.waits quiet e lost
    have addition : (⟨.ADD, element⟩ : PendingElement) ≠ ⟨.REMOVE, e⟩ := by
      intro same
      cases same
    refine ⟨?_, soon.imp_right fun visits => ?_⟩
    · rw [mPendingConfig, here] at pending
      rcases List.mem_append.mp pending with before | behind
      · exact List.mem_append_left _ before
      · exact List.mem_append_right _ ((List.mem_cons.mp behind).resolve_left addition.symm)
    · exact visits.of_rest walks here rfl rfl fun _ => addition

theorem followed_deactivated {handler : ConfigElementHandler}
    {others : List ConfigElementHandler} (walks : s.handling = handler :: others) (name : String)
    (rest : List PendingElement) :
    Followed reg { s with
      mActiveConfig := remove s.mActiveConfig name
      remaining := rest
      scan_for_lost_dependants := true
      elements_processed := s.elements_processed + 1 } := by
  refine ⟨followed.registered, ?_, ?_, ?_, fun none => absurd none (Nat.succ_ne_zero _)⟩
  · intro e active
    exact followed.handled e (List.eraseP_subset active)
  · intro _
    refine ⟨?_, Nat.succ_ne_zero _⟩
    rw [show s.handling = _ from walks]
    exact List.cons_ne_nil _ _
  · intro quiet
    cases quiet

/-- Every element that lacks a dependency is found. -/
theorem followed_scanned {handler : ConfigElementHandler} {others : List ConfigElementHandler}
    (walks : s.handling = handler :: others) (scans : s.scan_for_lost_dependants = true) :
    Followed reg { s with
      visited := []
      remaining := s.visited ++ (s.lost reg).flatMap lostPair
      mPendingCheckCount := if (s.lost reg).isEmpty then s.mPendingCheckCount else 0
      handling := others
      scan_for_lost_dependants := false } := by
  refine ⟨?_, followed.handled, ?_, ?_, fun none => absurd none (followed.scans scans).2⟩
  · intro handler member
    apply followed.registered
    rw [walks]
    exact List.mem_cons_of_mem _ member
  · intro again
    cases again
  · intro _ e found
    have lost : e ∈ s.lost reg := found
    refine ⟨?_, Or.inl ?_⟩
    · refine List.mem_append_right _ (List.mem_append_right _ ?_)
      exact List.mem_flatMap.mpr ⟨e, lost, List.mem_cons_self ..⟩
    · apply if_neg
      rw [List.isEmpty_iff]
      exact List.ne_nil_of_mem lost

theorem followed_finished {handler : ConfigElementHandler} {others : List ConfigElementHandler}
    (walks : s.handling = handler :: others) (ended : s.remaining = [])
    (scans : s.scan_for_lost_dependants = false) :
    Followed reg { s with visited := [], remaining := s.visited, handling := others } := by
  have pending (e : ConfigElement) (found : e ∈ s.lost reg) : ⟨.REMOVE, e⟩ ∈ s.visited := by
    have waits := (followed.waits scans e found).1
    rwa [mPendingConfig, ended, List.append_nil] at waits
  refine ⟨?_, followed.handled, ?_, ?_, ?_⟩
  · intro handler member
    apply followed.registered
    rw [walks]
    exact List.mem_cons_of_mem _ member
  · intro again
    rw [show s.scan_for_lost_dependants = true from again] at scans
    cases scans
  · intro _ e found
    refine ⟨pending e found, (followed.waits scans e found).2.imp_right fun visits => ?_⟩
    exact visits.of_next walks ended rfl (pending e found)
  · intro none e found
    exact (followed.visits none e found).of_next walks ended rfl (pending e found)

end Moves

theorem followed_step (followed : Followed reg s) (stepped : step reg s o = some t)
    (accepts : Accepts reg s o) : Followed reg t := by
  cases move_of_step stepped with
  | requested mType cfg =>
    exact ⟨followed.registered, followed.handled, followed.scans, followed.waits,
      followed.visits⟩
  | refreshed =>
    refine ⟨followed.registered, followed.handled, followed.scans, ?_, followed.visits⟩
    intro quiet e found
    exact ⟨(followed.waits quiet e found).1, Or.inl rfl⟩
  | began idle mPendingCheckCount mLastPendingSize check checked =>
    exact followed_began followed idle checked
  | passed walks here refused => exact followed_passed followed walks here refused accepts
  | activated walks here handles satisfied =>
    exact followed_activated followed walks here handles satisfied
  | deactivated walks here handles => exact followed_deactivated followed walks _ _
  | scanned walks ended scans => exact followed_scanned followed walks scans
  | finished walks ended scans => exact followed_finished followed walks ended scans

/-! ## Waiting once -/

/-- The pending additions under a name. -/
def additions (s : ConfigManager) (name : String) : List PendingElement :=
  s.mPendingConfig.filter fun p => p.Adds name

/-- Each element that waits to be added again does so once, and no other does under its name. -/
def WaitsOnce (state : ConfigManager × List ConfigElement) : Prop :=
  ∀ e ∈ state.2, additions state.1 e.name = [⟨.ADD, e⟩]

theorem additions_lostPairs_eq_nil {name : String} {elements : List ConfigElement}
    (other : ∀ e ∈ elements, e.name ≠ name) :
    (elements.flatMap lostPair).filter (fun p => p.Adds name) = [] := by
  apply List.filter_eq_nil_iff.mpr
  intro p member adds
  exact other _ (mem_lostPairs member) (of_decide_eq_true adds).2

theorem additions_lostPairs {e : ConfigElement} {elements : List ConfigElement}
    (single : (elements.map ConfigElement.name).count e.name ≤ 1) (member : e ∈ elements) :
    (elements.flatMap lostPair).filter (fun p => p.Adds e.name) = [⟨.ADD, e⟩] := by
  induction elements with
  | nil => cases member
  | cons x elements ih =>
    rw [List.map_cons, List.count_cons] at single
    rw [List.flatMap_cons, List.filter_append]
    rcases List.mem_cons.mp member with rfl | later
    · have none : ∀ e' ∈ elements, e'.name ≠ e.name := by
        intro e' again same
        have one : 0 < (elements.map ConfigElement.name).count e.name :=
          List.count_pos_iff.mpr (List.mem_map.mpr ⟨e', again, same⟩)
        rw [beq_self_eq_true, if_pos rfl] at single
        omega
      rw [additions_lostPairs_eq_nil none]
      simp [lostPair, PendingElement.Adds]
    · have different : x.name ≠ e.name := by
        intro same
        have one : 0 < (elements.map ConfigElement.name).count e.name :=
          List.count_pos_iff.mpr (List.mem_map_of_mem later)
        rw [same, beq_self_eq_true, if_pos rfl] at single
        omega
      rw [ih (by omega) later]
      simp [lostPair, PendingElement.Adds, different]

/-- A step that activates nothing. -/
theorem lostAfter_eq {lost : List ConfigElement}
    (none : ∀ p ∈ s.processed reg o, p.mType = .REMOVE) :
    lostAfter reg s o lost = lost ++ s.foundLost reg o := by
  unfold lostAfter
  split
  · next e taken => cases none _ taken
  · rfl

theorem lostAfter_of_quiet {lost : List ConfigElement}
    (none : ∀ p ∈ s.processed reg o, p.mType = .REMOVE) (quiet : s.foundLost reg o = []) :
    lostAfter reg s o lost = lost := by
  rw [lostAfter_eq none, quiet, List.append_nil]

section Moves

variable {lost : List ConfigElement} (once : WaitsOnce (s, lost))

include once

/-- The same additions are pending, for the same elements. -/
theorem WaitsOnce.of_same (same : ∀ e ∈ lost, additions t e.name = additions s e.name) :
    WaitsOnce (t, lost) := by
  intro e member
  exact (same e member).trans (once e member)

/-- Another element is added. -/
theorem WaitsOnce.of_activated {element : ConfigElement} {rest : List PendingElement}
    (here : s.remaining = ⟨.ADD, element⟩ :: rest)
    (pending : t.mPendingConfig = s.visited ++ rest) :
    WaitsOnce (t, lost.filter fun e => e.name ≠ element.name) := by
  intro e member
  obtain ⟨waits, different⟩ := List.mem_filter.mp member
  have other : ¬ (⟨.ADD, element⟩ : PendingElement).Adds e.name := by
    intro adds
    exact of_decide_eq_true different adds.2.symm
  rw [← once e waits, additions, additions, pending, mPendingConfig, here, List.filter_append,
    List.filter_append, List.filter_cons_of_neg (by simpa using other)]

/-- A scan finds none of the elements that wait. -/
theorem WaitsOnce.of_scanned
    (scans : ∀ e ∈ s.lost reg, (∀ y ∈ s.mPendingConfig, ¬ y.Adds e.name) ∧ Single s e.name)
    (pending : t.mPendingConfig = s.mPendingConfig ++ (s.lost reg).flatMap lostPair) :
    WaitsOnce (t, lost ++ s.lost reg) := by
  intro e member
  have parts : additions t e.name = additions s e.name ++
      ((s.lost reg).flatMap lostPair).filter (fun p => p.Adds e.name) := by
    rw [additions, pending, List.filter_append, additions]
  rcases List.mem_append.mp member with waits | found
  · have before := once e waits
    have other : ∀ e' ∈ s.lost reg, e'.name ≠ e.name := by
      intro e' found same
      have addition : (⟨.ADD, e⟩ : PendingElement) ∈ additions s e.name := by
        rw [before]
        exact List.mem_singleton_self _
      exact (scans e' found).1 _ (List.mem_filter.mp addition).1 ⟨rfl, same.symm⟩
    rw [parts, before, additions_lostPairs_eq_nil other, List.append_nil]
  · obtain ⟨absent, single⟩ := scans e found
    have before : additions s e.name = [] := by
      apply List.filter_eq_nil_iff.mpr
      intro p member adds
      exact absent p member (of_decide_eq_true adds)
    rw [parts, before, List.nil_append]
    refine additions_lostPairs (Nat.le_trans ?_ single) found
    exact (List.filter_sublist.map _).count_le _

theorem waitsOnce_step (calm : Calm reg (s, lost) o) (stepped : step reg s o = some t) :
    WaitsOnce (t, lostAfter reg s o lost) := by
  have nothing {o : Operation} (none : s.processed reg o = none) :
      ∀ p ∈ s.processed reg o, p.mType = .REMOVE := by
    intro p taken
    rw [none] at taken
    cases taken
  cases move_of_step stepped with
  | requested | refreshed =>
    rw [lostAfter_of_quiet (nothing rfl) rfl]
    exact once.of_same fun _ _ => rfl
  | began =>
    rw [lostAfter_of_quiet (nothing rfl) rfl]
    refine once.of_same fun e waits => ?_
    have none : s.mIncomingConfig.filter (fun p => p.Adds e.name) = [] := by
      apply List.filter_eq_nil_iff.mpr
      intro p member adds
      exact calm.merges rfl p member e waits (of_decide_eq_true adds)
    simp only [additions, mPendingConfig, List.nil_append, List.filter_append, none,
      List.append_nil]
  | passed walks here refused =>
    rw [lostAfter_of_quiet (nothing (processed_eq_none walks here refused)) rfl]
    refine once.of_same fun e waits => ?_
    simp only [additions, mPendingConfig, here, List.append_assoc, List.singleton_append]
  | activated walks here handles satisfied =>
    rw [lostAfter, processed_eq walks here handles (Or.inr satisfied)]
    exact once.of_activated here rfl
  | deactivated walks here handles =>
    have taken : s.processed reg (.visit true) = some _ :=
      processed_eq walks here handles (Or.inl rfl)
    have removes : ∀ p ∈ s.processed reg (.visit true), p.mType = .REMOVE := by
      intro p member
      obtain rfl := Option.some.inj (taken.symm.trans member)
      rfl
    rw [lostAfter_of_quiet removes rfl]
    refine once.of_same fun e waits => ?_
    have removal (element : ConfigElement) :
        ¬ (⟨.REMOVE, element⟩ : PendingElement).Adds e.name := by
      intro adds
      cases adds.1
    simp only [additions, mPendingConfig, here, List.filter_append]
    rw [List.filter_cons_of_neg (by simpa using removal _)]
  | scanned walks ended scans =>
    have found : s.foundLost reg .finish = s.lost reg := if_pos scans
    rw [lostAfter_eq (nothing rfl), found]
    refine once.of_scanned ?_ ?_
    · rw [← found]
      exact calm.scans
    · simp only [mPendingConfig, ended, List.append_nil, List.nil_append]
  | finished walks ended scans =>
    have none : s.foundLost reg .finish = [] := by
      rw [foundLost, scans]
      rfl
    rw [lostAfter_of_quiet (nothing rfl) none]
    refine once.of_same fun e waits => ?_
    simp only [additions, mPendingConfig, ended, List.nil_append, List.append_nil]

end Moves

/-- What is followed does not change the steps. -/
theorem step_of_watch {state state' : ConfigManager × List ConfigElement}
    (watched : watch reg state o = some state') :
    step reg state.1 o = some state'.1 ∧ state'.2 = lostAfter reg state.1 o state.2 := by
  obtain ⟨u, stepped, rfl⟩ := Option.map_eq_some_iff.mp watched
  exact ⟨stepped, rfl⟩

variable (reg) in
/-- At rest, after a call that processed nothing, every active element has all elements it
depends on; and every element that lost a dependency waits to be added again, once. -/
theorem dependency_closure (os : List Operation) {lost : List ConfigElement}
    (reached : run (watch reg) (.initial, []) os = some (t, lost)) :
    (Meets (watch reg) (fun state => Accepts reg state.1) (.initial, []) os →
      t.handling = [] → t.elements_processed = 0 →
        ∀ e ∈ t.mActiveConfig, ∀ name ∈ reg.dependencies e,
          t.isElementInActiveList name = true) ∧
    (Meets (watch reg) (Calm reg) (.initial, []) os →
      ∀ e ∈ lost, t.mPendingConfig.filter (fun p => p.Adds e.name) = [⟨.ADD, e⟩]) := by
  constructor
  · intro accepting idle none e active
    have followed : Followed reg (t, lost).1 := by
      refine run_invariant_of_meets (fun state => Followed reg state.1) _ ?_
        (followed_initial reg) accepting reached
      intro state o state' followed accepts watched
      exact followed_step followed (step_of_watch watched).1 accepts
    have satisfied : reg.isSatisfied t e = true := by
      apply (Bool.not_eq_false _).mp
      intro unsatisfied
      have visits := followed.visits none e (mem_lost.mpr ⟨active, unsatisfied⟩)
      exact not_toVisit_of_idle idle visits
    exact List.all_eq_true.mp satisfied
  · intro calm
    have once : WaitsOnce (t, lost) := by
      refine run_invariant_of_meets WaitsOnce _ ?_ ?_ calm reached
      · rintro state o ⟨u, lost'⟩ once calm watched
        obtain ⟨stepped, rfl⟩ := step_of_watch watched
        exact waitsOnce_step once calm stepped
      · intro e member
        cases member
    exact once

/-! ## Runs -/

/-- `b`, which depends on `a`, is active, and `a` is removed. -/
def loseA : List Operation :=
  .addConfiguration .ADD [element "a" [], element "b" ["a"], element "c" []] :: (call 3 ++
    .addConfiguration .REMOVE [element "a" []] :: call 1)

theorem dependency_closure_loseA :
    ∃ t, run (watch oneHandler) (.initial, []) (loseA ++ (call 2 ++ call 1)) =
        some (t, [element "b" ["a"]]) ∧
      (∀ e ∈ t.mActiveConfig, ∀ name ∈ oneHandler.dependencies e,
        t.isElementInActiveList name = true) ∧
      t.mPendingConfig.filter (fun p => p.Adds "b") = [⟨.ADD, element "b" ["a"]⟩] := by
  obtain ⟨rest, once⟩ := dependency_closure oneHandler (loseA ++ (call 2 ++ call 1)) rfl
  exact ⟨_, rfl, rest (by decide) rfl rfl, once (by decide) _ (List.mem_singleton_self _)⟩

/-- A handler for each of two kinds of elements. -/
def twoHandlers : Registered where
  mElementHandlers := [⟨fun e => e.id == "A"⟩, ⟨fun e => e.id == "B"⟩]
  mDepCheckers := []

/-- A call in which the handlers visit so many requests. -/
def callTwo (first second : Nat) : List Operation :=
  .attemptReconfiguration :: (List.replicate first (.visit true) ++
    .finish :: (List.replicate second (.visit true) ++ [.finish]))

/-- `c` depends on `a` and on `b`, which are removed by different handlers in one call. -/
def loseBoth : List Operation :=
  .addConfiguration .ADD [⟨"a", "A", []⟩, ⟨"b", "B", []⟩, ⟨"c", "A", ["a", "b"]⟩] ::
    (callTwo 3 2 ++ (callTwo 1 0 ++
      .addConfiguration .REMOVE [⟨"a", "A", []⟩, ⟨"b", "B", []⟩] ::
        (callTwo 2 3 ++ (callTwo 4 2 ++ callTwo 2 2))))

/-- A removal that is refused, an element that is requested again while it waits to be added
again, and two scans before a removal is looked at. -/
theorem dependency_closure_fails :
    (∃ t lost, run (watch oneHandler) (.initial, [])
        (loseA ++ [.attemptReconfiguration, .visit false, .visit true, .finish]) = some (t, lost) ∧
      t.handling = [] ∧ t.mIncomingConfig = [] ∧ t.elements_processed = 0 ∧
      ∃ e ∈ t.mActiveConfig, ∃ name ∈ oneHandler.dependencies e,
        t.isElementInActiveList name = false) ∧
    (∃ t lost, run (watch oneHandler) (.initial, [])
        (loseA ++ (call 2 ++ .addConfiguration .ADD [element "b" ["a"]] :: call 2)) =
          some (t, lost) ∧
      t.handling = [] ∧ t.mIncomingConfig = [] ∧ t.elements_processed = 0 ∧
      ∃ e ∈ lost, t.mPendingConfig = [⟨.ADD, e⟩, ⟨.ADD, e⟩]) ∧
    ∃ t lost, run (watch twoHandlers) (.initial, []) loseBoth = some (t, lost) ∧
      t.handling = [] ∧ t.mIncomingConfig = [] ∧ t.elements_processed = 0 ∧
      ∃ e ∈ lost, t.mPendingConfig = [⟨.ADD, e⟩, ⟨.ADD, e⟩] := by
  refine ⟨⟨_, _, rfl, rfl, rfl, rfl, ?_⟩, ⟨_, _, rfl, rfl, rfl, rfl, ?_⟩,
    ⟨_, _, rfl, rfl, rfl, rfl, ?_⟩⟩ <;> decide

end VRJuggler.Jccl
