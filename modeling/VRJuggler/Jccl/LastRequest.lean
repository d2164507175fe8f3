import VRJuggler.Base.Lists
import VRJuggler.Base.Unanswered
import VRJuggler.Jccl.KeyedActive

/-!
# The last request for a name

The requests for a name, from the pending ones to those that still come in, decide whether
an element of the name is to be active. The decision is that of the last request ever made
as long as no request is processed before an opposite one that stands in front of it, a
removal leaves no second element of the name, and an element that lost a dependency is not
requested already.
-/
namespace VRJuggler.Jccl

open VRJuggler.Jccl.Configuration ConfigManager

variable {reg : Registered} {s t : ConfigManager} {o : Operation}

namespace ConfigManager

/-- All requests that wait. -/
def waiting (s : ConfigManager) : List PendingElement := s.mPendingConfig ++ s.mIncomingConfig

/-- The active elements after a request is processed. -/
def after (mActiveConfig : List ConfigElement) (p : PendingElement) : List ConfigElement :=
  match p.mType with
  | .ADD => mActiveConfig ++ [p.mElement]
  | .REMOVE => remove mActiveConfig p.mElement.name

end ConfigManager

/-! ## Conditions -/

/-- At most one element of the name is active. -/
def Single (s : ConfigManager) (name : String) : Prop :=
  (s.mActiveConfig.map ConfigElement.name).count name ≤ 1

variable (reg s o) in
/-- The step overtakes no opposite request, removes the only element of a name, and puts no
request for a lost element behind another one for its name. -/
structure InOrder : Prop where
  adds : ∀ p ∈ s.processed reg o, p.mType = .ADD →
    ∀ y ∈ s.visited, ¬ y.Removes p.mElement.name
  removes : ∀ p ∈ s.processed reg o, p.mType = .REMOVE →
    (∀ y ∈ s.visited, ¬ y.Adds p.mElement.name) ∧ Single s p.mElement.name
  scans : ∀ e ∈ s.foundLost reg o,
    (∀ y ∈ s.mPendingConfig, y.mElement.name ≠ e.name) ∧ Single s e.name

instance (name : String) : Decidable (Single s name) := inferInstanceAs (Decidable (_ ≤ _))

instance : Decidable (InOrder reg s o) :=
  decidable_of_iff
    ((∀ p ∈ s.processed reg o, p.mType = .ADD →
        ∀ y ∈ s.visited, ¬ y.Removes p.mElement.name) ∧
      (∀ p ∈ s.processed reg o, p.mType = .REMOVE →
        (∀ y ∈ s.visited, ¬ y.Adds p.mElement.name) ∧ Single s p.mElement.name) ∧
      ∀ e ∈ s.foundLost reg o,
        (∀ y ∈ s.mPendingConfig, y.mElement.name ≠ e.name) ∧ Single s e.name)
    ⟨fun all => ⟨all.1, all.2.1, all.2.2⟩,
      fun order => ⟨order.adds, order.removes, order.scans⟩⟩

/-- What two opposite kinds of requests must satisfy where the first has its way when
`holds`. -/
structure Respects (reg : Registered) (s : ConfigManager) (o : Operation)
    (p q : PendingElement → Prop) (holds : List ConfigElement → Prop) : Prop where
  takes : ∀ x ∈ s.processed reg o, p x →
    (∀ y ∈ s.visited, ¬ q y) ∧ holds (after s.mActiveConfig x)
  keeps : ∀ x ∈ s.processed reg o, ¬ q x → holds s.mActiveConfig →
    holds (after s.mActiveConfig x)
  scans : (∀ z ∈ (s.foundLost reg o).flatMap lostPair, ¬ q z) ∨
    (∀ x ∈ s.mPendingConfig, ¬ p x) ∧
      (holds s.mActiveConfig → Unanswered p q ((s.foundLost reg o).flatMap lostPair))

/-- One step keeps what is owed. -/
theorem owed_step {p q : PendingElement → Prop} {holds : List ConfigElement → Prop}
    (respects : Respects reg s o p q holds) (stepped : step reg s o = some t) {before : Prop}
    {made : List PendingElement}
    (owed : Owed p q before made → Owed p q (holds s.mActiveConfig) s.waiting)
    (all : Owed p q before (made ++ o.requests)) : Owed p q (holds t.mActiveConfig) t.waiting := by
  have same (none : o.requests = []) : Owed p q (holds s.mActiveConfig) s.waiting := by
    rw [none, List.append_nil] at all
    exact owed all
  cases move_of_step stepped with
  | requested mType cfg =>
    have more := Owed.append_of_owed owed all
    unfold waiting at more ⊢
    rw [List.append_assoc] at more
    exact more
  | refreshed => exact same rfl
  | began =>
    have wait := same rfl
    simp only [waiting, mPendingConfig, List.nil_append, List.append_nil] at wait ⊢
    exact wait
  | passed walks here refused =>
    have wait := same rfl
    simp only [waiting, mPendingConfig, here, List.append_assoc, List.singleton_append]
      at wait ⊢
    exact wait
  | activated walks here handles satisfied =>
    have taken := processed_eq walks here handles (Or.inr satisfied)
    have wait := same rfl
    simp only [waiting, mPendingConfig, here, List.append_assoc, List.cons_append] at wait ⊢
    exact wait.take (respects.takes _ taken) (respects.keeps _ taken)
  | deactivated walks here handles =>
    have taken : s.processed reg (.visit true) = some _ :=
      processed_eq walks here handles (Or.inl rfl)
    have wait := same rfl
    simp only [waiting, mPendingConfig, here, List.append_assoc, List.cons_append] at wait ⊢
    exact wait.take (respects.takes _ taken) (respects.keeps _ taken)
  | scanned walks ended scans =>
    have found : s.foundLost reg .finish = s.lost reg := by
      rw [foundLost, if_pos scans]
    have wait := same rfl
    have pairs := respects.scans
    rw [found] at pairs
    simp only [waiting, mPendingConfig, ended, List.append_nil, List.nil_append] at wait pairs ⊢
    exact wait.insert pairs
  | finished walks ended scans =>
    have wait := same rfl
    simp only [waiting, mPendingConfig, ended, List.append_nil, List.nil_append] at wait ⊢
    exact wait

/-! ## Elements that are to be active -/

theorem Single.unique {e e' : ConfigElement} (single : Single s e.name)
    (member : e ∈ s.mActiveConfig) (member' : e' ∈ s.mActiveConfig) (same : e'.name = e.name) :
    e' = e :=
  eq_of_count_map_le_one single member member' same

/-- A pair puts no request for other names into the list. -/
theorem mem_lostPairs {elements : List ConfigElement} {z : PendingElement}
    (member : z ∈ elements.flatMap lostPair) : z.mElement ∈ elements := by
  obtain ⟨e, here, pair⟩ := List.mem_flatMap.mp member
  rcases List.mem_pair.mp pair with rfl | rfl
  · exact here
  · exact here

theorem unanswered_lostPairs {e : ConfigElement} {elements : List ConfigElement}
    (member : e ∈ elements) (single : (elements.map ConfigElement.name).count e.name ≤ 1) :
    Unanswered (· = ⟨.ADD, e⟩) (PendingElement.Removes e.name) (elements.flatMap lostPair) := by
  induction elements with
  | nil => cases member
  | cons x elements ih =>
    rw [List.map_cons, List.count_cons] at single
    rw [List.flatMap_cons, unanswered_append]
    rcases List.mem_cons.mp member with rfl | later
    · refine Or.inr ⟨Or.inl (Or.inr ⟨rfl, fun _ => (absurd · List.not_mem_nil)⟩), ?_⟩
      intro z behind removes
      -- no other pair is for this name
      have again : 0 < (elements.map ConfigElement.name).count e.name :=
        List.count_pos_iff.mpr (removes.2 ▸ List.mem_map_of_mem (mem_lostPairs behind))
      rw [beq_self_eq_true, if_pos rfl] at single
      omega
    · exact Or.inl (ih later (by omega))

theorem of_mem_foundLost {e : ConfigElement} (found : e ∈ s.foundLost reg o) :
    s.foundLost reg o = s.lost reg ∧ e ∈ s.mActiveConfig := by
  unfold foundLost at found ⊢
  split at found
  · split at found
    · next scans =>
      rw [if_pos scans]
      exact ⟨rfl, (mem_lost.mp found).1⟩
    · cases found
  · cases found

theorem respects_add (order : InOrder reg s o) (e : ConfigElement) :
    Respects reg s o (· = ⟨.ADD, e⟩) (PendingElement.Removes e.name) (e ∈ ·) where
  takes := by
    rintro _ taken rfl
    exact ⟨order.adds _ taken rfl, List.mem_append_right _ (List.mem_singleton_self _)⟩
  keeps := by
    rintro ⟨mType, e'⟩ taken other active
    cases mType with
    | ADD => exact List.mem_append_left _ active
    | REMOVE =>
      refine (List.mem_eraseP_of_neg ?_).mpr active
      intro same
      exact other ⟨rfl, beq_iff_eq.mp same⟩
  scans := by
    by_cases lost : ∃ e' ∈ s.foundLost reg o, e'.name = e.name
    · obtain ⟨e', found, name⟩ := lost
      obtain ⟨absent, single⟩ := order.scans e' found
      rw [name] at absent single
      refine Or.inr ⟨?_, fun active => ?_⟩
      · rintro x member rfl
        exact absent _ member rfl
      · obtain ⟨all, active'⟩ := of_mem_foundLost found
        obtain rfl := single.unique active active' name
        refine unanswered_lostPairs found (Nat.le_trans ?_ single)
        rw [all]
        exact (List.filter_sublist.map _).count_le _
    · refine Or.inl fun z member removes => lost ⟨z.mElement, mem_lostPairs member, removes.2⟩

/-! ## Names that are to be free -/

theorem respects_remove (order : InOrder reg s o) (name : String) :
    Respects reg s o (PendingElement.Removes name) (PendingElement.Adds name)
      (fun active => ∀ e ∈ active, e.name ≠ name) where
  takes := by
    rintro ⟨mType, e'⟩ taken ⟨rfl, rfl⟩
    obtain ⟨none, single⟩ := order.removes _ taken rfl
    refine ⟨none, fun e member same => ?_⟩
    have left : 0 < ((remove s.mActiveConfig e'.name).map ConfigElement.name).count e'.name :=
      List.count_pos_iff.mpr (List.mem_map.mpr ⟨e, member, same⟩)
    have single : (s.mActiveConfig.map ConfigElement.name).count e'.name ≤ 1 := single
    rw [names_remove, List.count_erase_self] at left
    omega
  keeps := by
    rintro ⟨mType, e'⟩ taken other free
    cases mType with
    | ADD =>
      intro e member
      rcases List.mem_append.mp member with active | last
      · exact free e active
      · obtain rfl := List.mem_singleton.mp last
        exact fun same => other ⟨rfl, same⟩
    | REMOVE => exact fun e member => free e (List.eraseP_subset member)
  scans := by
    by_cases lost : ∃ e' ∈ s.foundLost reg o, e'.name = name
    · obtain ⟨e', found, rfl⟩ := lost
      refine Or.inr ⟨fun x member removes => ?_, fun free => ?_⟩
      · exact (order.scans e' found).1 x member removes.2
      · exact absurd rfl (free e' (of_mem_foundLost found).2)
    · exact Or.inl fun z member adds => lost ⟨z.mElement, mem_lostPairs member, adds.2⟩

/-! ## Runs -/

/-- The requests of a run. -/
def requested (os : List Operation) : List PendingElement := os.flatMap Operation.requests

/-- The last request for its name. -/
def LastRequest (made : List PendingElement) (p : PendingElement) : Prop :=
  Unanswered (· = p) (fun y => y.mElement.name = p.mElement.name) made

instance (made : List PendingElement) (p : PendingElement) : Decidable (LastRequest made p) :=
  inferInstanceAs (Decidable (Unanswered (· = p) _ made))

variable (reg) in
/-- No request is left that a handler could process. -/
def AtRest (s : ConfigManager) : Prop :=
  s.mIncomingConfig = [] ∧ ∀ p ∈ s.mPendingConfig, ∀ handler ∈ reg.mElementHandlers,
    handler.configCanHandle p.mElement = true →
      p.mType = .ADD ∧ reg.isSatisfied s p.mElement = false

/-- Where the requests stand that are not answered. -/
structure Tracked (s : ConfigManager) (past : List Operation) : Prop where
  adds : ∀ e, Owed (· = ⟨.ADD, e⟩) (PendingElement.Removes e.name) False (requested past) →
    Owed (· = ⟨.ADD, e⟩) (PendingElement.Removes e.name) (e ∈ s.mActiveConfig) s.waiting
  removes : ∀ name,
    Owed (PendingElement.Removes name) (PendingElement.Adds name) True (requested past) →
      Owed (PendingElement.Removes name) (PendingElement.Adds name)
        (∀ e ∈ s.mActiveConfig, e.name ≠ name) s.waiting

theorem requested_snoc (past : List Operation) (o : Operation) :
    requested (past ++ [o]) = requested past ++ o.requests := by
  simp only [requested, List.flatMap_append, List.flatMap_singleton]

theorem tracked_step {past : List Operation} (tracked : Tracked s past)
    (order : InOrder reg s o) (stepped : step reg s o = some t) : Tracked t (past ++ [o]) where
  adds e all := by
    rw [requested_snoc] at all
    exact owed_step (respects_add order e) stepped (tracked.adds e) all
  removes name all := by
    rw [requested_snoc] at all
    exact owed_step (respects_remove order name) stepped (tracked.removes name) all

theorem tracked_run {os : List Operation} (meets : Meets (step reg) (InOrder reg) .initial os)
    (reached : run (step reg) .initial os = some t) : Tracked t os := by
  have start : Tracked .initial [] := by
    constructor
    · intro e owed
      exact (owed.elim id And.left).elim
    · intro name _
      exact Or.inr ⟨fun _ => (absurd · List.not_mem_nil), fun _ => (absurd · List.not_mem_nil)⟩
  apply run_history_of_meets Tracked (InOrder reg) _ start meets reached
  intro s o t past tracked order stepped
  exact tracked_step tracked order stepped

/-- The last request for a name is an addition, or the name is to be free. -/
theorem exists_lastRequest_or_owed (made : List PendingElement) (name : String) :
    (∃ e, e.name = name ∧ LastRequest made ⟨.ADD, e⟩) ∨
      Owed (PendingElement.Removes name) (PendingElement.Adds name) True made := by
  induction made with
  | nil => exact Or.inr (Or.inr ⟨trivial, fun _ => (absurd · List.not_mem_nil)⟩)
  | cons x made ih =>
    rcases ih with ⟨e, named, last⟩ | waits | ⟨-, none⟩
    · exact Or.inl ⟨e, named, Or.inl last⟩
    · exact Or.inr (Or.inl (Or.inl waits))
    · by_cases adds : x.Adds name
      · obtain ⟨mType, e⟩ := x
        obtain ⟨rfl, rfl⟩ := adds
        rcases unanswered_or_answered (· = ⟨.ADD, e⟩)
          (fun y => y.mElement.name = e.name) made rfl with last | ⟨y, behind, same⟩
        · exact Or.inl ⟨e, rfl, last⟩
        · -- what stands behind is a removal
          refine Or.inr (Or.inl (Or.inl (unanswered_of_mem behind ?_ none)))
          cases type : y.mType with
          | ADD => exact absurd ⟨type, same⟩ (none y behind)
          | REMOVE => exact ⟨type, same⟩
      · refine Or.inr (Or.inr ⟨trivial, fun y member => ?_⟩)
        rcases List.mem_cons.mp member with rfl | later
        · exact adds
        · exact none y later

variable (reg) in
/-- In a run whose steps are in order, no request to add an element is lost, and when nothing
is left to be processed, the last request for each name has its way. -/
theorem last_request_wins (os : List Operation)
    (handled : ∀ e, ∃ handler ∈ reg.mElementHandlers, handler.configCanHandle e = true)
    (meets : Meets (step reg) (InOrder reg) .initial os)
    (reached : run (step reg) .initial os = some t) :
    (∀ front e back, requested os = front ++ ⟨.ADD, e⟩ :: back →
      ⟨.ADD, e⟩ ∈ t.mIncomingConfig ∨ ⟨.ADD, e⟩ ∈ t.mPendingConfig ∨ e ∈ t.mActiveConfig ∨
        ∃ y ∈ back, y.Removes e.name) ∧
    (AtRest reg t →
      (∀ e, LastRequest (requested os) ⟨.ADD, e⟩ → reg.isSatisfied t e = true →
        e ∈ t.mActiveConfig) ∧
      ∀ name, (∀ e, e.name = name → ¬ LastRequest (requested os) ⟨.ADD, e⟩) →
        t.isElementInActiveList name = false) := by
  have tracked := tracked_run meets reached
  refine ⟨?_, ?_⟩
  · intro front e back made
    rcases unanswered_or_answered (· = ⟨.ADD, e⟩) (PendingElement.Removes e.name) back rfl
      with stands | removed
    · have all : Unanswered (· = ⟨.ADD, e⟩) (PendingElement.Removes e.name) (requested os) := by
        rw [made]
        exact unanswered_append.mpr (Or.inl stands)
      rcases tracked.adds e (Or.inl all) with waits | ⟨active, -⟩
      · obtain ⟨x, member, rfl⟩ := exists_of_unanswered waits
        rcases List.mem_append.mp member with pending | incoming
        · exact Or.inr (Or.inl pending)
        · exact Or.inl incoming
      · exact Or.inr (Or.inr (Or.inl active))
    · exact Or.inr (Or.inr (Or.inr removed))
  · rintro ⟨empty, rest⟩
    have pending {x : PendingElement} (member : x ∈ t.waiting) : x ∈ t.mPendingConfig := by
      rwa [waiting, empty, List.append_nil] at member
    constructor
    · intro e last satisfied
      have stands : Unanswered (· = ⟨.ADD, e⟩) (PendingElement.Removes e.name) (requested os) :=
        last.mono (fun _ => id) fun y removes => removes.2
      rcases tracked.adds e (Or.inl stands) with waits | ⟨active, -⟩
      · -- a pending request that can be processed
        obtain ⟨x, member, rfl⟩ := exists_of_unanswered waits
        obtain ⟨handler, registered, handles⟩ := handled e
        have stuck := (rest _ (pending member) handler registered handles).2
        rw [satisfied] at stuck
        cases stuck
      · exact active
    · intro name none
      rcases exists_lastRequest_or_owed (requested os) name with ⟨e, named, last⟩ | free
      · exact absurd last (none e named)
      · rcases tracked.removes name free with waits | ⟨absent, -⟩
        · obtain ⟨x, member, removes, -⟩ := exists_of_unanswered waits
          obtain ⟨handler, registered, handles⟩ := handled x.mElement
          have adds := (rest x (pending member) handler registered handles).1
          rw [removes] at adds
          cases adds
        · exact not_isElementInActiveList_iff.mpr absent

/-- `b` depends on `a`. It waits, is added, and is removed again. -/
def inTurn : List Operation :=
  .addConfiguration .ADD [element "b" ["a"], element "a" []] :: (call 2 ++ (call 1 ++
    .addConfiguration .REMOVE [element "b" ["a"]] :: call 1))

theorem last_request_wins_inTurn :
    ∃ t, run (step oneHandler) .initial inTurn = some t ∧
      t.isElementInActiveList "b" = false ∧ element "a" [] ∈ t.mActiveConfig := by
  obtain ⟨-, rest⟩ := last_request_wins oneHandler inTurn
    (fun _ => ⟨_, List.mem_singleton_self _, rfl⟩) (by decide) rfl
  obtain ⟨adds, removes⟩ := rest ⟨rfl, fun p member => absurd member List.not_mem_nil⟩
  refine ⟨_, rfl, removes "b" ?_, adds _ (by decide) (by decide)⟩
  rintro e named last
  simp [LastRequest, requested, inTurn, call, Operation.requests, Unanswered, element, named]
    at last

/-- `b` is removed while it waits for `a`, which comes later. -/
def overtaken : List Operation :=
  .addConfiguration .ADD [element "b" ["a"]] :: (call 1 ++
    .addConfiguration .REMOVE [element "b" ["a"]] :: (call 2 ++
      .addConfiguration .ADD [element "a" []] :: (call 2 ++ call 1)))

theorem last_request_wins_fails :
    ∃ t, run (step oneHandler) .initial overtaken = some t ∧ AtRest oneHandler t ∧
      oneHandler.isSatisfied t (element "b" ["a"]) = true ∧
      LastRequest (requested overtaken) ⟨.REMOVE, element "b" ["a"]⟩ ∧
      t.isElementInActiveList "b" = true := by
  refine ⟨_, rfl, ⟨rfl, fun p member => absurd member List.not_mem_nil⟩, ?_, ?_, ?_⟩ <;> decide

end VRJuggler.Jccl
