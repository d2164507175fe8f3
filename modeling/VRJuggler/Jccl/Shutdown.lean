import Mathlib.Data.DFinsupp.WellFounded
import Mathlib.Data.Prod.Lex
import VRJuggler.Base.Hierarchy
import VRJuggler.Jccl.KeyedActive

/-!
# Shutting the configuration manager down

`ConfigManager::shutdown` requests the removal of all active elements and calls
`attemptReconfiguration` for as long as requests are processed, then clears the lists. While
an element that lost a dependency is requested again, an element can come and go many times;
but what is below it in the order of dependencies settles first.
-/
namespace VRJuggler.Jccl

namespace ConfigManager

/-! ## `shutdown` -/

/-- The loop of `shutdown`, from within a call of `attemptReconfiguration`, with the steps of
the calls. `answers` has what the handlers will answer, of which `asked` are used up; `none`
when `fuel` steps are not enough. -/
def shutdownLoop (reg : Registered) (answers : Nat → Bool) :
    Nat → Nat → ConfigManager → Option ConfigManager
  | 0, _, _ => none
  | fuel + 1, asked, s =>
    match s.handling, s.remaining with
    | [], _ =>
      if 0 < s.elements_processed then
        shutdownLoop reg answers fuel asked (s.attemptReconfiguration reg)
      else some s
    | _ :: _, [] => (s.finish reg).bind (shutdownLoop reg answers fuel asked)
    | _ :: _, _ :: _ =>
      (s.visit reg (answers asked)).bind (shutdownLoop reg answers fuel (asked + 1))

/-- The lists and the counters are cleared. -/
def clear (s : ConfigManager) : ConfigManager :=
  { s with
    mActiveConfig := []
    visited := []
    remaining := []
    mIncomingConfig := []
    mPendingCheckCount := 0
    mLastPendingSize := 0 }

/-- `shutdown`. `slots` are the requests that the slots of `mConfigurationSignal` make when it
tells them of the removals. -/
def shutdown (reg : Registered) (slots : List PendingElement) (answers : Nat → Bool)
    (attemptRemoval : Bool) (s : ConfigManager) (fuel : Nat) :
    Option (Registered × ConfigManager) :=
  let emptied (s : ConfigManager) := ({ reg with mElementHandlers := [] }, s.clear)
  if attemptRemoval then
    let s := { s with mIncomingConfig := s.mIncomingConfig ++ slots }
    let s := s.addConfiguration .REMOVE s.mActiveConfig
    (shutdownLoop reg answers fuel 0 (s.attemptReconfiguration reg)).map emptied
  else some (emptied s)

/-! ## Dependencies -/

/-- All requests that wait. -/
def requests (s : ConfigManager) : List PendingElement :=
  s.visited ++ s.remaining ++ s.mIncomingConfig

/-- The elements that the manager knows. -/
def elements (s : ConfigManager) : List ConfigElement :=
  s.mActiveConfig ++ s.requests.map PendingElement.mElement

end ConfigManager

/-- An element of the second name has to wait for the first name. -/
def DependsOn (reg : Registered) (elements : List ConfigElement) (dependency name : String) :
    Prop :=
  ∃ e ∈ elements, e.name = name ∧ dependency ∈ reg.dependencies e

/-- No element has to wait for one of its own name. -/
def AcyclicDependencies (reg : Registered) (elements : List ConfigElement) : Prop :=
  ∀ name, ¬ Relation.TransGen (DependsOn reg elements) name name

namespace ConfigManager

variable (reg : Registered) (rank : String → Nat) (s : ConfigManager)

/-! ## What is left at a rank -/

/-- The requests at this rank that could be processed with an addition. -/
def ready (i : Nat) : Nat :=
  s.requests.countP fun p =>
    p.mType = .ADD ∧ rank p.mElement.name = i ∧ reg.isSatisfied s p.mElement

def activeAt (i : Nat) : Nat := s.mActiveConfig.countP fun e => rank e.name = i

/-- The requests at this rank to remove what is not active. -/
def idle (i : Nat) : Nat :=
  s.requests.countP fun p => p.mType = .REMOVE ∧ rank p.mElement.name = i ∧
    ¬ s.isElementInActiveList p.mElement.name

/-- What is left, the lowest ranks first. -/
def left (bound : Nat) : Lex (Fin (bound + 1) → ℕ ×ₗ (ℕ ×ₗ ℕ)) :=
  toLex fun i => toLex (s.ready reg rank i, toLex (s.activeAt rank i, s.idle rank i))

/-- All elements that the manager knows have names above those of their dependencies, and up
to the bound. -/
structure Ranked (bound : Nat) : Prop where
  lower : ∀ e ∈ s.elements, ∀ d ∈ reg.dependencies e, rank d < rank e.name
  bounded : ∀ e ∈ s.elements, rank e.name ≤ bound

variable {reg rank s} {t : ConfigManager} {bound : Nat}

/-- The names of an element's dependencies are what matters for it. -/
theorem isSatisfied_congr {e : ConfigElement}
    (same : ∀ d ∈ reg.dependencies e, s.isElementInActiveList d = t.isElementInActiveList d) :
    reg.isSatisfied s e = reg.isSatisfied t e := by
  rw [Bool.eq_iff_iff]
  simp only [Registered.isSatisfied, List.all_eq_true]
  exact forall₂_congr fun d member => by rw [same d member]

theorem Ranked.of_subset (ranked : s.Ranked reg rank bound) (fewer : t.elements ⊆ s.elements) :
    t.Ranked reg rank bound where
  lower e member := ranked.lower e (fewer member)
  bounded e member := ranked.bounded e (fewer member)

/-- Nothing changes that the rank depends on. -/
theorem left_congr (active : t.mActiveConfig = s.mActiveConfig)
    (requests : t.requests = s.requests) : t.left reg rank bound = s.left reg rank bound := by
  have satisfied (e : ConfigElement) : reg.isSatisfied t e = reg.isSatisfied s e :=
    isSatisfied_congr fun d _ => by rw [isElementInActiveList, isElementInActiveList, active]
  have inactive (name : String) : t.isElementInActiveList name = s.isElementInActiveList name := by
    rw [isElementInActiveList, isElementInActiveList, active]
  simp only [left, ready, activeAt, idle, active, requests, satisfied, inactive]

/-! ## A request is processed -/

section Processed

variable {p : PendingElement} {before after : List PendingElement}

/-- A request of this name was taken, and at most what is active under this name changed. -/
structure Took (s t : ConfigManager) (p : PendingElement) (before after : List PendingElement) :
    Prop where
  was : s.requests = before ++ p :: after
  now : t.requests = before ++ after
  others : ∀ name, name ≠ p.mElement.name →
    t.isElementInActiveList name = s.isElementInActiveList name

theorem mem_elements_of_request {q : PendingElement} (member : q ∈ s.requests) :
    q.mElement ∈ s.elements :=
  List.mem_append_right _ (List.mem_map_of_mem member)

/-- Elements up to the rank of the name have their dependencies below it. -/
theorem Took.isSatisfied_eq (took : Took s t p before after) (ranked : s.Ranked reg rank bound)
    {e : ConfigElement} (member : e ∈ s.elements) (low : rank e.name ≤ rank p.mElement.name) :
    reg.isSatisfied t e = reg.isSatisfied s e := by
  refine isSatisfied_congr fun d dependency => took.others d ?_
  rintro rfl
  have below := ranked.lower e member _ dependency
  omega

/-- One request less, and the others counted as before. -/
theorem countP_took {f g : PendingElement → Prop} [DecidablePred f] [DecidablePred g]
    (same : ∀ q ∈ before ++ after, f q ↔ g q) :
    (before ++ p :: after).countP g = (before ++ after).countP f + if g p then 1 else 0 := by
  have others : (before ++ after).countP f = (before ++ after).countP g :=
    List.countP_congr fun q member => by simpa using same q member
  rw [others, List.countP_append, List.countP_cons, List.countP_append, Nat.add_assoc]
  simp

theorem Took.ready_eq (took : Took s t p before after) (ranked : s.Ranked reg rank bound)
    {i : Nat} (low : i ≤ rank p.mElement.name) :
    s.ready reg rank i = t.ready reg rank i +
      if p.mType = .ADD ∧ rank p.mElement.name = i ∧ reg.isSatisfied s p.mElement then 1
      else 0 := by
  rw [ready, ready, took.was, took.now]
  refine countP_took fun q member => ?_
  have known : q ∈ s.requests := by
    rw [took.was]
    exact List.mem_append.mpr ((List.mem_append.mp member).imp id (List.mem_cons_of_mem p))
  refine and_congr_right fun _ => and_congr_right fun here => ?_
  rw [took.isSatisfied_eq ranked (mem_elements_of_request known) (by omega)]

variable (rank) in
theorem Took.idle_eq (took : Took s t p before after) {i : Nat}
    (same : ∀ name, rank name = i → t.isElementInActiveList name = s.isElementInActiveList name) :
    s.idle rank i = t.idle rank i +
      if p.mType = .REMOVE ∧ rank p.mElement.name = i ∧
        ¬ s.isElementInActiveList p.mElement.name then 1 else 0 := by
  rw [idle, idle, took.was, took.now]
  refine countP_took fun q _ => ?_
  refine and_congr_right fun _ => and_congr_right fun here => ?_
  rw [same q.mElement.name here]

/-- Below its rank nothing changes, and what is left at its rank must get less. -/
theorem Took.left_lt (took : Took s t p before after) (ranked : s.Ranked reg rank bound)
    (active : ∀ i, i < rank p.mElement.name → t.activeAt rank i = s.activeAt rank i)
    (less : toLex (t.ready reg rank (rank p.mElement.name),
        toLex (t.activeAt rank (rank p.mElement.name), t.idle rank (rank p.mElement.name))) <
      toLex (s.ready reg rank (rank p.mElement.name),
        toLex (s.activeAt rank (rank p.mElement.name), s.idle rank (rank p.mElement.name)))) :
    t.left reg rank bound < s.left reg rank bound := by
  have member : p ∈ s.requests := by
    rw [took.was]
    exact List.mem_append_right before (List.mem_cons_self ..)
  have inside := ranked.bounded _ (mem_elements_of_request member)
  refine ⟨⟨rank p.mElement.name, Nat.lt_succ_of_le inside⟩, fun j below => ?_, less⟩
  have below : (j : Nat) < rank p.mElement.name := below
  have ready := took.ready_eq ranked (Nat.le_of_lt below)
  have idle := took.idle_eq rank (i := (j : Nat)) fun name here => took.others name (by
    rintro rfl
    omega)
  rw [if_neg fun counted => absurd counted.2.1 (by omega)] at ready idle
  simp only [left, Pi.toLex_apply, ready, idle, active j below, Nat.add_zero]

end Processed

/-- An addition uses a request up that could be processed. -/
theorem left_lt_of_activated {e : ConfigElement} {rest : List PendingElement}
    (ranked : s.Ranked reg rank bound) (here : s.remaining = ⟨.ADD, e⟩ :: rest)
    (satisfied : reg.isSatisfied s e = true) (active : t.mActiveConfig = s.mActiveConfig ++ [e])
    (requests : t.requests = s.visited ++ rest ++ s.mIncomingConfig) :
    t.left reg rank bound < s.left reg rank bound := by
  have took : Took s t ⟨.ADD, e⟩ s.visited (rest ++ s.mIncomingConfig) := by
    refine ⟨by simp [ConfigManager.requests, here], by simp [requests], fun name other => ?_⟩
    simp [isElementInActiveList, active, Ne.symm other]
  have fewer := took.ready_eq ranked (Nat.le_refl _)
  rw [if_pos ⟨rfl, rfl, satisfied⟩] at fewer
  refine took.left_lt ranked (fun i below => ?_) (Prod.Lex.toLex_lt_toLex.mpr (.inl ?_))
  · have other : rank e.name ≠ i := Nat.ne_of_gt below
    simp [activeAt, active, other]
  · exact Nat.lt_of_lt_of_eq (Nat.lt_succ_self _) fewer.symm

/-- What is active under other names stays. -/
theorem isElementInActiveList_remove {name other : String} (different : other ≠ name)
    (active : t.mActiveConfig = Configuration.remove s.mActiveConfig name) :
    t.isElementInActiveList other = s.isElementInActiveList other := by
  rw [Bool.eq_iff_iff, isElementInActiveList_iff, isElementInActiveList_iff, active]
  refine exists_congr fun e => and_congr_left fun named => ?_
  exact List.mem_eraseP_of_neg (by simpa [named] using Ne.symm different)

variable (rank) in
/-- Either the first active element of the name goes, or there was none. -/
theorem activeAt_remove {name : String}
    (active : t.mActiveConfig = Configuration.remove s.mActiveConfig name) :
    (s.isElementInActiveList name = true ∧ ∀ i,
        s.activeAt rank i = t.activeAt rank i + if rank name = i then 1 else 0) ∨
      s.isElementInActiveList name = false ∧ t.mActiveConfig = s.mActiveConfig := by
  cases inactive : s.isElementInActiveList name with
  | false =>
    refine .inr ⟨rfl, ?_⟩
    rw [active, Configuration.remove, List.eraseP_of_forall_not]
    intro e member named
    have present := isElementInActiveList_iff.mpr ⟨e, member, (beq_iff_eq.mp named).symm⟩
    rw [inactive] at present
    cases present
  | true =>
    refine .inl ⟨rfl, fun i => ?_⟩
    obtain ⟨e, member, named⟩ := isElementInActiveList_iff.mp inactive
    have here : (name == e.name) = true := by simpa using named.symm
    obtain ⟨first, before, after, -, same, parts, erased⟩ :=
      List.exists_of_eraseP (p := fun e => name == e.name) member here
    have same : name = first.name := by simpa using same
    rw [activeAt, activeAt, active, Configuration.remove, erased, parts, List.countP_append,
      List.countP_cons, List.countP_append, Nat.add_assoc]
    simp [same]

theorem left_lt_of_deactivated {e : ConfigElement} {rest : List PendingElement}
    (ranked : s.Ranked reg rank bound) (here : s.remaining = ⟨.REMOVE, e⟩ :: rest)
    (active : t.mActiveConfig = Configuration.remove s.mActiveConfig e.name)
    (requests : t.requests = s.visited ++ rest ++ s.mIncomingConfig) :
    t.left reg rank bound < s.left reg rank bound := by
  have took : Took s t ⟨.REMOVE, e⟩ s.visited (rest ++ s.mIncomingConfig) :=
    ⟨by simp [ConfigManager.requests, here], by simp [requests],
      fun name other => isElementInActiveList_remove other active⟩
  have ready := took.ready_eq ranked (Nat.le_refl _)
  rw [if_neg (by simp), Nat.add_zero] at ready
  rcases activeAt_remove rank active with ⟨-, fewer⟩ | ⟨inactive, same⟩
  · -- an active element is gone
    refine took.left_lt ranked (fun i below => ?_)
      (Prod.Lex.toLex_lt_toLex.mpr (.inr ⟨ready.symm, Prod.Lex.toLex_lt_toLex.mpr (.inl ?_)⟩))
    · have other : rank e.name ≠ i := Nat.ne_of_gt below
      rw [fewer i, if_neg other, Nat.add_zero]
    · have gone := fewer (rank e.name)
      rw [if_pos rfl] at gone
      exact Nat.lt_of_lt_of_eq (Nat.lt_succ_self _) gone.symm
  · -- the request was in vain
    have unchanged (name : String) :
        t.isElementInActiveList name = s.isElementInActiveList name := by
      rw [isElementInActiveList, isElementInActiveList, same]
    have fewer := took.idle_eq rank (i := rank e.name) fun name _ => unchanged name
    rw [if_pos ⟨rfl, rfl, by simp [inactive]⟩] at fewer
    refine took.left_lt ranked (fun i _ => ?_) (Prod.Lex.toLex_lt_toLex.mpr
      (.inr ⟨ready.symm, Prod.Lex.toLex_lt_toLex.mpr (.inr ⟨?_, ?_⟩)⟩))
    · rw [activeAt, activeAt, same]
    · simp [activeAt, same]
    · exact Nat.lt_of_lt_of_eq (Nat.lt_succ_self _) fewer.symm

/-- The requests for elements that lost a dependency: they cannot be added before others are,
and are to be removed while they are active. -/
theorem left_scanned (active : t.mActiveConfig = s.mActiveConfig)
    (requests : t.requests = s.visited ++ (s.lost reg).flatMap lostPair ++ s.mIncomingConfig)
    (ended : s.remaining = []) : t.left reg rank bound = s.left reg rank bound := by
  have satisfied (e : ConfigElement) : reg.isSatisfied t e = reg.isSatisfied s e :=
    isSatisfied_congr fun d _ => by rw [isElementInActiveList, isElementInActiveList, active]
  have inactive (name : String) : t.isElementInActiveList name = s.isElementInActiveList name := by
    rw [isElementInActiveList, isElementInActiveList, active]
  have counted (f : PendingElement → Prop) [DecidablePred f]
      (none' : ∀ q ∈ (s.lost reg).flatMap lostPair, ¬ f q) :
      t.requests.countP f = s.requests.countP f := by
    have zero : ((s.lost reg).flatMap lostPair).countP f = 0 :=
      List.countP_eq_zero.mpr fun q member => by simpa using none' q member
    rw [requests, ConfigManager.requests, ended, List.countP_append, List.countP_append, zero]
    simp
  have pair {q : PendingElement} (member : q ∈ (s.lost reg).flatMap lostPair) :
      reg.isSatisfied s q.mElement = false ∧ s.isElementInActiveList q.mElement.name = true := by
    obtain ⟨e, lost, among⟩ := List.mem_flatMap.mp member
    have same : q.mElement = e := by
      simp only [lostPair, List.mem_cons, List.not_mem_nil, or_false] at among
      rcases among with rfl | rfl
      · rfl
      · rfl
    obtain ⟨present, unsatisfied⟩ := mem_lost.mp lost
    rw [same]
    exact ⟨unsatisfied, isElementInActiveList_iff.mpr ⟨e, present, rfl⟩⟩
  have ready (i : Nat) : t.ready reg rank i = s.ready reg rank i := by
    simp only [ConfigManager.ready, satisfied]
    exact counted _ fun q member able => by simp [(pair member).1] at able
  have idle (i : Nat) : t.idle rank i = s.idle rank i := by
    simp only [ConfigManager.idle, inactive]
    exact counted _ fun q member vain => by simp [(pair member).2] at vain
  simp only [left, ready, idle, activeAt, active]

/-! ## The steps of a call -/

theorem elements_subset (active : t.mActiveConfig ⊆ s.elements)
    (requests : ∀ q ∈ t.requests, q.mElement ∈ s.elements) : t.elements ⊆ s.elements := by
  intro e member
  rcases List.mem_append.mp member with member | member
  · exact active member
  · obtain ⟨q, request, rfl⟩ := List.mem_map.mp member
    exact requests q request

variable (reg rank bound s) in
/-- Nothing changes but where the iterator stands. -/
theorem left_of_requests (active : t.mActiveConfig = s.mActiveConfig)
    (requests : t.requests = s.requests) :
    t.elements ⊆ s.elements ∧ t.left reg rank bound = s.left reg rank bound := by
  refine ⟨?_, left_congr active requests⟩
  rw [elements, elements, active, requests]
  exact List.Subset.refl _

variable (reg rank bound) in
/-- No element has become known, and either less is left or nothing was processed. -/
def Onward (s t : ConfigManager) : Prop :=
  t.elements ⊆ s.elements ∧ (t.left reg rank bound < s.left reg rank bound ∨
    t.left reg rank bound = s.left reg rank bound ∧ t.elements_processed = s.elements_processed)

theorem Onward.refl (s : ConfigManager) : Onward reg rank bound s s :=
  ⟨List.Subset.refl _, .inr ⟨rfl, rfl⟩⟩

theorem Onward.trans {u : ConfigManager} (first : Onward reg rank bound s t)
    (second : Onward reg rank bound t u) : Onward reg rank bound s u := by
  refine ⟨List.Subset.trans second.1 first.1, ?_⟩
  rcases first.2 with less | same
  · rcases second.2 with less' | same'
    · exact .inl (lt_trans less' less)
    · exact .inl (by rw [same'.1]; exact less)
  · rw [← same.1, ← same.2]
    exact second.2

theorem onward_of_move {o : Operation} (ranked : s.Ranked reg rank bound) (move : Move reg s o t)
    (within : o = .finish ∨ ∃ accepted, o = .visit accepted) : Onward reg rank bound s t := by
  have activeKnown : s.mActiveConfig ⊆ s.elements := List.subset_append_left _ _
  cases move with
  | requested => simp at within
  | refreshed => simp at within
  | began => simp at within
  | @passed _ _ _ cur rest walks here refused =>
    have same := left_of_requests reg rank s bound
      (t := { s with visited := s.visited ++ [cur], remaining := rest }) rfl
      (by simp [requests, here])
    exact ⟨same.1, .inr ⟨same.2, rfl⟩⟩
  | @activated _ _ element rest walks here handles satisfied =>
    have request : ⟨.ADD, element⟩ ∈ s.requests := by simp [requests, here]
    refine ⟨elements_subset ?_ fun q member => mem_elements_of_request ?_,
      .inl (left_lt_of_activated ranked here satisfied rfl (by simp [requests]))⟩
    · exact List.append_subset.mpr
        ⟨activeKnown, by simpa using mem_elements_of_request request⟩
    · simp only [requests, here, List.mem_append, List.mem_cons] at member ⊢
      tauto
  | @deactivated _ _ element rest walks here handles =>
    refine ⟨elements_subset ?_ fun q member => mem_elements_of_request ?_,
      .inl (left_lt_of_deactivated ranked here rfl (by simp [requests]))⟩
    · exact fun e member => activeKnown (List.mem_of_mem_eraseP member)
    · simp only [requests, here, List.mem_append, List.mem_cons] at member ⊢
      tauto
  | scanned walks ended scans =>
    refine ⟨elements_subset activeKnown fun q member => ?_,
      .inr ⟨left_scanned rfl (by simp [requests]) ended, rfl⟩⟩
    simp only [requests, List.nil_append, List.mem_append, List.mem_flatMap] at member
    rcases member with (member | ⟨e, lost, pair⟩) | member
    · exact mem_elements_of_request (by simp [requests, member])
    · -- the element was found in the active configuration
      have same : q.mElement = e := by
        simp only [lostPair, List.mem_cons, List.not_mem_nil, or_false] at pair
        rcases pair with rfl | rfl
        · rfl
        · rfl
      rw [same]
      exact activeKnown (mem_lost.mp lost).1
    · exact mem_elements_of_request (by simp [requests, member])
  | @finished _ others walks ended scans =>
    have same := left_of_requests reg rank s bound
      (t := { s with visited := [], remaining := s.visited, handling := others }) rfl
      (by simp [requests, ended])
    exact ⟨same.1, .inr ⟨same.2, rfl⟩⟩

/-! ## The loop ends -/

variable (reg) in
theorem exists_visit (accepted : Bool) {handler : ConfigElementHandler}
    {others : List ConfigElementHandler} {cur : PendingElement} {rest : List PendingElement}
    (walks : s.handling = handler :: others) (here : s.remaining = cur :: rest) :
    ∃ t, s.visit reg accepted = some t ∧ t.handling = handler :: others ∧ t.remaining = rest := by
  have some' : (s.visit reg accepted).isSome := by
    simp only [visit, walks, here]
    repeat' split
    all_goals simp
  obtain ⟨t, visited⟩ := Option.isSome_iff_exists.mp some'
  refine ⟨t, visited, ?_⟩
  cases move_of_visit visited with
  | passed _ here' => exact ⟨walks, (List.cons.inj (here'.symm.trans here)).2⟩
  | activated _ here' => exact ⟨walks, (List.cons.inj (here'.symm.trans here)).2⟩
  | deactivated _ here' => exact ⟨walks, (List.cons.inj (here'.symm.trans here)).2⟩

variable (reg) in
theorem exists_finish {handler : ConfigElementHandler} {others : List ConfigElementHandler}
    (walks : s.handling = handler :: others) (ended : s.remaining = []) :
    ∃ t, s.finish reg = some t ∧ t.handling = others := by
  simp only [finish, walks, ended]
  exact ⟨_, rfl, rfl⟩

/-- A call of `attemptReconfiguration` comes to its end, and the loop then goes on. -/
theorem call_ends (answers : Nat → Bool) (asked : Nat) (ranked : s.Ranked reg rank bound) :
    ∃ t asked', t.handling = [] ∧ Onward reg rank bound s t ∧
      ∀ u, Returns (shutdownLoop reg answers · asked' t) u →
        Returns (shutdownLoop reg answers · asked s) u := by
  induction walks : s.handling generalizing s asked with
  | nil => exact ⟨s, asked, walks, .refl s, fun _ returns => returns⟩
  | cons handler others ih =>
    -- the walk of one handler
    induction here : s.remaining generalizing s asked with
    | nil =>
      obtain ⟨t, finished, after⟩ := exists_finish reg walks here
      have onward := onward_of_move ranked (move_of_finish finished) (.inl rfl)
      obtain ⟨u, asked', idle, onward', goes⟩ := ih asked (ranked.of_subset onward.1) after
      refine ⟨u, asked', idle, onward.trans onward', fun v returns => ?_⟩
      refine (goes v returns).congr fun fuel => ?_
      simp only [shutdownLoop, walks, here, finished, Option.bind_some]
    | cons cur rest ih' =>
      obtain ⟨t, visited, walks', after⟩ := exists_visit reg (answers asked) walks here
      have onward := onward_of_move ranked (move_of_visit visited) (.inr ⟨_, rfl⟩)
      obtain ⟨u, asked', idle, onward', goes⟩ :=
        ih' (asked + 1) (ranked.of_subset onward.1) walks' after
      refine ⟨u, asked', idle, onward.trans onward', fun v returns => ?_⟩
      refine (goes v returns).congr fun fuel => ?_
      simp only [shutdownLoop, walks, here, visited, Option.bind_some]

/-- The loop ends, whatever the handlers answer. -/
theorem shutdownLoop_ends (answers : Nat → Bool) (asked : Nat) (ranked : s.Ranked reg rank bound)
    (fresh : s.elements_processed = 0) :
    ∃ t, Returns (shutdownLoop reg answers · asked s) t := by
  have less_wf : WellFounded fun m m' : Lex (Fin (bound + 1) → ℕ ×ₗ (ℕ ×ₗ ℕ)) => m < m' :=
    wellFounded_lt
  induction remains : s.left reg rank bound using less_wf.induction generalizing s asked with
  | _ remains' ih =>
    obtain ⟨t, asked', idle, onward, goes⟩ := call_ends answers asked ranked
    by_cases none' : t.elements_processed = 0
    · refine ⟨t, goes t ((Returns.of_some t).congr fun fuel => ?_)⟩
      simp [shutdownLoop, idle, none']
    · -- something was processed, so that less is left
      have less : t.left reg rank bound < s.left reg rank bound := by
        rcases onward.2 with less | same
        · exact less
        · exact absurd (same.2.trans fresh) none'
      have again := left_of_requests reg rank t bound
        (t := t.attemptReconfiguration reg) (by rw [attemptReconfiguration_eq])
        (by simp [attemptReconfiguration_eq, requests, mPendingConfig])
      obtain ⟨u, returns⟩ := ih _ (by rw [← remains]; exact less) asked'
        (ranked.of_subset (List.Subset.trans again.1 onward.1))
        (by rw [attemptReconfiguration_eq]) again.2
      refine ⟨u, goes u (returns.congr fun fuel => ?_)⟩
      simp [shutdownLoop, idle, Nat.pos_of_ne_zero none']

theorem exists_ranked {known : List ConfigElement} (acyclic : AcyclicDependencies reg known)
    (inside : s.elements ⊆ known) : ∃ rank bound, s.Ranked reg rank bound := by
  have finite (d name : String) (depends : DependsOn reg known d name) :
      d ∈ known.flatMap reg.dependencies := by
    obtain ⟨e, member, -, dependency⟩ := depends
    exact List.mem_flatMap.mpr ⟨e, member, dependency⟩
  obtain ⟨rank, bound, lower, bounded⟩ := exists_rank finite acyclic
  exact ⟨rank, bound, fun e member d dependency =>
    lower d e.name ⟨e, inside member, rfl, dependency⟩, fun e _ => bounded e.name⟩

end ConfigManager

open ConfigManager

/-- Whatever is active and pending and whatever the handlers answer, `shutdown` ends when the
dependencies are acyclic, and then no element is active and no request waits. -/
theorem shutdown_ends (reg : Registered) (slots : List PendingElement) (answers : Nat → Bool)
    (attemptRemoval : Bool) (s : ConfigManager)
    (acyclic : AcyclicDependencies reg (s.elements ++ slots.map PendingElement.mElement)) :
    ∃ reg' t, Returns (shutdown reg slots answers attemptRemoval s) (reg', t) ∧
      t.mActiveConfig = [] ∧ t.mPendingConfig = [] ∧ t.mIncomingConfig = [] := by
  cases attemptRemoval with
  | false =>
    refine ⟨{ reg with mElementHandlers := [] }, s.clear, ⟨0, fun fuel _ => ?_⟩, ?_⟩
    · simp [shutdown]
    · simp [clear, mPendingConfig]
  | true =>
    let removing := ({ s with mIncomingConfig := s.mIncomingConfig ++ slots }.addConfiguration
      .REMOVE s.mActiveConfig).attemptReconfiguration reg
    have inside : removing.elements ⊆ s.elements ++ slots.map PendingElement.mElement := by
      intro e member
      simp only [removing, attemptReconfiguration_eq, addConfiguration, elements, requests,
        mPendingConfig, List.mem_append, List.mem_map] at member ⊢
      grind
    obtain ⟨rank, bound, ranked⟩ := exists_ranked acyclic inside
    obtain ⟨t, returns⟩ := shutdownLoop_ends answers 0 ranked
      (by simp only [removing, attemptReconfiguration_eq])
    refine ⟨{ reg with mElementHandlers := [] }, t.clear, ?_, ?_⟩
    · exact returns.map fun t => ({ reg with mElementHandlers := [] }, t.clear)
    · simp [clear, mPendingConfig]

/-- Dependencies with names of a lower rank are acyclic. -/
theorem acyclicDependencies_of_rank {reg : Registered} {known : List ConfigElement}
    (rank : String → Nat)
    (lower : ∀ e ∈ known, ∀ d ∈ reg.dependencies e, rank d < rank e.name) :
    AcyclicDependencies reg known := by
  have below {d name : String} (depends : Relation.TransGen (DependsOn reg known) d name) :
      rank d < rank name := by
    induction depends with
    | single first =>
      obtain ⟨e, member, rfl, dependency⟩ := first
      exact lower e member _ dependency
    | tail _ last ih =>
      obtain ⟨e, member, rfl, dependency⟩ := last
      exact Nat.lt_trans ih (lower e member _ dependency)
  exact fun name loop => Nat.lt_irrefl _ (below loop)

/-- Two elements are active, and a third one waits; each depends on the one before. -/
def chained : ConfigManager :=
  { ConfigManager.initial with
    mActiveConfig := [element "a" [], element "b" ["a"]]
    remaining := [⟨.ADD, element "c" ["b"]⟩] }

theorem shutdown_ends_chained :
    AcyclicDependencies oneHandler (chained.elements ++ ([] : List PendingElement).map
      PendingElement.mElement) ∧
    ∃ reg' t, Returns (shutdown oneHandler [] (fun _ => true) true chained) (reg', t) ∧
      t.mActiveConfig = [] ∧ t.mPendingConfig = [] ∧ t.mIncomingConfig = [] := by
  have acyclic : AcyclicDependencies oneHandler (chained.elements ++
      ([] : List PendingElement).map PendingElement.mElement) :=
    acyclicDependencies_of_rank (fun name => ["a", "b", "c"].idxOf name) (by decide)
  exact ⟨acyclic, shutdown_ends oneHandler [] (fun _ => true) true chained acyclic⟩

end VRJuggler.Jccl
