import Mathlib.Data.List.Induction
import Mathlib.Data.List.Nodup
import VRJuggler.Base.Saturation
import VRJuggler.Tweek.Beans

/-!
# The order of loading

The beans can be passed in any order and in any batches: those that are registered at the end are
the least set with every bean that can be loaded and has its dependencies there. The others wait,
unless they were given up. The names of all beans are distinct; they include the services, one of
which is asked before each bean is loaded.
-/
namespace VRJuggler.Tweek

open TweekCore

variable (instantiate : TweekBean → Option InstantiationFailure) (lazyInst : Bool)

/-! ## What should hold -/

/-- The bean is not instantiated before it is shown, or its instantiation succeeds. -/
def Loadable (bean : TweekBean) : Prop :=
  (bean.kind = .panel ∧ lazyInst = true) ∨ instantiate bean = none

/-- The dependencies of the bean are in the set. -/
def Satisfied (S : Set TweekBean) (bean : TweekBean) : Prop :=
  ∀ dep ∈ bean.dependencies, ∃ b ∈ S, b.getName = dep

/-- Nothing is done with a bean before its dependencies are registered. -/
def InOrder (events : List LoadEvent) : Prop :=
  ∀ before e after, events = before ++ e :: after →
    Satisfied {b | b ∈ staticBeans lazyInst ∨ .register b ∈ before} e.bean

/-- What should hold after these lists of beans have been passed. -/
structure LoadsWell (batches : List (Option (List TweekBean))) : Prop where
  ordered : InOrder lazyInst (session instantiate lazyInst batches).events
  least : IsLeast
    {S | Saturation.Closed Satisfied (Loadable instantiate lazyInst)
      {b | b ∈ staticBeans lazyInst} {b | b ∈ passed batches} S}
    (session instantiate lazyInst batches).registry.beans
  waiting : ∀ b, b ∈ (session instantiate lazyInst batches).mDepManager.mPending ↔
    b ∈ passed batches ∧ ¬ Satisfied (session instantiate lazyInst batches).registry.beans b
  left_over : ∀ b, b ∈ (session instantiate lazyInst batches).mDepManager.mPending ↔
    b ∈ passed batches ∧ b ∉ (session instantiate lazyInst batches).registry.beans ∧
      .instantiate b ∉ (session instantiate lazyInst batches).events
  confluent : ∀ batches', (passed batches').Perm (passed batches) →
    (session instantiate lazyInst batches').registry.beans =
      (session instantiate lazyInst batches).registry.beans ∧
    (session instantiate lazyInst batches').mDepManager.mPending.Perm
      (session instantiate lazyInst batches).mDepManager.mPending

/-! ## The registry -/

namespace BeanRegistry

variable {registry : BeanRegistry} {bean : TweekBean}

theorem isRegistered_iff {name : String} :
    registry.isRegistered name = true ↔ ∃ b ∈ registry.beans, b.getName = name := by
  rw [isRegistered, Option.isSome_iff_exists]
  constructor
  · rintro ⟨b, found⟩
    obtain rfl := registry.named name b found
    exact ⟨b, found, rfl⟩
  · rintro ⟨b, found, rfl⟩
    exact ⟨b, found⟩

theorem satisfied_iff : (∀ dep ∈ bean.dependencies, registry.isRegistered dep = true) ↔
    Satisfied registry.beans bean := by
  simp only [isRegistered_iff, Satisfied]

/-- Only a bean with the same name is replaced. -/
theorem beans_registerBean
    (distinct : ∀ b ∈ registry.beans, b.getName = bean.getName → b = bean) :
    (registry.registerBean bean).beans = insert bean registry.beans := by
  ext b
  by_cases same : b.getName = bean.getName
  · simp only [beans, getBean, registerBean, Set.mem_ofPred_eq, Set.mem_insert_iff, same,
      SortedMap.find_insert_self, Option.some.injEq]
    constructor
    · intro equal
      exact .inl equal.symm
    · rintro (equal | found)
      · exact equal.symm
      · rw [← same] at found
        exact (distinct b found same).symm
  · have other : b ≠ bean := fun equal => same (by rw [equal])
    simp only [beans, getBean, registerBean, Set.mem_ofPred_eq, Set.mem_insert_iff,
      SortedMap.find_insert_of_ne _ _ same, other, false_or]

theorem beans_empty : empty.beans = ∅ := by
  ext b
  simp [beans, getBean, empty]

end BeanRegistry

/-! ## One bean -/

section

variable {instantiate lazyInst} {core : TweekCore} {bean : TweekBean}

variable (instantiate) in
theorem tryLoad_cases (prefs : core.registry.getLazyPanelBeanInstantiation = .ok lazyInst) :
    (Loadable instantiate lazyInst bean ∧ ∃ tried ⊆ [.instantiate bean],
      core.tryLoad instantiate bean =
        ({ core with events := core.events ++ tried }.registerBean bean, none)) ∨
    (¬ Loadable instantiate lazyInst bean ∧ ∃ e, core.tryLoad instantiate bean =
      ({ core with events := core.events ++ [.instantiate bean] }, some e)) := by
  rw [tryLoad, prefs]
  dsimp only
  split
  next now =>
    have eager : ¬ (bean.kind = .panel ∧ lazyInst = true) := by
      rintro ⟨panel, rfl⟩
      simp [panel] at now
    cases outcome : instantiate bean with
    | none => exact .inl ⟨.inr outcome, [.instantiate bean], List.Subset.refl _, rfl⟩
    | some e =>
      right
      refine ⟨?_, e, rfl⟩
      rintro (later | succeeds)
      · exact eager later
      · rw [outcome] at succeeds
        cases succeeds
  next later =>
    have panel : bean.kind = .panel ∧ lazyInst = true := by simpa using later
    exact .inl ⟨.inl panel, [], by simp, by simp⟩

variable (instantiate core bean) in
theorem loadBean_cases (prefs : core.registry.getLazyPanelBeanInstantiation = .ok lazyInst) :
    ∃ new, (core.loadBean instantiate bean).events = core.events ++ new ∧
      (∀ e ∈ new, e.bean = bean) ∧
      ((Loadable instantiate lazyInst bean ∧ .register bean ∈ new ∧
          (core.loadBean instantiate bean).registry = core.registry.registerBean bean) ∨
        (¬ Loadable instantiate lazyInst bean ∧ .instantiate bean ∈ new ∧
          (core.loadBean instantiate bean).registry = core.registry)) := by
  rcases tryLoad_cases instantiate prefs with
    ⟨loadable, tried, about, loaded⟩ | ⟨unloadable, e, failed⟩
  · refine ⟨tried ++ [.register bean], ?_, ?_, .inl ⟨loadable, by simp, ?_⟩⟩
    · simp [loadBean, loaded, TweekCore.registerBean]
    · intro e member
      rcases List.mem_append.mp member with before | last
      · rw [List.mem_singleton.mp (about before)]
        rfl
      · rw [List.mem_singleton.mp last]
        rfl
    · simp [loadBean, loaded, TweekCore.registerBean]
  · refine ⟨[.instantiate bean], ?_, by simp [LoadEvent.bean], .inr ⟨unloadable, by simp, ?_⟩⟩
    · cases e <;> simp [loadBean, failed]
    · cases e <;> simp [loadBean, failed]

end

/-! ## Every run -/

/-- What holds between two beans, where `beans` have been passed. -/
structure Invariant (beans : List TweekBean) (core : TweekCore) : Prop where
  reached : Saturation.Reached Satisfied (Loadable instantiate lazyInst)
    {b | b ∈ staticBeans lazyInst} {b | b ∈ beans} core.mDepManager.mPending core.registry.beans
  nodup : core.mDepManager.mPending.Nodup
  logged : ∀ b ∈ core.registry.beans, b ∈ staticBeans lazyInst ∨ .register b ∈ core.events
  ordered : InOrder lazyInst core.events
  past : ∀ e ∈ core.events, e.bean ∈ beans ∧ e.bean ∉ core.mDepManager.mPending
  outcome : ∀ b ∈ beans, b ∉ core.mDepManager.mPending →
    b ∈ core.registry.beans ∨ .instantiate b ∈ core.events

/-- No two beans have the same name, the services among them. -/
def Distinct (beans : List TweekBean) : Prop :=
  ((staticBeans lazyInst ++ beans).map TweekBean.getName).Nodup

section

variable {instantiate lazyInst} {core : TweekCore} {bean : TweekBean} {beans new : List TweekBean}
  {events : List LoadEvent} {S T : Set TweekBean}

theorem Satisfied.mono (more : S ⊆ T) (satisfied : Satisfied S bean) : Satisfied T bean := by
  intro dep member
  obtain ⟨b, here, named⟩ := satisfied dep member
  exact ⟨b, more here, named⟩

theorem InOrder.append {added : List LoadEvent} (ordered : InOrder lazyInst events)
    (about : ∀ e ∈ added, e.bean = bean)
    (satisfied : Satisfied {b | b ∈ staticBeans lazyInst ∨ .register b ∈ events} bean) :
    InOrder lazyInst (events ++ added) := by
  intro before e after split
  rcases List.append_eq_append_iff.mp split with ⟨more, rfl, rest⟩ | ⟨more, rfl, rest⟩
  · -- the event is one of the new ones
    have member : e ∈ added := by simp [rest]
    rw [about e member]
    refine satisfied.mono fun b here => ?_
    exact here.imp_right fun registered => List.mem_append_left more registered
  · cases more with
    | nil =>
      have member : e ∈ added := by
        rw [← List.nil_append added, ← rest]
        exact List.mem_cons_self ..
      rw [about e member]
      simpa using satisfied
    | cons first more =>
      rw [List.cons_append] at rest
      obtain ⟨rfl, -⟩ := List.cons.inj rest
      exact ordered before e more rfl

/-- The service that is asked is registered, and no bean has taken its name. -/
theorem Invariant.prefs (invariant : Invariant instantiate lazyInst beans core) :
    core.registry.getLazyPanelBeanInstantiation = .ok lazyInst := by
  have found : _ ∈ core.registry.beans := invariant.reached.first_subset
    (show (staticBeans lazyInst).get ⟨1, by simp [staticBeans]⟩ ∈ staticBeans lazyInst from
      List.get_mem ..)
  rw [BeanRegistry.getLazyPanelBeanInstantiation]
  simp only [BeanRegistry.beans, Set.mem_ofPred_eq, staticBeans, List.get, TweekBean.getName]
    at found
  rw [found]

theorem Invariant.eq_of_name (invariant : Invariant instantiate lazyInst beans core)
    (distinct : Distinct lazyInst beans) (member : bean ∈ beans) :
    ∀ b ∈ core.registry.beans, b.getName = bean.getName → b = bean := by
  intro b here same
  have there : b ∈ staticBeans lazyInst ++ beans :=
    List.mem_append.mpr (invariant.reached.subset_items here)
  exact List.inj_on_of_nodup_map distinct there (List.mem_append_right _ member) same

/-- Where its dependencies are registered, they were so before the events that follow. -/
theorem Invariant.satisfied (invariant : Invariant instantiate lazyInst beans core)
    (satisfied : Satisfied core.registry.beans bean) :
    Satisfied {b | b ∈ staticBeans lazyInst ∨ .register b ∈ core.events} bean :=
  satisfied.mono fun b here => invariant.logged b here

/-- A bean whose dependencies are registered is registered or given up. -/
theorem Invariant.load (invariant : Invariant instantiate lazyInst beans core)
    (distinct : Distinct lazyInst beans) (member : bean ∈ core.mDepManager.mPending)
    (satisfied : Satisfied core.registry.beans bean) :
    Invariant instantiate lazyInst beans (loadBean
      { core with mDepManager := ⟨core.mDepManager.mPending.erase bean⟩ } instantiate bean) := by
  obtain ⟨new, events, about, outcome⟩ := loadBean_cases instantiate
    { core with mDepManager := ⟨core.mDepManager.mPending.erase bean⟩ } bean invariant.prefs
  have pending := mDepManager_loadBean
    { core with mDepManager := ⟨core.mDepManager.mPending.erase bean⟩ } instantiate bean
  -- no other bean has its name, so registering it replaces nothing
  have only := invariant.eq_of_name distinct (invariant.reached.pending_subset bean member)
  generalize loadBean _ instantiate bean = after at *
  have gone : bean ∉ core.mDepManager.mPending.erase bean := invariant.nodup.not_mem_erase
  have ordered : InOrder lazyInst after.events := by
    rw [events]
    exact invariant.ordered.append about (invariant.satisfied satisfied)
  -- the events are about beans that wait no more
  have past : ∀ e ∈ after.events, e.bean ∈ beans ∧ e.bean ∉ after.mDepManager.mPending := by
    intro e there
    rw [pending]
    rw [events] at there
    rcases List.mem_append.mp there with old | here
    · obtain ⟨was, waits⟩ := invariant.past e old
      exact ⟨was, fun still => waits (List.mem_of_mem_erase still)⟩
    · rw [about e here]
      exact ⟨invariant.reached.pending_subset bean member, gone⟩
  have nodup : after.mDepManager.mPending.Nodup := by
    rw [pending]
    exact invariant.nodup.erase bean
  -- the bean is registered, or it is tried and given up
  rcases outcome with ⟨loadable, registered, registry⟩ | ⟨unloadable, tried, registry⟩
  · have now : after.registry.beans = insert bean core.registry.beans := by
      rw [registry]
      exact BeanRegistry.beans_registerBean only
    refine ⟨?reached, nodup, ?logged, ordered, past, ?outcome⟩
    case reached =>
      rw [pending, now]
      exact invariant.reached.accept Satisfied.mono member satisfied loadable
    case logged =>
      rw [now, events]
      rintro b (rfl | old)
      · exact .inr (List.mem_append_right _ registered)
      · exact (invariant.logged b old).imp_right fun here => List.mem_append_left _ here
    case outcome =>
      rw [pending, now, events]
      intro b here waits
      rcases Saturation.Reached.mem_erase_of_mem waits with rfl | waits
      · exact .inl (Set.mem_insert b _)
      · exact (invariant.outcome b here waits).imp (fun old => Set.mem_insert_of_mem _ old)
          fun old => List.mem_append_left _ old
  · have now : after.registry.beans = core.registry.beans := by rw [registry]
    refine ⟨?reached, nodup, ?logged, ordered, past, ?outcome⟩
    case reached =>
      rw [pending, now]
      exact invariant.reached.drop satisfied unloadable
    case logged =>
      rw [now, events]
      intro b old
      exact (invariant.logged b old).imp_right fun here => List.mem_append_left _ here
    case outcome =>
      rw [pending, now, events]
      intro b here waits
      rcases Saturation.Reached.mem_erase_of_mem waits with rfl | waits
      · exact .inr (List.mem_append_right _ tried)
      · exact (invariant.outcome b here waits).imp_right fun old => List.mem_append_left _ old

/-- No bean waits whose dependencies are registered. -/
def Stuck (core : TweekCore) : Prop :=
  ∀ bean ∈ core.mDepManager.mPending, ¬ Satisfied core.registry.beans bean

theorem Invariant.loadPending (invariant : Invariant instantiate lazyInst beans core)
    (distinct : Distinct lazyInst beans) :
    Invariant instantiate lazyInst beans (loadPending instantiate core) ∧
      Stuck (TweekCore.loadPending instantiate core) := by
  induction core using TweekCore.loadPending.induct instantiate with
  | case1 core _ rest popped =>
    rw [loadPending_of_none popped]
    refine ⟨invariant, fun bean member satisfied => ?_⟩
    have ready := BeanRegistry.satisfied_iff.mpr satisfied
    exact BeanDependencyManager.pop_none popped bean member ready
  | case2 core _ bean rest popped ih =>
    rw [loadPending_of_some popped]
    obtain ⟨member, ready, rfl⟩ := BeanDependencyManager.pop_some popped
    exact ih (invariant.load distinct member (BeanRegistry.satisfied_iff.mp ready))
  | case3 core empty =>
    rw [loadPending_of_empty empty]
    refine ⟨invariant, fun bean member => ?_⟩
    exact absurd (decide_eq_true (List.length_pos_of_mem member)) empty

theorem foldl_add (manager : BeanDependencyManager) :
    new.foldl BeanDependencyManager.add manager = ⟨manager.mPending ++ new⟩ := by
  induction new generalizing manager with
  | nil => simp
  | cons bean new ih => simp [ih, BeanDependencyManager.add]

/-- New beans wait, and nothing has been done with them. -/
theorem Invariant.add (invariant : Invariant instantiate lazyInst beans core)
    (distinct : Distinct lazyInst (beans ++ new)) :
    Invariant instantiate lazyInst (beans ++ new)
      { core with mDepManager := new.foldl BeanDependencyManager.add core.mDepManager } := by
  have all : (beans ++ new).Nodup := by
    have both := List.Nodup.of_map _ distinct
    exact both.of_append_right
  have apart : ∀ b ∈ beans, b ∉ new := by
    intro b old here
    exact List.disjoint_of_nodup_append all old here
  rw [foldl_add]
  constructor
  case reached =>
    have reached := invariant.reached.add new
    have items : {b | b ∈ beans} ∪ {b | b ∈ new} = {b | b ∈ beans ++ new} := by
      ext b
      simp
    rwa [items] at reached
  case nodup =>
    refine List.Nodup.append invariant.nodup all.of_append_right fun b old here => ?_
    exact apart b (invariant.reached.pending_subset b old) here
  case logged => exact invariant.logged
  case ordered => exact invariant.ordered
  case past =>
    intro e there
    obtain ⟨was, waits⟩ := invariant.past e there
    refine ⟨List.mem_append_left _ was, fun still => ?_⟩
    rcases List.mem_append.mp still with old | here
    · exact waits old
    · exact apart _ was here
  case outcome =>
    intro b here waits
    simp only [List.mem_append, not_or] at here waits
    exact invariant.outcome b (here.resolve_right waits.2) waits.1

variable (instantiate lazyInst) in
theorem invariant_registerStaticBeans :
    Invariant instantiate lazyInst [] (registerStaticBeans lazyInst) := by
  have registered : (registerStaticBeans lazyInst).registry.beans =
      {b | b ∈ staticBeans lazyInst} := by
    rw [registerStaticBeans, staticBeans]
    simp only [List.foldl_cons, List.foldl_nil]
    rw [BeanRegistry.beans_registerBean, BeanRegistry.beans_registerBean, BeanRegistry.beans_empty]
    · ext b
      simp [or_comm]
    · simp [BeanRegistry.beans_empty]
    · rw [BeanRegistry.beans_registerBean (by simp [BeanRegistry.beans_empty]),
        BeanRegistry.beans_empty]
      simp [TweekBean.getName]
  constructor
  case reached =>
    rw [registered]
    have none : {b : TweekBean | b ∈ ([] : List TweekBean)} = ∅ := by simp
    rw [none]
    exact Saturation.Reached.start
  case nodup => exact .nil
  case logged =>
    rw [registered]
    exact fun b here => .inl here
  case ordered => exact fun before e after split => by simp [registerStaticBeans] at split
  case past => simp [registerStaticBeans]
  case outcome => simp

theorem session_concat (batches : List (Option (List TweekBean)))
    (batch : Option (List TweekBean)) : session instantiate lazyInst (batches ++ [batch]) =
      loadBeans instantiate (session instantiate lazyInst batches) batch := by
  rw [session, List.foldl_append]
  rfl

theorem passed_concat (batches : List (Option (List TweekBean)))
    (batch : Option (List TweekBean)) : passed (batches ++ [batch]) =
      passed batches ++ batch.getD [] := by
  simp [passed]

theorem Distinct.left (distinct : Distinct lazyInst (beans ++ new)) : Distinct lazyInst beans := by
  rw [Distinct, ← List.append_assoc, List.map_append] at distinct
  exact distinct.of_append_left

variable (instantiate) in
/-- After each list of beans. -/
theorem invariant_session (batches : List (Option (List TweekBean)))
    (distinct : Distinct lazyInst (passed batches)) :
    Invariant instantiate lazyInst (passed batches) (session instantiate lazyInst batches) ∧
      Stuck (session instantiate lazyInst batches) := by
  induction batches using List.reverseRecOn with
  | nil =>
    refine ⟨invariant_registerStaticBeans instantiate lazyInst, fun bean member => ?_⟩
    cases member
  | append_singleton batches batch ih =>
    rw [passed_concat] at distinct ⊢
    obtain ⟨invariant, stuck⟩ := ih distinct.left
    rw [session_concat]
    cases batch with
    | none =>
      rw [Option.getD_none, List.append_nil]
      exact ⟨invariant, stuck⟩
    | some beans => exact (invariant.add distinct).loadPending distinct

end

/-! ## Any order -/

section

variable {instantiate lazyInst} {batches : List (Option (List TweekBean))}

variable (instantiate) in
theorem isLeast_session (distinct : Distinct lazyInst (passed batches)) :
    IsLeast {S | Saturation.Closed Satisfied (Loadable instantiate lazyInst)
      {b | b ∈ staticBeans lazyInst} {b | b ∈ passed batches} S}
      (session instantiate lazyInst batches).registry.beans := by
  obtain ⟨invariant, stuck⟩ := invariant_session instantiate batches distinct
  exact invariant.reached.isLeast stuck

theorem waiting_session (distinct : Distinct lazyInst (passed batches)) (b : TweekBean) :
    b ∈ (session instantiate lazyInst batches).mDepManager.mPending ↔ b ∈ passed batches ∧
      ¬ Satisfied (session instantiate lazyInst batches).registry.beans b := by
  obtain ⟨invariant, stuck⟩ := invariant_session instantiate batches distinct
  exact invariant.reached.mem_pending_iff stuck

theorem left_over_session (distinct : Distinct lazyInst (passed batches)) (b : TweekBean) :
    b ∈ (session instantiate lazyInst batches).mDepManager.mPending ↔ b ∈ passed batches ∧
      b ∉ (session instantiate lazyInst batches).registry.beans ∧
      .instantiate b ∉ (session instantiate lazyInst batches).events := by
  obtain ⟨invariant, -⟩ := invariant_session instantiate batches distinct
  constructor
  · intro waits
    have member := invariant.reached.pending_subset b waits
    refine ⟨member, fun registered => ?_, fun tried => (invariant.past _ tried).2 waits⟩
    rcases invariant.logged b registered with first | later
    · -- the services have other names
      have names := distinct
      rw [Distinct, List.map_append] at names
      exact List.disjoint_of_nodup_append names (List.mem_map_of_mem first)
        (List.mem_map_of_mem member)
    · exact (invariant.past _ later).2 waits
  · rintro ⟨member, unregistered, untried⟩
    by_contra gone
    rcases invariant.outcome b member gone with registered | tried
    · exact unregistered registered
    · exact untried tried

theorem Distinct.perm {batches' : List (Option (List TweekBean))}
    (distinct : Distinct lazyInst (passed batches))
    (same : (passed batches').Perm (passed batches)) : Distinct lazyInst (passed batches') :=
  ((same.append_left _).map _).nodup_iff.mpr distinct

/-- The same beans are registered for every order and batching. -/
theorem beans_session_eq {batches' : List (Option (List TweekBean))}
    (distinct : Distinct lazyInst (passed batches))
    (same : (passed batches').Perm (passed batches)) :
    (session instantiate lazyInst batches').registry.beans =
      (session instantiate lazyInst batches).registry.beans := by
  have left := isLeast_session instantiate (distinct.perm same)
  have items : {b | b ∈ passed batches'} = {b | b ∈ passed batches} := by
    ext b
    exact same.mem_iff
  rw [items] at left
  exact left.unique (isLeast_session instantiate distinct)

theorem pending_session_perm {batches' : List (Option (List TweekBean))}
    (distinct : Distinct lazyInst (passed batches))
    (same : (passed batches').Perm (passed batches)) :
    (session instantiate lazyInst batches').mDepManager.mPending.Perm
      (session instantiate lazyInst batches).mDepManager.mPending := by
  have left := (invariant_session instantiate batches' (distinct.perm same)).1
  have right := (invariant_session instantiate batches distinct).1
  rw [List.perm_ext_iff_of_nodup left.nodup right.nodup]
  intro b
  rw [waiting_session (distinct.perm same), waiting_session distinct, same.mem_iff,
    beans_session_eq distinct same]

end

theorem loadBeans_loads (batches : List (Option (List TweekBean)))
    (distinct : Distinct lazyInst (passed batches)) : LoadsWell instantiate lazyInst batches where
  ordered := (invariant_session instantiate batches distinct).1.ordered
  least := isLeast_session instantiate distinct
  waiting := waiting_session distinct
  left_over := left_over_session distinct
  confluent := fun _ same => ⟨beans_session_eq distinct same, pending_session_perm distinct same⟩

/-- A viewer is passed before the panel it depends on, which is not instantiated yet. -/
theorem loadBeans_loads_viewer :
    LoadsWell
      (fun bean => if bean.kind = .panel then some (.beanInstantiation "no such class") else none)
      true
      [some [⟨2, ⟨"Tree Viewer", some ["Console"]⟩, .viewer⟩], none,
        some [⟨3, ⟨"Console", none⟩, .panel⟩]] :=
  loadBeans_loads _ _ _ (by simp [Distinct, passed, staticBeans, TweekBean.getName])

end VRJuggler.Tweek
