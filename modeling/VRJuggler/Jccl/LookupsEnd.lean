import VRJuggler.Jccl.PropertyLookup

/-!
# When the look-ups return

The look-ups of `jccl::ConfigDefinition` go up from parent to parent without a record of where
they have been. So they return just when they come to no loop of parents, or to what they look
for before it.
-/
namespace VRJuggler.Jccl

variable {repository : DefinitionRepository} {d : Definition} {token : String}

theorem mapM_isSome {α β : Type} {f : α → Option β} {xs : List α} {ys : List β}
    (mapped : xs.mapM f = some ys) {x : α} (member : x ∈ xs) : (f x).isSome := by
  induction xs generalizing ys with
  | nil => cases member
  | cons y rest ih =>
    simp only [List.mapM_cons, bind, pure, Option.bind_eq_some_iff] at mapped
    obtain ⟨first, here, others, later, -⟩ := mapped
    rcases List.mem_cons.mp member with rfl | member
    · rw [here]
      rfl
    · exact ih later member

/-! ## The list of all properties -/

theorem noLoop_iff_acc : Acc repository.hierarchy.Parent d ↔ repository.hierarchy.NoLoop d :=
  Hierarchy.acc_iff_noLoop fun p => (SortedMap.mem_keys_iff _ p).mpr

theorem acc_of_listed {depth : Nat} {all : List Child}
    (listed : getAllPropertyDefinitions repository depth d = some all) :
    Acc repository.hierarchy.Parent d := by
  induction depth generalizing d all with
  | zero => cases listed
  | succ depth ih =>
    rw [getAllPropertyDefinitions_succ] at listed
    obtain ⟨inherited, mapped, -⟩ := Option.map_eq_some_iff.mp listed
    constructor
    intro e parent
    obtain ⟨above, there⟩ :=
      Option.isSome_iff_exists.mp (mapM_isSome mapped (mem_resolved.mpr parent))
    exact ih there

theorem listed_of_acc (ends : Acc repository.hierarchy.Parent d) :
    Terminates (getAllPropertyDefinitions repository · d) := by
  induction ends with
  | intro d _ ih =>
    have each (e : Definition) : ∃ all, e ∈ repository.resolved d →
        Returns (getAllPropertyDefinitions repository · e) all := by
      by_cases up : e ∈ repository.resolved d
      · obtain ⟨all, returns⟩ := ih e (mem_resolved.mp up)
        exact ⟨all, fun _ => returns⟩
      · exact ⟨[], fun member => absurd member up⟩
    choose all returns using each
    exact ⟨_, returns_getAllPropertyDefinitions d returns⟩

theorem getAllPropertyDefinitions_terminates_iff :
    Terminates (getAllPropertyDefinitions repository · d) ↔ repository.hierarchy.NoLoop d := by
  rw [← noLoop_iff_acc]
  constructor
  · rintro ⟨all, returns⟩
    obtain ⟨depth, listed⟩ := returns.exists_some
    exact acc_of_listed listed
  · exact listed_of_acc

/-! ## One property -/

/-- Going up parent by parent comes to a definition that has the token itself, and the parents
passed over come to no loop. -/
inductive Finds (repository : DefinitionRepository) (token : String) : Definition → Prop where
  | own {d : Definition} (has : (d.own token).isSome) : Finds repository token d
  | parent {d e : Definition} {before after : List Definition}
      (parts : repository.resolved d = before ++ e :: after)
      (passed : ∀ f ∈ before, repository.hierarchy.NoLoop f)
      (finds : Finds repository token e) : Finds repository token d

/-- What a search over the parents comes to. -/
theorem firstFound_eq_some {call : Definition → Option (Option Child)} {es : List Definition}
    {found : Option Child} (searched : firstFound call es = some found) :
    (found = none ∧ ∀ e ∈ es, call e = some none) ∨
      ∃ before e after p, es = before ++ e :: after ∧ (∀ f ∈ before, call f = some none) ∧
        call e = some (some p) ∧ found = some p := by
  induction es with
  | nil => exact Or.inl ⟨(Option.some.inj searched).symm, by simp⟩
  | cons e rest ih =>
    rw [firstFound] at searched
    obtain ⟨prop_def, here, more⟩ := Option.bind_eq_some_iff.mp searched
    cases prop_def with
    | some p =>
      exact Or.inr ⟨[], e, rest, p, rfl, by simp, here, (Option.some.inj more).symm⟩
    | none =>
      rcases ih more with ⟨none', all⟩ | ⟨before, f, after, p, rfl, passed, there, same⟩
      · exact Or.inl ⟨none', List.forall_mem_cons.mpr ⟨here, all⟩⟩
      · exact Or.inr ⟨e :: before, f, after, p, rfl, List.forall_mem_cons.mpr ⟨here, passed⟩,
          there, same⟩

/-- A search that returns without a property has gone up all the way. -/
theorem of_searched {depth : Nat} {found : Option Child}
    (searched : getPropertyDefinition repository depth d token = some found) :
    (found = none → Acc repository.hierarchy.Parent d) ∧
      (found.isSome → Finds repository token d) := by
  induction depth generalizing d found with
  | zero => cases searched
  | succ depth ih =>
    rw [getPropertyDefinition_succ] at searched
    cases own : d.own token with
    | some p =>
      rw [own, Option.elim_some] at searched
      obtain rfl := Option.some.inj searched
      refine ⟨fun none' => ?_, fun _ => .own (by rw [own]; rfl)⟩
      cases none'
    | none =>
      rw [own, Option.elim_none] at searched
      rcases firstFound_eq_some searched with
        ⟨rfl, all⟩ | ⟨before, e, after, p, parts, passed, here, rfl⟩
      · constructor
        · exact fun _ => ⟨d, fun e parent => (ih (all e (mem_resolved.mpr parent))).1 rfl⟩
        · intro some'
          cases some'
      · constructor
        · intro none'
          cases none'
        · intro _
          have ends (f : Definition) (member : f ∈ before) : repository.hierarchy.NoLoop f :=
            noLoop_iff_acc.mp ((ih (passed f member)).1 rfl)
          exact .parent parts ends ((ih here).2 rfl)

theorem searched_of_acc (token : String) (ends : Acc repository.hierarchy.Parent d) :
    Terminates (getPropertyDefinition repository · d token) := by
  induction ends with
  | intro d _ ih =>
    have each (e : Definition) : ∃ found, e ∈ repository.resolved d →
        Returns (getPropertyDefinition repository · e token) found := by
      by_cases up : e ∈ repository.resolved d
      · obtain ⟨found, returns⟩ := ih e (mem_resolved.mp up)
        exact ⟨found, fun _ => returns⟩
      · exact ⟨none, fun member => absurd member up⟩
    choose found returns using each
    exact ⟨_, returns_getPropertyDefinition d returns⟩

/-- A search meets a property behind parents for which it returns. -/
theorem returns_firstFound_of_found {call : Nat → Definition → Option (Option Child)}
    {before : List Definition} (after : List Definition) {e : Definition} {p : Child}
    (passed : ∀ f ∈ before, Terminates (call · f)) (found : Returns (call · e) (some p)) :
    ∃ q, Returns (fun depth => firstFound (call depth) (before ++ e :: after)) (some q) := by
  induction before with
  | nil => exact ⟨p, returns_firstFound_cons found (Returns.of_some (some p))⟩
  | cons f rest ih =>
    obtain ⟨first, here⟩ := passed f (List.mem_cons_self ..)
    obtain ⟨q, later⟩ := ih fun g member => passed g (List.mem_cons_of_mem f member)
    cases first with
    | none => exact ⟨q, returns_firstFound_cons here later⟩
    | some r => exact ⟨r, returns_firstFound_cons here (Returns.of_some (some r))⟩

theorem searched_of_finds (finds : Finds repository token d) :
    ∃ p, Returns (getPropertyDefinition repository · d token) (some p) := by
  induction finds with
  | @own d has =>
    obtain ⟨p, own⟩ := Option.isSome_iff_exists.mp has
    refine ⟨p, (Returns.of_some (some p)).congr fun depth => ?_⟩
    rw [getPropertyDefinition_succ, own, Option.elim_some]
  | @parent d e before after parts passed _ ih =>
    obtain ⟨p, here⟩ := ih
    cases own : d.own token with
    | some q =>
      refine ⟨q, (Returns.of_some (some q)).congr fun depth => ?_⟩
      rw [getPropertyDefinition_succ, own, Option.elim_some]
    | none =>
      have ends (f : Definition) (member : f ∈ before) :=
        searched_of_acc token (noLoop_iff_acc.mpr (passed f member))
      obtain ⟨q, found⟩ := returns_firstFound_of_found after ends here
      refine ⟨q, found.congr fun depth => ?_⟩
      rw [getPropertyDefinition_succ, own, Option.elim_none, parts]

theorem getPropertyDefinition_terminates_iff :
    Terminates (getPropertyDefinition repository · d token) ↔
      repository.hierarchy.NoLoop d ∨ Finds repository token d := by
  constructor
  · rintro ⟨found, returns⟩
    obtain ⟨depth, searched⟩ := returns.exists_some
    cases found with
    | none => exact Or.inl (noLoop_iff_acc.mp ((of_searched searched).1 rfl))
    | some p => exact Or.inr ((of_searched searched).2 rfl)
  · rintro (none' | finds)
    · exact searched_of_acc token (noLoop_iff_acc.mpr none')
    · obtain ⟨p, returns⟩ := searched_of_finds finds
      exact ⟨some p, returns⟩

/-! ## The search for a parent -/

/-- The search does not go beyond the definition: it compares the token there, or no parent of
it is in the repository. -/
def Stops (h : Hierarchy String ConfigDefinition) (token : String) (e : ConfigDefinition) : Prop :=
  token ∈ compared h.get (h.parents e) ∨ (h.parents e).findSome? h.get = none

theorem terminates_of_compared {repository : ConfigDefinitionRepository} {d : ConfigDefinition}
    (member : token ∈ compared repository.hierarchy.get (repository.hierarchy.parents d)) :
    Terminates (isParent repository · d token) := by
  refine ⟨true, (Returns.of_some true).congr fun depth => ?_⟩
  rw [isParent_succ, if_pos member]

theorem isParent_terminates_iff {repository : ConfigDefinitionRepository} {d : ConfigDefinition} :
    Terminates (isParent repository · d token) ↔
      ∃ e, Visits repository.hierarchy d e ∧ Stops repository.hierarchy token e := by
  constructor
  · rintro ⟨found, returns⟩
    obtain ⟨depth, searched⟩ := returns.exists_some
    clear returns
    induction depth generalizing d with
    | zero => cases searched
    | succ depth ih =>
      rw [isParent_succ] at searched
      by_cases member : token ∈ compared repository.hierarchy.get (repository.hierarchy.parents d)
      · exact ⟨d, .refl, Or.inl member⟩
      · rw [if_neg member] at searched
        cases next : (repository.hierarchy.parents d).findSome? repository.hierarchy.get with
        | none => exact ⟨d, .refl, Or.inr next⟩
        | some f =>
          rw [next, Option.elim_some] at searched
          obtain ⟨e, visits, stops⟩ := ih searched
          exact ⟨e, .head next visits, stops⟩
  · rintro ⟨e, visits, stops⟩
    induction visits using Relation.ReflTransGen.head_induction_on with
    | refl =>
      by_cases member : token ∈ compared repository.hierarchy.get (repository.hierarchy.parents e)
      · exact terminates_of_compared member
      · have none' := stops.resolve_left member
        refine ⟨false, (Returns.of_some false).congr fun depth => ?_⟩
        rw [isParent_succ, if_neg member, none', Option.elim_none]
    | @head d f next _ ih =>
      by_cases member : token ∈ compared repository.hierarchy.get (repository.hierarchy.parents d)
      · exact terminates_of_compared member
      · obtain ⟨found, returns⟩ := ih
        refine ⟨found, returns.congr fun depth => ?_⟩
        rw [isParent_succ, if_neg member, show _ = some f from next, Option.elim_some]

theorem get_forget (p : String) :
    repository.forget.get p = (repository.get p).map Definition.toConfigDefinition :=
  SortedMap.find_map ..

/-- Without properties there are the same ancestors. -/
theorem derives_of_forget {e : ConfigDefinition}
    (derives : repository.forget.hierarchy.Derives e token) :
    ∀ d : Definition, d.toConfigDefinition = e → repository.hierarchy.Derives d token := by
  induction derives with
  | named member =>
    rintro d rfl
    exact .named member
  | inherited member found _ ih =>
    rintro d rfl
    have found' := (get_forget _).symm.trans found
    obtain ⟨f, here, same⟩ := Option.map_eq_some_iff.mp found'
    exact .inherited member here (ih f same)

theorem acyclic_forget (acyclic : repository.hierarchy.Acyclic) :
    repository.forget.hierarchy.Acyclic := by
  intro p e found derives
  obtain ⟨d, here, same⟩ := Option.map_eq_some_iff.mp ((get_forget p).symm.trans found)
  exact acyclic p d here (derives_of_forget derives d same)

/-! ## All look-ups -/

/-- When each look-up returns. On all definitions and tokens they do just when no definition of
the repository is its own ancestor. -/
theorem lookups_end_iff (repository : DefinitionRepository) :
    (∀ d : Definition, ∀ token,
      (Terminates (isParent repository.forget · d.toConfigDefinition token) ↔
        ∃ e, Visits repository.forget.hierarchy d.toConfigDefinition e ∧
          Stops repository.forget.hierarchy token e) ∧
      (Terminates (getPropertyDefinition repository · d token) ↔
        repository.hierarchy.NoLoop d ∨ Finds repository token d) ∧
      (Terminates (getAllPropertyDefinitions repository · d) ↔ repository.hierarchy.NoLoop d)) ∧
    ((∀ d : Definition, ∀ token,
      Terminates (isParent repository.forget · d.toConfigDefinition token) ∧
      Terminates (getPropertyDefinition repository · d token) ∧
      Terminates (getAllPropertyDefinitions repository · d)) ↔
      repository.hierarchy.Acyclic) := by
  constructor
  · exact fun d token => ⟨isParent_terminates_iff, getPropertyDefinition_terminates_iff,
      getAllPropertyDefinitions_terminates_iff⟩
  · rw [Hierarchy.acyclic_iff_noLoop]
    constructor
    · exact fun all d => getAllPropertyDefinitions_terminates_iff.mp (all d "").2.2
    · intro none' d token
      have acyclic := acyclic_forget (Hierarchy.acyclic_iff_noLoop.mpr none')
      obtain ⟨found, returns, -⟩ := isParent_returns acyclic d.toConfigDefinition token
      exact ⟨⟨found, returns⟩, getPropertyDefinition_terminates_iff.mpr (Or.inl (none' d)),
        getAllPropertyDefinitions_terminates_iff.mpr (none' d)⟩

/-- Two definitions that name each other as parents. -/
def loopGlove : Definition := define "glove" ["digital"] []

def loopDigital : Definition := define "digital" ["glove"] []

def loop : DefinitionRepository := .load [loopDigital, loopGlove]

theorem not_noLoop_loopGlove : ¬ loop.hierarchy.NoLoop loopGlove := by
  intro none'
  have up : loop.hierarchy.Parent loopDigital loopGlove := ⟨"digital", by decide, by decide⟩
  have back : loop.hierarchy.Parent loopGlove loopDigital := ⟨"glove", by decide, by decide⟩
  exact none' loopGlove .refl (.tail (.single back) up)

theorem not_finds_loop {e : Definition} (finds : Finds loop "rate" e) :
    e ≠ loopGlove ∧ e ≠ loopDigital := by
  induction finds with
  | own has =>
    constructor
    · rintro rfl
      exact absurd has (by decide)
    · rintro rfl
      exact absurd has (by decide)
  | @parent d e before after parts _ _ ih =>
    have up : e ∈ loop.resolved d := by simp [parts]
    constructor
    · rintro rfl
      exact ih.2 (List.mem_singleton.mp (show e ∈ [loopDigital] from up))
    · rintro rfl
      exact ih.1 (List.mem_singleton.mp (show e ∈ [loopGlove] from up))

theorem visits_loop {e : ConfigDefinition}
    (visits : Visits loop.forget.hierarchy loopGlove.toConfigDefinition e) :
    e = loopGlove.toConfigDefinition ∨ e = loopDigital.toConfigDefinition := by
  induction visits with
  | refl => exact Or.inl rfl
  | tail _ next ih =>
    rcases ih with rfl | rfl
    · exact Or.inr (Option.some.inj next).symm
    · exact Or.inl (Option.some.inj next).symm

/-- No look-up returns on one of them. -/
theorem lookups_fail :
    ¬ Terminates (isParent loop.forget · loopGlove.toConfigDefinition "device") ∧
    ¬ Terminates (getPropertyDefinition loop · loopGlove "rate") ∧
    ¬ Terminates (getAllPropertyDefinitions loop · loopGlove) := by
  refine ⟨?_, ?_, ?_⟩
  · rw [isParent_terminates_iff]
    rintro ⟨e, visits, stops⟩
    rcases visits_loop visits with rfl | rfl
    · rcases stops with compared' | none'
      · exact absurd compared' (by decide)
      · exact absurd none' (by decide)
    · rcases stops with compared' | none'
      · exact absurd compared' (by decide)
      · exact absurd none' (by decide)
  · rw [getPropertyDefinition_terminates_iff]
    rintro (none' | finds)
    · exact not_noLoop_loopGlove none'
    · exact (not_finds_loop finds).1 rfl
  · rw [getAllPropertyDefinitions_terminates_iff]
    exact not_noLoop_loopGlove

end VRJuggler.Jccl
