import Mathlib.Data.String.Basic
import VRJuggler.Base.Hierarchy
import VRJuggler.Base.SortedMap

/-!
# The parents of element definitions

`jccl::ConfigDefinition::isParent` compares the names of the parents with a token, and goes on
with the first parent that is in the repository. What it looks at is compared with all that a
definition derives from.
-/
namespace VRJuggler.Jccl

/-- The texts of the `parent` elements may be empty. -/
structure ConfigDefinition where
  mToken : String
  version : Nat
  parents : List String
  deriving DecidableEq

structure ConfigDefinitionRepository where
  mDefs : SortedMap String ConfigDefinition

namespace ConfigDefinitionRepository

variable (repository : ConfigDefinitionRepository)

def get (token : String) : Option ConfigDefinition := repository.mDefs.find token

/-- Only a newer version replaces a definition. -/
def add (newDef : ConfigDefinition) : ConfigDefinitionRepository :=
  match repository.get newDef.mToken with
  | some old_def =>
    if old_def.version < newDef.version then ⟨repository.mDefs.insert newDef.mToken newDef⟩
    else repository
  | none => ⟨repository.mDefs.insert newDef.mToken newDef⟩

/-- A repository with these definitions. -/
def load (defs : List ConfigDefinition) : ConfigDefinitionRepository :=
  defs.foldl add ⟨SortedMap.empty⟩

/-- The names of parents, and the definitions that they stand for. -/
def hierarchy : Hierarchy String ConfigDefinition where
  parents d := d.parents.filter (· ≠ "")
  get := repository.get

end ConfigDefinitionRepository

open ConfigDefinitionRepository

/-- After `add`, there is a definition under the token that is at least as new as both the one
before and the one added. -/
theorem get_add (repository : ConfigDefinitionRepository) (newDef : ConfigDefinition) :
    ∃ d, (repository.add newDef).get newDef.mToken = some d ∧ newDef.version ≤ d.version ∧
      ∀ old_def, repository.get newDef.mToken = some old_def → old_def.version ≤ d.version := by
  have replaced : (ConfigDefinitionRepository.mk (repository.mDefs.insert newDef.mToken newDef)).get
      newDef.mToken = some newDef := SortedMap.find_insert_self ..
  rw [add]
  cases found : repository.get newDef.mToken with
  | some old_def =>
    simp only [Option.some.injEq, forall_eq']
    split
    · next newer => exact ⟨newDef, replaced, Nat.le_refl _, Nat.le_of_lt newer⟩
    · next older => exact ⟨old_def, found, Nat.not_lt.mp older, Nat.le_refl _⟩
  | none =>
    refine ⟨newDef, replaced, Nat.le_refl _, fun old_def old => ?_⟩
    cases old

/-! ## The search -/

/-- The loop of `isParent` over the parents. `isParent` is the call for another definition. -/
def checkParents (repository : ConfigDefinitionRepository)
    (isParent : ConfigDefinition → Option Bool) (token : String) : List String → Option Bool
  | [] => some false
  | p_name :: rest =>
    if p_name = "" then checkParents repository isParent token rest
    else if p_name = token then some true
    else
      match repository.get p_name with
      | some parent_def => isParent parent_def
      | none => checkParents repository isParent token rest

/-- `depth` calls fit on the stack. -/
def isParent (repository : ConfigDefinitionRepository) :
    Nat → ConfigDefinition → String → Option Bool
  | 0, _, _ => none
  | depth + 1, d, token =>
    checkParents repository (isParent repository depth · token) token d.parents

/-! ## What the search looks at -/

section Search

/-- The parents up to the first one that stands for a definition. -/
def compared (get : String → Option ConfigDefinition) : List String → List String
  | [] => []
  | p :: rest => if (get p).isSome then [p] else p :: compared get rest

/-- The parents behind it. -/
def leftOut (get : String → Option ConfigDefinition) : List String → List String
  | [] => []
  | p :: rest => if (get p).isSome then rest else leftOut get rest

variable (h : Hierarchy String ConfigDefinition)

/-- The definition that the search comes to next. -/
def Next (d e : ConfigDefinition) : Prop := (h.parents d).findSome? h.get = some e

/-- The definitions that it comes to. -/
def Visits : ConfigDefinition → ConfigDefinition → Prop := Relation.ReflTransGen (Next h)

/-- The search compares this name with the token, unless it has found the token before. -/
def Compares (d : ConfigDefinition) (name : String) : Prop :=
  ∃ e, Visits h d e ∧ name ∈ compared h.get (h.parents e)

/-- Every parent that is left out is compared elsewhere. -/
def NoneLeftOut (d : ConfigDefinition) : Prop :=
  ∀ e, Visits h d e → ∀ p ∈ leftOut h.get (h.parents e), Compares h d p

/-- All parents that are compared are in the repository, and so are none of those that are left
out and are not compared elsewhere. -/
def NoneAmiss (d : ConfigDefinition) : Prop :=
  ∀ e, Visits h d e → (∀ p ∈ compared h.get (h.parents e), (h.get p).isSome) ∧
    ∀ p ∈ leftOut h.get (h.parents e), (h.get p).isSome → Compares h d p

end Search

variable {h : Hierarchy String ConfigDefinition} {repository : ConfigDefinitionRepository}
  {get : String → Option ConfigDefinition} {names : List String} {d e : ConfigDefinition}
  {t p : String}

theorem compared_append_leftOut : compared get names ++ leftOut get names = names := by
  induction names with
  | nil => rfl
  | cons p rest ih =>
    rw [compared, leftOut]
    split
    · rfl
    · rw [List.cons_append, ih]

variable (get) in
theorem mem_compared_or_mem_leftOut (member : p ∈ names) :
    p ∈ compared get names ∨ p ∈ leftOut get names := by
  have parts : compared get names ++ leftOut get names = names := compared_append_leftOut
  exact List.mem_append.mp (parts.symm ▸ member)

/-- Only the last parent that is compared can stand for a definition. -/
theorem findSome?_of_mem_compared (member : p ∈ compared get names) (found : get p = some e) :
    names.findSome? get = some e := by
  induction names with
  | nil => cases member
  | cons q rest ih =>
    rw [compared] at member
    cases here : get q with
    | some f =>
      rw [here] at member
      obtain rfl := List.mem_singleton.mp member
      rw [List.findSome?_cons_of_isSome (by rw [found]; rfl), found]
    | none =>
      rw [here] at member
      rcases List.mem_cons.mp member with rfl | later
      · rw [here] at found
        cases found
      · rw [List.findSome?_cons_of_isNone (by rw [here]; rfl)]
        exact ih later

theorem mem_of_mem_compared (member : p ∈ compared get names) : p ∈ names := by
  have parts : compared get names ++ leftOut get names = names := compared_append_leftOut
  exact parts ▸ List.mem_append_left _ member

theorem mem_of_mem_leftOut (member : p ∈ leftOut get names) : p ∈ names := by
  have parts : compared get names ++ leftOut get names = names := compared_append_leftOut
  exact parts ▸ List.mem_append_right _ member

theorem Next.parent (next : Next h d e) : h.Parent e d := List.exists_of_findSome?_eq_some next

theorem compares_iff : Compares h d t ↔
    t ∈ compared h.get (h.parents d) ∨ ∃ e, Next h d e ∧ Compares h e t := by
  constructor
  · rintro ⟨e, visits, member⟩
    rcases Relation.ReflTransGen.cases_head visits with rfl | ⟨f, next, rest⟩
    · exact Or.inl member
    · exact Or.inr ⟨f, next, e, rest, member⟩
  · rintro (member | ⟨f, next, e, rest, member⟩)
    · exact ⟨d, .refl, member⟩
    · exact ⟨e, .head next rest, member⟩

theorem derives_of_visits (visits : Visits h d e) (derives : h.Derives e t) : h.Derives d t := by
  induction visits using Relation.ReflTransGen.head_induction_on with
  | refl => exact derives
  | head next _ ih =>
    obtain ⟨p, named, found⟩ := next.parent
    exact .inherited named found ih

/-- A name that is compared is one that the definition derives from. -/
theorem Compares.derives (compares : Compares h d t) : h.Derives d t := by
  obtain ⟨e, visits, member⟩ := compares
  exact derives_of_visits visits (.named (mem_of_mem_compared member))

/-! ## The result of the search -/

theorem checkParents_eq (call : ConfigDefinition → Option Bool) (parents : List String) :
    checkParents repository call t parents =
      if t ∈ compared repository.get (parents.filter (· ≠ "")) then some true
      else ((parents.filter (· ≠ "")).findSome? repository.get).elim (some false) call := by
  induction parents with
  | nil => rfl
  | cons p_name rest ih =>
    rw [checkParents]
    by_cases empty : p_name = ""
    · rw [if_pos empty, ih, List.filter_cons_of_neg (by simpa using empty)]
    · rw [if_neg empty, List.filter_cons_of_pos (by simpa using empty), compared]
      by_cases same : p_name = t
      · subst same
        rw [if_pos rfl, if_pos]
        -- the first name is compared in either case
        split <;> exact List.mem_cons_self ..
      · rw [if_neg same, List.findSome?_cons]
        cases found : repository.get p_name with
        | some parent_def =>
          have other : t ∉ [p_name] := fun member => same (List.mem_singleton.mp member).symm
          exact (if_neg other).symm
        | none =>
          simp only [Option.isSome_none, Bool.false_eq_true, if_false, ih]
          simp only [List.mem_cons, Ne.symm same, false_or]

/-- One call, in the terms of the hierarchy. -/
theorem isParent_succ (depth : Nat) (d : ConfigDefinition) (t : String) :
    isParent repository (depth + 1) d t =
      if t ∈ compared repository.hierarchy.get (repository.hierarchy.parents d) then some true
      else ((repository.hierarchy.parents d).findSome? repository.hierarchy.get).elim
        (some false) (isParent repository depth · t) :=
  checkParents_eq (isParent repository depth · t) d.parents

/-- With a stack that is deep enough, the search tells whether it compares the token. -/
theorem isParent_returns (acyclic : repository.hierarchy.Acyclic) (d : ConfigDefinition)
    (t : String) :
    ∃ found, Returns (isParent repository · d t) found ∧
      (found = true ↔ Compares repository.hierarchy d t) := by
  have going_up : WellFounded repository.hierarchy.Parent :=
    Hierarchy.wellFounded_parent acyclic fun p => (SortedMap.mem_keys_iff _ p).mpr
  induction d using going_up.induction with
  | _ d ih =>
    rw [compares_iff]
    by_cases member : t ∈ compared repository.hierarchy.get (repository.hierarchy.parents d)
    · refine ⟨true, (Returns.of_some true).congr fun depth => ?_, ?_⟩
      · rw [isParent_succ, if_pos member]
      · exact iff_of_true rfl (Or.inl member)
    · cases next : (repository.hierarchy.parents d).findSome? repository.hierarchy.get with
      | none =>
        refine ⟨false, (Returns.of_some false).congr fun depth => ?_, ?_⟩
        · rw [isParent_succ, if_neg member, next, Option.elim_none]
        · simp only [Bool.false_eq_true, false_iff]
          rintro (compares | ⟨e, found, -⟩)
          · exact member compares
          · cases next.symm.trans found
      | some e =>
        obtain ⟨found, returns, compares⟩ := ih e (Next.parent next)
        refine ⟨found, returns.congr fun depth => ?_, compares.trans ?_⟩
        · rw [isParent_succ, if_neg member, next, Option.elim_some]
        · constructor
          · exact fun compares => Or.inr ⟨e, next, compares⟩
          · rintro (here | ⟨f, next', compares⟩)
            · exact absurd here member
            · exact Option.some.inj (next'.symm.trans next) ▸ compares

/-- What is derived from through parents that are compared is compared. -/
theorem compares_of_derives (left : ∀ e, Visits h d e → ∀ p ∈ leftOut h.get (h.parents e),
      (h.get p).isSome → Compares h d p)
    (visits : Visits h d e) (derives : h.Derives e t) (last : (h.get t).isSome ∨ NoneLeftOut h d) :
    Compares h d t := by
  induction derives with
  | named member =>
    rcases mem_compared_or_mem_leftOut h.get member with here | after
    · exact ⟨_, visits, here⟩
    · rcases last with known | none
      · exact left _ visits _ after known
      · exact none _ visits _ after
  | @inherited d' e p t member found _ ih =>
    -- the parent is compared, so that the search comes to what it stands for
    have through : Compares h d p := by
      rcases mem_compared_or_mem_leftOut h.get member with here | after
      · exact ⟨d', visits, here⟩
      · exact left d' visits p after (by rw [found]; rfl)
    obtain ⟨f, there, compares⟩ := through
    exact ih (there.tail (findSome?_of_mem_compared compares found)) last

/-! ## The query and what it is to answer -/

variable (repository) in
/-- The search finds what a definition derives from just when every parent that it leaves out is
compared elsewhere; if only what is in the repository counts, just when in addition all parents
that are compared are there. -/
theorem isParent_iff (acyclic : repository.hierarchy.Acyclic) (d : ConfigDefinition) :
    (∀ t, ∃ found, Returns (isParent repository · d t) found) ∧
    ((∀ t, Returns (isParent repository · d t) true ↔ repository.hierarchy.Derives d t) ↔
      NoneLeftOut repository.hierarchy d) ∧
    ((∀ t, Returns (isParent repository · d t) true ↔
        repository.hierarchy.Derives d t ∧ (repository.get t).isSome) ↔
      NoneAmiss repository.hierarchy d) := by
  have answers (t : String) : Returns (isParent repository · d t) true ↔
      Compares repository.hierarchy d t := by
    obtain ⟨found, returns, compares⟩ := isParent_returns acyclic d t
    rw [← compares]
    constructor
    · exact fun yes => returns.unique yes
    · rintro rfl
      exact returns
  refine ⟨fun t => ?_, ?_, ?_⟩
  · obtain ⟨found, returns, -⟩ := isParent_returns acyclic d t
    exact ⟨found, returns⟩
  · simp only [answers]
    constructor
    · intro all e visits p after
      exact (all p).mpr (derives_of_visits visits (.named (mem_of_mem_leftOut after)))
    · intro none t
      constructor
      · exact Compares.derives
      · intro derives
        exact compares_of_derives (fun e visits p after _ => none e visits p after) .refl derives
          (Or.inr none)
  · simp only [answers]
    constructor
    · intro all e visits
      constructor
      · intro p named
        exact ((all p).mp ⟨e, visits, named⟩).2
      · intro p after known
        exact (all p).mpr ⟨derives_of_visits visits (.named (mem_of_mem_leftOut after)), known⟩
    · intro none t
      constructor
      · rintro ⟨e, visits, member⟩
        exact ⟨Compares.derives ⟨e, visits, member⟩, (none e visits).1 t member⟩
      · rintro ⟨derives, known⟩
        exact compares_of_derives (fun e visits => (none e visits).2) .refl derives (Or.inl known)

/-- A repository where the names have these ranks. -/
theorem acyclic_of_entries (rank : String → Nat)
    (lower : ∀ entry ∈ repository.mDefs.entries, ∀ q ∈ entry.2.parents, rank q < rank entry.1) :
    repository.hierarchy.Acyclic := by
  apply Hierarchy.acyclic_of_rank rank
  intro p e found q member _
  exact lower (p, e) (SortedMap.mem_entries_of_find found) q (List.mem_filter.mp member).1

/-- The search comes to definitions of the repository. -/
theorem mem_of_visits (visits : Visits repository.hierarchy d e) :
    e ∈ d :: repository.mDefs.entries.map Prod.snd := by
  rcases Relation.ReflTransGen.cases_tail visits with rfl | ⟨f, -, next⟩
  · exact List.mem_cons_self ..
  · obtain ⟨p, -, found⟩ := Next.parent next
    have entry : (p, e) ∈ repository.mDefs.entries := SortedMap.mem_entries_of_find found
    exact List.mem_cons_of_mem _ (List.mem_map_of_mem entry)

/-- A chain of definitions, where one names a parent that is not in the repository. -/
def chain : ConfigDefinitionRepository :=
  load [⟨"input_device", 1, []⟩, ⟨"position_device", 1, ["unknown", "input_device"]⟩]

def tracker : ConfigDefinition := ⟨"tracker", 1, ["", "position_device"]⟩

def rankOf (names : List String) (name : String) : Nat := names.idxOf name

theorem isParent_iff_tracker :
    (Returns (isParent chain · tracker "unknown") true ↔
      chain.hierarchy.Derives tracker "unknown") ∧
    (Returns (isParent chain · tracker "input_device") true ↔
      chain.hierarchy.Derives tracker "input_device") := by
  have acyclic : chain.hierarchy.Acyclic :=
    acyclic_of_entries (rankOf ["unknown", "input_device"]) (by decide)
  suffices all : ∀ t, Returns (isParent chain · tracker t) true ↔ chain.hierarchy.Derives tracker t
    from ⟨all "unknown", all "input_device"⟩
  apply (isParent_iff chain acyclic tracker).2.1.mpr
  intro e visits p after
  -- no definition of the chain has a parent behind the one in the repository
  have none : ∀ e ∈ tracker :: chain.mDefs.entries.map Prod.snd,
      leftOut chain.hierarchy.get (chain.hierarchy.parents e) = [] := by decide
  rw [none e (mem_of_visits visits)] at after
  cases after

/-- A definition with two parents that are in the repository. -/
def forked : ConfigDefinitionRepository :=
  load [⟨"input_device", 1, []⟩, ⟨"digital_device", 1, []⟩]

def glove : ConfigDefinition := ⟨"glove", 1, ["digital_device", "input_device"]⟩

/-- The second parent is not found, although the definition names it and it is in the
repository. -/
theorem isParent_fails :
    forked.hierarchy.Acyclic ∧ Returns (isParent forked · glove "input_device") false ∧
      forked.hierarchy.Derives glove "input_device" ∧ (forked.get "input_device").isSome = true ∧
      ¬ ∀ t, Returns (isParent forked · glove t) true ↔ forked.hierarchy.Derives glove t := by
  have missed : Returns (isParent forked · glove "input_device") false := by
    refine ⟨2, fun depth enough => ?_⟩
    obtain ⟨depth, rfl⟩ := Nat.exists_eq_add_of_le' enough
    rfl
  have derives : forked.hierarchy.Derives glove "input_device" := .named (by decide)
  refine ⟨acyclic_of_entries (rankOf []) (by decide), missed, derives, by decide, ?_⟩
  intro all
  exact Bool.noConfusion (missed.unique ((all "input_device").mpr derives))

end VRJuggler.Jccl
