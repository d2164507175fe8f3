import Mathlib.Data.List.Nodup
import VRJuggler.Jccl.Steps

/-!
# Names in the active configuration

`addActive` does not look whether an element of the name is active, and `removeActive`
erases the first one only. So the names are different, and a removal takes effect, as long
as no element is added whose name is active. `Configuration::add`, which overwrites an
element of the same name, keeps them different.
-/
namespace VRJuggler.Jccl

namespace Configuration

/-- No two elements have the same name. -/
def Keyed (mElements : List ConfigElement) : Prop := (mElements.map ConfigElement.name).Nodup

instance (mElements : List ConfigElement) : Decidable (Keyed mElements) :=
  inferInstanceAs (Decidable (List.Nodup _))

variable {mElements : List ConfigElement}

theorem names_remove (mElements : List ConfigElement) (name : String) :
    (remove mElements name).map ConfigElement.name =
      (mElements.map ConfigElement.name).erase name := by
  induction mElements with
  | nil => rfl
  | cons e rest ih =>
    rw [remove, List.map_cons, List.erase_cons]
    split
    · next same =>
      have here : (name == e.name) = true := beq_iff_eq.mpr (beq_iff_eq.mp same).symm
      exact congrArg _ (List.eraseP_cons_of_pos here)
    · next different =>
      have other : (name == e.name) = false := by
        apply beq_eq_false_iff_ne.mpr
        rintro rfl
        exact different (beq_self_eq_true _)
      rw [List.eraseP_cons_of_neg (by rw [other]; exact Bool.false_ne_true), List.map_cons]
      exact congrArg _ ih

theorem keyed_remove (keyed : Keyed mElements) (name : String) : Keyed (remove mElements name) := by
  unfold Keyed
  rw [names_remove]
  exact keyed.erase name

/-- Where the names are different, none is left of a name that is removed. -/
theorem not_mem_remove (keyed : Keyed mElements) {name : String} {e : ConfigElement}
    (member : e ∈ remove mElements name) : e.name ≠ name := by
  rintro rfl
  have left : e.name ∈ (mElements.map ConfigElement.name).erase e.name := by
    rw [← names_remove]
    exact List.mem_map_of_mem member
  exact keyed.not_mem_erase left

theorem keyed_append {element : ConfigElement} (keyed : Keyed mElements) :
    Keyed (mElements ++ [element]) ↔ ∀ e ∈ mElements, e.name ≠ element.name := by
  unfold Keyed
  rw [List.map_append, List.map_singleton, List.nodup_append]
  constructor
  · rintro ⟨-, -, apart⟩ e member
    exact apart _ (List.mem_map_of_mem member) _ (List.mem_singleton_self _)
  · intro fresh
    refine ⟨keyed, List.nodup_singleton _, ?_⟩
    intro name member other last
    obtain ⟨e, present, rfl⟩ := List.mem_map.mp member
    obtain rfl := List.mem_singleton.mp last
    exact fresh e present

theorem mem_names_add {newElement : ConfigElement} {name : String} :
    name ∈ (add mElements newElement).map ConfigElement.name →
      name ∈ mElements.map ConfigElement.name ∨ name = newElement.name := by
  induction mElements with
  | nil => simp [add]
  | cons e rest ih =>
    rw [add]
    split
    · next same =>
      rw [List.map_cons, List.map_cons, same]
      exact Or.inl
    · intro member
      rcases List.mem_cons.mp member with rfl | later
      · exact Or.inl (List.mem_cons_self ..)
      · exact (ih later).imp_left (List.mem_cons_of_mem _)

theorem keyed_add (keyed : Keyed mElements) (newElement : ConfigElement) :
    Keyed (add mElements newElement) := by
  induction mElements with
  | nil => exact List.nodup_singleton _
  | cons e rest ih =>
    obtain ⟨first, later⟩ := List.nodup_cons.mp keyed
    rw [add]
    split
    · next same => exact List.nodup_cons.mpr ⟨same ▸ first, later⟩
    · next different =>
      refine List.nodup_cons.mpr ⟨fun again => ?_, ih later⟩
      exact (mem_names_add again).elim first different

end Configuration

open VRJuggler.Jccl.Configuration ConfigManager

variable (reg : Registered)

/-- An element that the step makes active has a name of its own. -/
def AddsFresh (s : ConfigManager) (o : Operation) : Prop :=
  ∀ p ∈ s.processed reg o, p.mType = .ADD → s.isElementInActiveList p.mElement.name = false

instance (s : ConfigManager) (o : Operation) : Decidable (AddsFresh reg s o) :=
  inferInstanceAs (Decidable (∀ p ∈ s.processed reg o, _))

/-- After each step that processes a removal, no element of the name is active. -/
def RemovalsTake (os : List Operation) : Prop :=
  ∀ front s o t, front ++ [o] <+: os → run (step reg) .initial front = some s →
    step reg s o = some t → ∀ p ∈ s.processed reg o, p.mType = .REMOVE →
      t.isElementInActiveList p.mElement.name = false

variable {reg}

theorem not_isElementInActiveList_iff {s : ConfigManager} {name : String} :
    s.isElementInActiveList name = false ↔ ∀ e ∈ s.mActiveConfig, e.name ≠ name := by
  rw [← Bool.not_eq_true, isElementInActiveList_iff]
  constructor
  · intro none e member same
    exact none ⟨e, member, same⟩
  · rintro none ⟨e, member, same⟩
    exact none e member same

/-- One step from a state in which the names are different. -/
theorem keyed_step {s t : ConfigManager} {o : Operation} (keyed : Keyed s.mActiveConfig)
    (stepped : step reg s o = some t) : Keyed t.mActiveConfig ↔ AddsFresh reg s o := by
  have vacuous (none : s.processed reg o = none) : AddsFresh reg s o := by
    intro p taken
    rw [none] at taken
    cases taken
  cases move_of_step stepped with
  | requested | refreshed | began | scanned | finished => exact iff_of_true keyed (vacuous rfl)
  | passed walks here refused =>
    exact iff_of_true keyed (vacuous (processed_eq_none walks here refused))
  | activated walks here handles satisfied =>
    rw [keyed_append keyed, ← not_isElementInActiveList_iff]
    have taken := processed_eq walks here handles (Or.inr satisfied)
    constructor
    · intro fresh p member _
      obtain rfl := Option.some.inj (taken.symm.trans member)
      exact fresh
    · intro fresh
      exact fresh _ taken rfl
  | deactivated walks here handles =>
    refine iff_of_true (keyed_remove keyed _) ?_
    intro p member added
    obtain rfl := Option.some.inj
      ((processed_eq walks here handles (Or.inl rfl)).symm.trans member)
    cases added

/-- A removal that is processed takes effect where the names are different. -/
theorem removal_takes {s t : ConfigManager} {o : Operation} (keyed : Keyed s.mActiveConfig)
    (stepped : step reg s o = some t) {p : PendingElement} (taken : s.processed reg o = some p)
    (removal : p.mType = .REMOVE) : t.isElementInActiveList p.mElement.name = false := by
  cases move_of_step stepped with
  | requested | refreshed | began | scanned | finished => cases taken
  | passed walks here refused =>
    rw [processed_eq_none walks here refused] at taken
    cases taken
  | activated walks here handles satisfied =>
    obtain rfl := Option.some.inj
      ((processed_eq walks here handles (Or.inr satisfied)).symm.trans taken)
    cases removal
  | deactivated walks here handles =>
    obtain rfl := Option.some.inj
      ((processed_eq walks here handles (Or.inl rfl)).symm.trans taken)
    exact not_isElementInActiveList_iff.mpr fun e member => not_mem_remove keyed member

variable (reg) in
/-- The active configuration is a keyed set throughout a run, and every removal takes
effect, just when all elements are added under names that are not active. -/
theorem keyed_iff {os : List Operation} {t : ConfigManager}
    (reached : run (step reg) .initial os = some t) :
    ((∀ front s, front <+: os → run (step reg) .initial front = some s →
        Keyed s.mActiveConfig) ∧ RemovalsTake reg os) ↔
      Meets (step reg) (AddsFresh reg) .initial os := by
  have always := run_always_iff_meets (fun _ => True) (fun s => Keyed s.mActiveConfig)
    (AddsFresh reg) (fun s o t _ keyed stepped => ⟨keyed_step keyed stepped, fun _ => trivial⟩)
    trivial
    (show Keyed [] from List.nodup_nil) reached
  rw [← always]
  constructor
  · exact And.left
  · intro keyed
    refine ⟨keyed, ?_⟩
    intro front s o t part here stepped p taken removal
    have before := keyed front s ((List.prefix_append _ _).trans part) here
    exact removal_takes before stepped taken removal

/-! ## Runs -/

def element (name : String) (elementPtrDependencies : List String) : ConfigElement where
  name
  id := "element"
  elementPtrDependencies

/-- One handler that handles all elements. -/
def oneHandler : Registered where
  mElementHandlers := [⟨fun _ => true⟩]
  mDepCheckers := []

/-- A call of `attemptReconfiguration` with one handler, which takes what it is asked to. -/
def call (pending : Nat) : List Operation :=
  .attemptReconfiguration :: (List.replicate pending (.visit true) ++ [.finish])

def addRemoveAdd : List Operation :=
  .addConfiguration .ADD [element "a" []] :: (call 1 ++
    .addConfiguration .REMOVE [element "a" []] :: (call 1 ++
      .addConfiguration .ADD [element "a" []] :: call 1))

theorem keyed_iff_addRemoveAdd :
    (∀ front s, front <+: addRemoveAdd → run (step oneHandler) .initial front = some s →
        Keyed s.mActiveConfig) ∧ RemovalsTake oneHandler addRemoveAdd :=
  (keyed_iff oneHandler rfl).mpr (by decide)

/-- An element is added twice and then removed. -/
def addTwice : List Operation :=
  .addConfiguration .ADD [element "a" []] :: (call 1 ++
    .addConfiguration .ADD [element "a" []] :: (call 1 ++
      .addConfiguration .REMOVE [element "a" []] :: call 1))

theorem keyed_fails :
    ¬ (∀ front s, front <+: addTwice → run (step oneHandler) .initial front = some s →
        Keyed s.mActiveConfig) ∧ ¬ RemovalsTake oneHandler addTwice := by
  constructor
  · intro keyed
    have twice := keyed (addTwice.take 8) _ (List.take_prefix _ _) rfl
    revert twice
    decide
  · intro takes
    have gone := takes (addTwice.take 10) _ (.visit true) _ ⟨addTwice.drop 11, rfl⟩ rfl rfl
      _ rfl rfl
    revert gone
    decide

end VRJuggler.Jccl
