import Mathlib.Data.List.Sort
import Mathlib.Order.Defs.LinearOrder
import VRJuggler.Tweek.WizardIterator

/-!
# What a saved wizard needs

The classes and resources for a wizard are collected from the steps that its iterator comes to.
That the iterator comes to the end of a wizard depends on how the wizard ends, and nothing is asked
of sequences and of what is in those that are not entered.
-/
namespace VRJuggler.Tweek

/-! ## Duplicates -/

section Duplicates

variable {ν : Type} [LinearOrder ν] {prev : Option ν} {list : List ν}

/-- The loop of `stripDuplicates`; `none` is the `null` before the first element. -/
def removeRepeats : Option ν → List ν → List ν
  | _, [] => []
  | prev, cur :: rest =>
    if prev = some cur then removeRepeats prev rest else cur :: removeRepeats (some cur) rest

def stripDuplicates (list : List ν) : List ν := removeRepeats none (list.mergeSort (· ≤ ·))

theorem mem_removeRepeats (x : ν) (prev : Option ν) (list : List ν) :
    x ∈ removeRepeats prev list ∨ prev = some x ↔ x ∈ list ∨ prev = some x := by
  induction list generalizing prev with
  | nil => simp [removeRepeats]
  | cons cur rest ih =>
    have later := ih (some cur)
    simp only [Option.some.injEq, eq_comm (b := x)] at later
    rw [removeRepeats]
    split
    next same =>
      subst same
      simp only [Option.some.injEq, eq_comm (b := x), List.mem_cons]
      tauto
    next other =>
      simp only [List.mem_cons]
      tauto

/-- A sorted list has its equal elements beside each other. -/
theorem removeRepeats_nodup (sorted : list.Pairwise (· ≤ ·))
    (least : ∀ p ∈ prev, ∀ x ∈ list, p ≤ x) :
    (removeRepeats prev list).Nodup ∧ ∀ p ∈ prev, p ∉ removeRepeats prev list := by
  induction list generalizing prev with
  | nil => simp [removeRepeats]
  | cons cur rest ih =>
    rw [List.pairwise_cons] at sorted
    rw [removeRepeats]
    split
    next same =>
      subst same
      exact ih sorted.2 fun p here x member => least p here x (List.mem_cons_of_mem _ member)
    next other =>
      have least' : ∀ p ∈ some cur, ∀ x ∈ rest, p ≤ x := by simpa using sorted.1
      obtain ⟨nodup, fresh⟩ := ih sorted.2 least'
      refine ⟨List.nodup_cons.mpr ⟨fresh cur rfl, nodup⟩, ?_⟩
      rintro p here member
      rcases List.mem_cons.mp member with rfl | member
      · exact other here
      · -- what comes later is not less than this element
        have up : p ≤ cur := least p here cur (List.mem_cons_self ..)
        have member' := (mem_removeRepeats p (some cur) rest).mp (.inl member)
        rcases member' with member' | same
        · exact other (here.trans (congrArg some (le_antisymm up (sorted.1 p member'))))
        · exact other (here.trans same.symm)

/-- Each element of the list is left once. -/
theorem count_stripDuplicates (x : ν) :
    (stripDuplicates list).count x = if x ∈ list then 1 else 0 := by
  have sorted : (list.mergeSort (· ≤ ·)).Pairwise (· ≤ ·) := List.pairwise_mergeSort' _ _
  have nodup : (removeRepeats none (list.mergeSort (· ≤ ·))).Nodup :=
    (removeRepeats_nodup sorted (by simp)).1
  have member := mem_removeRepeats x none (list.mergeSort (· ≤ ·))
  simp only [List.mem_mergeSort, reduceCtorEq, or_false] at member
  rw [stripDuplicates, List.Nodup.count nodup]
  simp only [member]

end Duplicates

/-! ## The collection -/

/-- What a step is asked for: the name of its class, and what it needs itself. -/
structure StepNeeds (ν : Type) where
  className : ν
  requiredClasses : List ν
  requiredResources : List ν

variable {ν : Type}

/-- What is added to the list of classes for a step. -/
def StepNeeds.classes (step : StepNeeds ν) : List ν := step.className :: step.requiredClasses

/-- The loop of `getRequiredClasses` and `getRequiredResources`; the inner `none` is a
`NoSuchElementException`. -/
def getRequired (asks : StepNeeds ν → List ν) :
    Nat → WizardIterator (StepNeeds ν) → List ν → Option (Option (List ν))
  | 0, _, _ => none
  | fuel + 1, itr, classes =>
    if itr.hasNext then
      (itr.next fuel).bind fun
        | (none, _) => some none
        | (some step, itr) => getRequired asks fuel itr (classes ++ asks step)
    else some (some classes)

def getRequiredClasses (fuel : Nat) (wizard : List (WizardStep (StepNeeds ν))) :
    Option (Option (List ν)) :=
  getRequired StepNeeds.classes fuel (iterator wizard) []

def getRequiredResources (fuel : Nat) (wizard : List (WizardStep (StepNeeds ν))) :
    Option (Option (List ν)) :=
  getRequired StepNeeds.requiredResources fuel (iterator wizard) []

/-! ## Ends of wizards -/

section Ends

variable {σ : Type}

mutual

/-- A step, or a sequence that is entered and ends in one. -/
def WizardStep.endsInStep : WizardStep σ → Bool
  | .step _ => true
  | .sequence _ shouldEnter mSteps => shouldEnter && endInStep mSteps

def endInStep : List (WizardStep σ) → Bool
  | [] => false
  | step :: steps => if steps.isEmpty then step.endsInStep else endInStep steps

end

theorem endInStep_cons (step : WizardStep σ) {steps : List (WizardStep σ)} (more : steps ≠ []) :
    endInStep (step :: steps) = endInStep steps := by
  simp [endInStep, more]

theorem endInStep_append (front : List (WizardStep σ)) {rest : List (WizardStep σ)}
    (more : rest ≠ []) : endInStep (front ++ rest) = endInStep rest := by
  induction front with
  | nil => rfl
  | cons step front ih => rw [List.cons_append, endInStep_cons step (by simp [more]), ih]

namespace WizardIterator.Comes

variable {items items' : List (WizardStep σ)} {a : σ}

/-- Items without a step do not end in one. -/
theorem not_endInStep (comes : Comes items none items') : endInStep items = false := by
  generalize thrown : (none : Option σ) = r at comes
  induction comes with
  | ended => rfl
  | step a rest => cases thrown
  | @skip a mSteps rest rest' r comes ih =>
    by_cases more : rest = []
    · subst more
      rfl
    · rw [endInStep_cons _ more, ih thrown]
  | @enter a mSteps rest rest' r comes ih =>
    by_cases more : rest = []
    · subst more
      simpa [endInStep, WizardStep.endsInStep] using ih thrown
    · rw [endInStep_cons _ more, ← endInStep_append mSteps more, ih thrown]

/-- Whether items end in a step does not change until the last step. -/
theorem ends_iff (comes : Comes items (some a) items') :
    endInStep items = true ↔ items' = [] ∨ endInStep items' = true := by
  generalize returned : some a = r at comes
  induction comes with
  | ended => cases returned
  | step b rest =>
    by_cases more : rest = []
    · simp [more, endInStep, WizardStep.endsInStep]
    · rw [endInStep_cons _ more]
      simp [more]
  | @skip b mSteps rest rest' r comes ih =>
    by_cases more : rest = []
    · subst more
      cases comes.of_nil.1.symm.trans returned.symm
    · rw [endInStep_cons _ more, ih returned]
  | @enter b mSteps rest rest' r comes ih =>
    by_cases more : rest = []
    · subst more
      simpa [endInStep, WizardStep.endsInStep] using ih returned
    · rw [endInStep_cons _ more, ← endInStep_append mSteps more, ih returned]

end WizardIterator.Comes

end Ends

/-! ## All steps of a wizard -/

section Every

variable {σ : Type}

mutual

/-- The step itself, and those in it if it is a sequence. -/
def WizardStep.every : WizardStep σ → List σ
  | .step s => [s]
  | .sequence s _ mSteps => s :: everyStep mSteps

def everyStep : List (WizardStep σ) → List σ
  | [] => []
  | step :: steps => step.every ++ everyStep steps

end

mutual

/-- Sequences, and all that is in those that are not entered. -/
def WizardStep.missed : WizardStep σ → List σ
  | .step _ => []
  | .sequence s shouldEnter mSteps =>
    s :: if shouldEnter then missedSteps mSteps else everyStep mSteps

def missedSteps : List (WizardStep σ) → List σ
  | [] => []
  | step :: steps => step.missed ++ missedSteps steps

end

mutual

theorem WizardStep.mem_every (a : σ) : ∀ step : WizardStep σ,
    a ∈ step.every ↔ a ∈ step.flatten ∨ a ∈ step.missed
  | .step s => by simp [WizardStep.every, WizardStep.missed]
  | .sequence s false mSteps => by simp [WizardStep.every, WizardStep.missed]
  | .sequence s true mSteps => by
    have inner := mem_everyStep a mSteps
    simp only [WizardStep.every, WizardStep.missed, if_true, List.mem_cons, flatten_entered, inner]
    tauto

theorem mem_everyStep (a : σ) : ∀ steps : List (WizardStep σ),
    a ∈ everyStep steps ↔ a ∈ flattenAll steps ∨ a ∈ missedSteps steps
  | [] => by simp [everyStep, missedSteps]
  | step :: steps => by
    have first := WizardStep.mem_every a step
    have rest := mem_everyStep a steps
    simp only [everyStep, missedSteps, flattenAll_cons, List.mem_append, first, rest]
    tauto

end

end Every

/-! ## What is collected -/

section Collected

variable {asks : StepNeeds ν → List ν} {wizard : List (WizardStep (StepNeeds ν))}
  {s : WizardIterator (StepNeeds ν)}

theorem getRequired_last (classes : List ν) (last : s.hasNext = false) :
    Returns (getRequired asks · s classes) (some classes) :=
  (Returns.of_some (some classes)).congr fun fuel => by simp [getRequired, last]

/-- One round of the loop. -/
theorem getRequired_round {classes : List ν} {r : Option (List ν)}
    {first : Option (StepNeeds ν) × WizardIterator (StepNeeds ν)} (more : s.hasNext = true)
    (called : Returns (WizardIterator.next · s) first)
    (rest : Returns (fun fuel => match first with
      | (none, _) => some none
      | (some step, s) => getRequired asks fuel s (classes ++ asks step)) r) :
    Returns (getRequired asks · s classes) r := by
  have both : Returns (fun fuel => (s.next fuel).bind fun
      | (none, _) => some none
      | (some step, s) => getRequired asks fuel s (classes ++ asks step)) r :=
    Returns.bind called rest
  refine both.congr fun fuel => ?_
  simp only [getRequired, more, if_true]

/-- The loop throws when items are left that do not end in a step. -/
theorem returns_getRequired (asks : StepNeeds ν → List ν)
    (valid : WizardIterator.Valid wizard s) (classes : List ν) :
    Returns (getRequired asks · s classes)
      (if s.pending = [] ∨ endInStep s.pending = true then
        some (classes ++ s.stepsAhead.flatMap asks) else none) := by
  generalize size : s.stepsAhead.length = n
  induction n using Nat.strongRecOn generalizing s classes with
  | ind n ih =>
    cases more : s.hasNext with
    | false =>
      have none' := WizardIterator.pending_of_not_hasNext more
      simpa [none', WizardIterator.stepsAhead] using getRequired_last classes more
    | true =>
      have some' := WizardIterator.pending_of_hasNext valid more
      obtain ⟨r, s', called, valid', comes, _⟩ := WizardIterator.goesOn valid
      cases r with
      | none =>
        rw [if_neg (by simp [some', comes.not_endInStep])]
        exact getRequired_round more called (.of_some _)
      | some step =>
        obtain ⟨head, tail⟩ := comes.flatten
        have ahead : s.stepsAhead = step :: s'.stepsAhead := by
          unfold WizardIterator.stepsAhead
          rw [tail]
          exact List.eq_cons_of_mem_head? head
        have less : s'.stepsAhead.length < n := by simp [← size, ahead]
        have rest := ih _ less valid' (classes ++ asks step) rfl
        simp only [← comes.ends_iff] at rest
        simp only [some', false_or, ahead, List.flatMap_cons]
        rw [← List.append_assoc]
        exact getRequired_round more called rest

variable (wizard)

/-- The names are collected without an exception, and they are those that the steps and sequences
ask for, however deep and whether they are entered or not. With any other names, each of them is
left once when duplicates are removed. -/
structure Collects [LinearOrder ν] (asks : StepNeeds ν → List ν)
    (call : Nat → Option (Option (List ν))) (names : List ν) : Prop where
  returns : Returns call (some names)
  all : ∀ name, name ∈ names ↔ ∃ step ∈ everyStep wizard, name ∈ asks step
  once : ∀ others name, (stripDuplicates (names ++ others)).count name =
    if name ∈ names ++ others then 1 else 0

/-- The sequences, and all that is in those that are not entered, ask for nothing but what the steps
ask for that are to be stopped on. -/
def Covers (asks : StepNeeds ν → List ν) : Prop :=
  ∀ step ∈ missedSteps wizard, ∀ name ∈ asks step, ∃ stop ∈ flattenAll wizard, name ∈ asks stop

theorem collects_iff [LinearOrder ν] (asks : StepNeeds ν → List ν) :
    (∃ names, Collects wizard asks (getRequired asks · (iterator wizard) []) names) ↔
      (wizard = [] ∨ endInStep wizard = true) ∧ Covers wizard asks := by
  have returns := returns_getRequired asks (WizardIterator.valid_iterator wizard) []
  have pending : (iterator wizard).pending = wizard := by simp [iterator, WizardIterator.ofItr]
  have ahead : (iterator wizard).stepsAhead = flattenAll wizard := by
    rw [WizardIterator.stepsAhead, pending]
  rw [pending, ahead, List.nil_append] at returns
  constructor
  · rintro ⟨names, collects⟩
    split at returns
    next ends =>
      refine ⟨ends, fun step member name asked => ?_⟩
      obtain rfl := Option.some.inj (collects.returns.unique returns)
      have here := (collects.all name).mpr ⟨step, (mem_everyStep _ _).mpr (.inr member), asked⟩
      exact List.mem_flatMap.mp here
    next => cases collects.returns.unique returns
  · rintro ⟨ends, covers⟩
    rw [if_pos ends] at returns
    refine ⟨_, returns, fun name => ?_, fun others name => count_stripDuplicates name⟩
    rw [List.mem_flatMap]
    constructor
    · rintro ⟨step, member, asked⟩
      exact ⟨step, (mem_everyStep _ _).mpr (.inl member), asked⟩
    · rintro ⟨step, member, asked⟩
      rcases (mem_everyStep _ _).mp member with member | member
      · exact ⟨step, member, asked⟩
      · exact covers step member name asked

/-- The classes and resources that a saved wizard needs are collected exactly when the wizard ends
in a step, or is empty, and the steps that are entered ask for all that the others ask for. -/
theorem wizard_collects_iff [LinearOrder ν] (wizard : List (WizardStep (StepNeeds ν))) :
    ((∃ classes, Collects wizard StepNeeds.classes (getRequiredClasses · wizard) classes) ∧
      ∃ resources,
        Collects wizard StepNeeds.requiredResources (getRequiredResources · wizard) resources) ↔
      (wizard = [] ∨ endInStep wizard = true) ∧ Covers wizard StepNeeds.classes ∧
        Covers wizard StepNeeds.requiredResources := by
  have classes := collects_iff wizard StepNeeds.classes
  have resources := collects_iff wizard StepNeeds.requiredResources
  unfold getRequiredClasses getRequiredResources
  rw [classes, resources]
  tauto

/-- A wizard that ends in a sequence that is not entered cannot be saved. -/
theorem skipped_sequence_throws : ¬ ∀ wizard : List (WizardStep (StepNeeds Nat)),
    (∃ classes, Collects wizard StepNeeds.classes (getRequiredClasses · wizard) classes) ∧
      ∃ resources,
        Collects wizard StepNeeds.requiredResources (getRequiredResources · wizard) resources := by
  intro claim
  obtain ⟨⟨classes, collects⟩, _⟩ :=
    claim [.step ⟨1, [], []⟩, .sequence ⟨2, [], []⟩ false [.step ⟨3, [], []⟩]]
  have thrown : Returns (getRequiredClasses ·
      [.step ⟨1, [], []⟩, .sequence ⟨2, [], []⟩ false [.step ⟨3, [], []⟩]]) none :=
    .of_add 20 fun _ => rfl
  cases collects.returns.unique thrown

end Collected

end VRJuggler.Tweek
