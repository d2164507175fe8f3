import VRJuggler.Config.ElementEdits

/-!
# Going back to an offset

Beside the manager we follow what was seen at each offset. As long as every edit can be undone,
`undoUntil` leads back to what was seen, and `redoUntil` leads forth again, for every offset
that is not too far away.
-/
namespace VRJuggler.Config

open ConfigUndoManager

variable {σ α ε : Type} {edits : UndoableEdits σ α ε}

/-! ## What was seen -/

/-- The manager, and the configuration seen last at each offset since the last save. -/
structure Observed (σ ε : Type) where
  manager : ConfigUndoManager σ ε
  seen : Int → Option σ

def Observed.initial (configuration : σ) : Observed σ ε where
  manager := .initial configuration
  seen := noticed (.initial configuration : ConfigUndoManager σ ε) fun _ => none

/-- After a save, the offsets that were reported before mean nothing. -/
def seenBefore (seen : Int → Option σ) : Call α → Int → Option σ
  | .saveHappened, _ => none
  | _, offset => seen offset

def observe (edits : UndoableEdits σ α ε) (w : Observed σ ε) (c : Call α) :
    Option (Observed σ ε) :=
  let m := (call edits w.manager c).2
  some { manager := m, seen := noticed m (seenBefore w.seen c) }

/-- `undoUntil` leads back to the configuration, and `redoUntil` forth again. -/
structure Restores (edits : UndoableEdits σ α ε) (m : ConfigUndoManager σ ε) (savePoint : Int)
    (c : σ) : Prop where
  undone : (m.undoUntil edits savePoint).1 = false
  configuration : (m.undoUntil edits savePoint).2.configuration = c
  offset : (m.undoUntil edits savePoint).2.mEditOffsetFromSave = savePoint
  redone : ((m.undoUntil edits savePoint).2.redoUntil edits m.mEditOffsetFromSave).1 = false
  restored : ((m.undoUntil edits savePoint).2.redoUntil edits
    m.mEditOffsetFromSave).2.configuration = m.configuration

/-! ## The invariant -/

/-- What was seen lies on the list along which the manager moves. -/
structure OnTimeline (edits : UndoableEdits σ α ε) (w : Observed σ ε) : Prop where
  idle : w.manager.mUndoInProgress = false
  line : ∃ timeline top, Timeline edits w.manager timeline top ∧ Recorded timeline top w.seen

theorem onTimeline_initial (c : σ) : OnTimeline edits (.initial c) := by
  have line : Timeline edits (.initial c) [c] 0 := timeline_initial c
  exact ⟨rfl, [c], 0, line, recorded_none.noticed line⟩

/-- A call is allowed when its operation posts an exact edit, and what it undoes or redoes is
there. -/
def Allowed (undoable : σ → α → Prop) (m : ConfigUndoManager σ ε) : Call α → Prop
  | .perform operation => undoable m.configuration operation
  | c => Enough m c

instance [DecidableEq ε] (undoable : σ → α → Prop) [∀ c, DecidablePred (undoable c)]
    (m : ConfigUndoManager σ ε) : DecidablePred (Allowed undoable m)
  | .perform operation => inferInstanceAs (Decidable (undoable m.configuration operation))
  | .undo => decidableEnough m (.undo : Call α)
  | .undoUntil savePoint => decidableEnough m (.undoUntil savePoint : Call α)
  | .undoAll => decidableEnough m (.undoAll : Call α)
  | .redo => decidableEnough m (.redo : Call α)
  | .redoUntil _ => isTrue trivial
  | .redoAll => isTrue trivial
  | .saveHappened => isTrue trivial

variable {undoable : σ → α → Prop}

theorem allowed_moves {m : ConfigUndoManager σ ε} {c : Call α} (moves : Moves c) :
    Allowed undoable m c ↔ Enough m c := by
  cases c with
  | perform operation => exact moves.elim
  | _ => exact Iff.rfl

/-- What one call preserves. -/
theorem onTimeline_observe {w w' : Observed σ ε} {c : Call α}
    (exact : ∀ c operation, undoable c operation → PostsExact edits operation c)
    (kept : OnTimeline edits w) (allowed : Allowed undoable w.manager c)
    (stepped : observe edits w c = some w') : OnTimeline edits w' := by
  obtain rfl := Option.some.inj stepped
  obtain ⟨idle, timeline, top, line, recorded⟩ := kept
  by_cases moves : Moves c
  · -- The manager moves along the list, and sees what was there.
    obtain ⟨offset, moved⟩ := moved_call line moves ((allowed_moves moves).mp allowed)
    refine ⟨moved.flag, timeline, top, moved.line, Recorded.noticed ?_ moved.line⟩
    cases c with
    | saveHappened => exact recorded_none
    | _ => exact recorded
  · cases c with
    | perform operation =>
      rcases exact _ _ allowed with nothing | ⟨edit, after, posts, exactly⟩
      · have same : (call edits w.manager (.perform operation)).2 = w.manager :=
          perform_eq_self nothing
        rw [same]
        exact ⟨idle, timeline, top, line, recorded.noticed line⟩
      · obtain ⟨longer, performed⟩ := timeline_perform line idle posts exactly
        have flag : (w.manager.perform edits operation).mUndoInProgress = false :=
          (congrArg mUndoInProgress performed).trans idle
        have offset : (w.manager.perform edits operation).mEditOffsetFromSave =
            w.manager.mEditOffsetFromSave + 1 := congrArg mEditOffsetFromSave performed
        have configuration : (w.manager.perform edits operation).configuration = after :=
          congrArg ConfigUndoManager.configuration performed
        refine ⟨flag, _, _, longer, recorded_perform line recorded ?_ ?_⟩
        · intro d here
          rw [← offset] at here
          exact configuration.symm.trans (Option.some.inj ((noticed_self _ _).symm.trans here))
        · intro other d away here
          rw [← offset] at away
          exact (noticed_of_ne away).symm.trans here
    | saveHappened =>
      -- The list is the same, and its offsets are counted from the save.
      have saved : Timeline edits w.manager.saveHappened timeline w.manager.redoable.length :=
        ⟨line.along, Int.zero_add _⟩
      exact ⟨idle, timeline, _, saved, recorded_none.noticed saved⟩
    | _ => exact absurd trivial moves

/-! ## Back and forth -/

/-- An offset can be reached just when so many edits are still there. -/
theorem restores_iff {w : Observed σ ε} {savePoint : Int} {c : σ} (kept : OnTimeline edits w)
    (seen : w.seen savePoint = some c) :
    Restores edits w.manager savePoint c ↔
      savePoint ≤ w.manager.mEditOffsetFromSave ∧
        w.manager.mEditOffsetFromSave - savePoint ≤ w.manager.undoable.length := by
  obtain ⟨-, timeline, top, line, recorded⟩ := kept
  by_cases near : w.manager.mEditOffsetFromSave - savePoint ≤ w.manager.undoable.length
  · have moved := moved_undoUntil line near
    constructor
    · intro restores
      refine ⟨?_, near⟩
      have offset := moved.offset.symm.trans restores.offset
      omega
    · rintro ⟨earlier, -⟩
      have here : (w.manager.undoUntil edits savePoint).2.mEditOffsetFromSave = savePoint := by
        rw [moved.offset]
        omega
      have back : (w.manager.undoUntil edits savePoint).2.configuration = c :=
        recorded.configuration_eq moved.line (by rw [here, seen])
      -- So many edits were undone, and can be redone.
      have room : w.manager.mEditOffsetFromSave ≤
          (w.manager.undoUntil edits savePoint).2.mEditOffsetFromSave +
            (w.manager.undoUntil edits savePoint).2.redoable.length := by
        have offsets := moved.line.offset.trans line.offset.symm
        omega
      have again := moved_redoUntil_of_near moved.line (by rw [here]; exact earlier) room
      exact ⟨moved.returns, back, here, again.returns,
        line.configuration_eq again.line again.offset⟩
  · have thrown := thrown_undoUntil line (Int.not_le.mp near)
    constructor
    · intro restores
      exact absurd (thrown.throws.symm.trans restores.undone) Bool.noConfusion
    · rintro ⟨-, enough⟩
      exact absurd enough near

theorem onTimeline_run {w : Observed σ ε} {calls : List (Call α)} {c : σ}
    (exact : ∀ c operation, undoable c operation → PostsExact edits operation c)
    (meets : Meets (observe edits) (fun w => Allowed undoable w.manager) (.initial c) calls)
    (reached : run (observe edits) (.initial c) calls = some w) : OnTimeline edits w := by
  apply run_invariant_of_meets (OnTimeline edits) (fun w => Allowed undoable w.manager) _
    (onTimeline_initial c) meets reached
  intro w call w' kept allowed stepped
  exact onTimeline_observe exact kept allowed stepped

/-! ## Configuration elements -/

/-- In a run whose operations can all be undone, and that undoes and redoes only what is there,
`undoUntil` leads back to what was seen at an offset, and `redoUntil` forth again, just when
the offset lies behind and so many edits are still there. -/
theorem restores_seen_iff (start : ElementStore) (calls : List (Call ElementOperation))
    (w : Observed ElementStore ElementEdit)
    (meets : Meets (observe elementEdits) (fun w => Allowed Undoable w.manager) (.initial start)
      calls)
    (reached : run (observe elementEdits) (.initial start) calls = some w)
    (savePoint : Int) (c : ElementStore) (seen : w.seen savePoint = some c) :
    Restores elementEdits w.manager savePoint c ↔
      savePoint ≤ w.manager.mEditOffsetFromSave ∧
        w.manager.mEditOffsetFromSave - savePoint ≤ w.manager.undoable.length := by
  have kept : OnTimeline elementEdits w :=
    onTimeline_run (fun _ _ => postsExact_of_undoable) meets reached
  exact restores_iff kept seen

/-- The second display is taken out and the first one is resized, and both are undone. -/
theorem restores_seen_displays :
    Restores elementEdits
      ((((ConfigUndoManager.initial displays).perform elementEdits (.remove 1 0)).perform
        elementEdits (.setProperty 0 "size" 1 (.integer 600)))) 0 displays := by
  have reached : run (observe elementEdits) (.initial displays)
      [.perform (.remove 1 0), .perform (.setProperty 0 "size" 1 (.integer 600))] = some _ := rfl
  exact (restores_seen_iff displays _ _ (by decide) reached 0 displays (by decide)).mpr (by decide)

/-- When the first display is taken out, it is put back behind the second one. -/
theorem restores_seen_fails :
    ∃ calls w, run (observe elementEdits) (.initial displays) calls = some w ∧
      w.seen 0 = some displays ∧ w.manager.mEditOffsetFromSave = 1 ∧
      w.manager.undoable.length = 1 ∧ ¬ Restores elementEdits w.manager 0 displays := by
  refine ⟨[.perform (.remove 0 0)], _, rfl, by decide, by decide, by decide, fun restores => ?_⟩
  exact absurd restores.configuration (by decide)

end VRJuggler.Config
