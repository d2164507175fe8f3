import VRJuggler.Config.ElementEdits

/-!
# Unsaved changes

The manager says that nothing is unsaved where its offset is zero. This is right as long as no
new edit is made from the configuration just before the saved one, and nothing is undone or
redone that is not there.
-/
namespace VRJuggler.Config

open ConfigUndoManager

variable {σ α ε : Type} {edits : UndoableEdits σ α ε}

/-! ## The last save -/

/-- The manager, and the configuration at the last save. -/
structure Saved (σ ε : Type) where
  manager : ConfigUndoManager σ ε
  saved : σ

def Saved.initial (configuration : σ) : Saved σ ε where
  manager := .initial configuration
  saved := configuration

/-- The saved configuration after a call. -/
def savedAfter (w : Saved σ ε) : Call α → σ
  | .saveHappened => w.manager.configuration
  | _ => w.saved

def follow (edits : UndoableEdits σ α ε) (w : Saved σ ε) (c : Call α) : Option (Saved σ ε) :=
  some { manager := (call edits w.manager c).2, saved := savedAfter w c }

/-- A call that throws leaves the offset, and whether edits are recorded. Where nothing is
unsaved afterwards, the configuration is the saved one. -/
structure Sound (edits : UndoableEdits σ α ε) (w : Saved σ ε) (c : Call α) : Prop where
  offset : (call edits w.manager c).1 = true →
    (call edits w.manager c).2.mEditOffsetFromSave = w.manager.mEditOffsetFromSave
  recording : (call edits w.manager c).1 = true →
    (call edits w.manager c).2.mUndoInProgress = w.manager.mUndoInProgress
  saved : (call edits w.manager c).2.getUnsavedChanges = false →
    (call edits w.manager c).2.configuration = savedAfter w c

/-- What is undone or redone is there, and an edit from just before the save leads to the saved
configuration. -/
def KeepsTrack (edits : UndoableEdits σ α ε) (w : Saved σ ε) : Call α → Prop
  | .perform operation =>
    w.manager.mEditOffsetFromSave = -1 →
      (edits.perform operation w.manager.configuration).2 ≠ [] →
        (edits.perform operation w.manager.configuration).1 = w.saved
  | c => Enough w.manager c

/-- The edit of an operation can be undone and redone. -/
def Performs (edits : UndoableEdits σ α ε) (w : Saved σ ε) : Call α → Prop
  | .perform operation => PostsExact edits operation w.manager.configuration
  | _ => True

/-! ## The invariant -/

/-- The saved configuration is known by the offset zero only. -/
def savedAt (saved : σ) (offset : Int) : Option σ :=
  if offset = 0 then some saved else none

/-- If the saved configuration is on the list, it is there where the offset is zero. -/
structure Tracked (edits : UndoableEdits σ α ε) (w : Saved σ ε) : Prop where
  idle : w.manager.mUndoInProgress = false
  line : ∃ timeline top, Timeline edits w.manager timeline top ∧
    Recorded timeline top (savedAt w.saved)

theorem recorded_savedAt {m : ConfigUndoManager σ ε} {timeline : List σ} {top : Int}
    (line : Timeline edits m timeline top) (here : m.mEditOffsetFromSave = 0) :
    Recorded timeline top (savedAt m.configuration) := by
  have seen : savedAt m.configuration = noticed m fun _ => none := by
    funext offset
    rw [savedAt, noticed, here]
  rw [seen]
  exact recorded_none.noticed line

theorem tracked_initial (c : σ) : Tracked edits (.initial c) := by
  have line : Timeline edits (.initial c) [c] 0 := timeline_initial c
  exact ⟨rfl, [c], 0, line, recorded_savedAt line rfl⟩

theorem getUnsavedChanges_eq_false {m : ConfigUndoManager σ ε} :
    m.getUnsavedChanges = false ↔ m.mEditOffsetFromSave = 0 := by
  rw [getUnsavedChanges, decide_eq_false_iff_not, not_not]

/-- Where nothing is unsaved, the configuration is the saved one. -/
theorem Tracked.saved {w : Saved σ ε} (tracked : Tracked edits w)
    (clean : w.manager.getUnsavedChanges = false) : w.manager.configuration = w.saved := by
  obtain ⟨-, timeline, top, line, recorded⟩ := tracked
  apply recorded.configuration_eq line
  rw [savedAt, if_pos (getUnsavedChanges_eq_false.mp clean)]

/-- A call that leaves a tracked state, and throws nothing, is sound. -/
theorem sound_of_tracked {w : Saved σ ε} {c : Call α}
    (returns : (call edits w.manager c).1 = false)
    (tracked : Tracked edits ⟨(call edits w.manager c).2, savedAfter w c⟩) : Sound edits w c := by
  refine ⟨fun throws => ?_, fun throws => ?_, tracked.saved⟩
  · exact absurd (returns.symm.trans throws) Bool.false_ne_true
  · exact absurd (returns.symm.trans throws) Bool.false_ne_true

/-! ## One call -/

section Step

variable {w : Saved σ ε} (tracked : Tracked edits w)
include tracked

/-- A call that moves along the list keeps track just when it throws nothing. -/
theorem sound_moves {c : Call α} (moves : Moves c) :
    (Sound edits w c ↔ Enough w.manager c) ∧
      (Sound edits w c → Tracked edits ⟨(call edits w.manager c).2, savedAfter w c⟩) := by
  obtain ⟨idle, timeline, top, line, recorded⟩ := tracked
  have same : savedAfter w c = w.saved := by
    cases c with
    | saveHappened => exact moves.elim
    | _ => rfl
  by_cases enough : Enough w.manager c
  · obtain ⟨offset, moved⟩ := moved_call line moves enough
    have kept : Tracked edits ⟨(call edits w.manager c).2, savedAfter w c⟩ := by
      rw [same]
      exact ⟨moved.flag, timeline, top, moved.line, recorded⟩
    exact ⟨⟨fun _ => enough, fun _ => sound_of_tracked moved.returns kept⟩, fun _ => kept⟩
  · -- The flag stays set, and later edits are not recorded.
    have thrown := thrown_call line enough
    have unsound : ¬ Sound edits w c := by
      intro sound
      have flag := sound.recording thrown.throws
      rw [thrown.flag, idle] at flag
      cases flag
    exact ⟨⟨fun sound => absurd sound unsound, fun there => absurd there enough⟩,
      fun sound => absurd sound unsound⟩

theorem sound_perform {operation : α} (performs : Performs edits w (.perform operation)) :
    (Sound edits w (.perform operation) ↔ KeepsTrack edits w (.perform operation)) ∧
      (Sound edits w (.perform operation) →
        Tracked edits ⟨(call edits w.manager (.perform operation)).2, w.saved⟩) := by
  obtain ⟨idle, timeline, top, line, recorded⟩ := id tracked
  rcases performs with nothing | ⟨edit, after, posts, exactly⟩
  · have same : (call edits w.manager (.perform operation)).2 = w.manager :=
      perform_eq_self nothing
    rw [same]
    have kept : Tracked edits
        ⟨(call edits w.manager (.perform operation)).2, savedAfter w (.perform operation)⟩ := by
      rw [same]
      exact tracked
    refine ⟨⟨fun _ _ posted => absurd ?_ posted, fun _ => sound_of_tracked rfl kept⟩,
      fun _ => tracked⟩
    rw [nothing]
  · obtain ⟨longer, performed⟩ := timeline_perform line idle posts exactly
    have flag : (w.manager.perform edits operation).mUndoInProgress = false :=
      (congrArg mUndoInProgress performed).trans idle
    have offset : (w.manager.perform edits operation).mEditOffsetFromSave =
        w.manager.mEditOffsetFromSave + 1 := congrArg mEditOffsetFromSave performed
    have configuration : (w.manager.perform edits operation).configuration = after :=
      congrArg ConfigUndoManager.configuration performed
    have keeps : (w.manager.mEditOffsetFromSave = -1 → after = w.saved) →
        Tracked edits ⟨w.manager.perform edits operation, w.saved⟩ := by
      intro branch
      refine ⟨flag, _, _, longer, recorded_perform line recorded ?_ fun _ _ _ here => here⟩
      intro c here
      rw [savedAt] at here
      split at here
      · next zero => exact (branch (by omega)).trans (Option.some.inj here)
      · cases here
    have iff : KeepsTrack edits w (.perform operation) ↔
        (w.manager.mEditOffsetFromSave = -1 → after = w.saved) := by
      rw [KeepsTrack, posts]
      exact ⟨fun branch before => branch before (List.cons_ne_nil _ _),
        fun branch before _ => branch before⟩
    have needs : Sound edits w (.perform operation) →
        w.manager.mEditOffsetFromSave = -1 → after = w.saved := by
      intro sound before
      rw [← configuration]
      apply sound.saved
      rw [getUnsavedChanges_eq_false]
      exact offset.trans (by omega)
    rw [iff]
    exact ⟨⟨needs, fun branch => sound_of_tracked rfl (keeps branch)⟩, fun sound =>
      keeps (needs sound)⟩

theorem tracked_saveHappened :
    Tracked edits ⟨w.manager.saveHappened, w.manager.configuration⟩ := by
  obtain ⟨idle, timeline, top, line, -⟩ := tracked
  have saved : Timeline edits w.manager.saveHappened timeline w.manager.redoable.length :=
    ⟨line.along, Int.zero_add _⟩
  exact ⟨idle, timeline, _, saved, recorded_savedAt (m := w.manager.saveHappened) saved rfl⟩

/-- A sound call is one that keeps track. -/
theorem sound_iff_keepsTrack {c : Call α} (performs : Performs edits w c) :
    (Sound edits w c ↔ KeepsTrack edits w c) ∧
      (Sound edits w c → Tracked edits ⟨(call edits w.manager c).2, savedAfter w c⟩) := by
  cases c with
  | perform operation => exact sound_perform tracked performs
  | saveHappened =>
    have kept := tracked_saveHappened tracked
    exact ⟨⟨fun _ => trivial, fun _ => sound_of_tracked rfl kept⟩, fun _ => kept⟩
  | _ => exact sound_moves tracked trivial

end Step

/-! ## Whole runs -/

/-- Where all edits are exact, the calls of a run are all sound just when each of them keeps
track of the saved configuration. -/
theorem sound_run_iff (start : σ) (calls : List (Call α))
    (performs : Meets (follow edits) (Performs edits) (.initial start) calls) :
    Meets (follow edits) (Sound edits) (.initial start) calls ↔
      Meets (follow edits) (KeepsTrack edits) (.initial start) calls := by
  have both : Meets (follow edits) (fun w c => Performs edits w c ∧ Sound edits w c)
      (.initial start) calls ↔
      Meets (follow edits) (fun w c => Performs edits w c ∧ KeepsTrack edits w c)
      (.initial start) calls := by
    apply meets_iff_meets (Tracked edits) _ _ (tracked_initial start)
    · intro w c _ tracked _
      constructor
      · rintro ⟨performs, sound⟩
        exact ⟨performs, (sound_iff_keepsTrack tracked performs).1.mp sound⟩
      · rintro ⟨performs, keeps⟩
        exact ⟨performs, (sound_iff_keepsTrack tracked performs).1.mpr keeps⟩
    · rintro w c w' tracked ⟨performs, sound⟩ stepped
      obtain rfl := Option.some.inj stepped
      exact (sound_iff_keepsTrack tracked performs).2 sound
  rw [meets_and, meets_and] at both
  constructor
  · intro sound
    exact (both.mp ⟨performs, sound⟩).2
  · intro keeps
    exact (both.mpr ⟨performs, keeps⟩).2

/-! ## Configuration elements -/

instance [DecidableEq σ] [DecidableEq ε] (w : Saved σ ε) : DecidablePred (KeepsTrack edits w)
  | .perform _ => inferInstanceAs (Decidable (_ = _ → _ ≠ _ → _ = _))
  | .undo => decidableEnough w.manager (.undo : Call α)
  | .undoUntil savePoint => decidableEnough w.manager (.undoUntil savePoint : Call α)
  | .undoAll => decidableEnough w.manager (.undoAll : Call α)
  | .redo => decidableEnough w.manager (.redo : Call α)
  | .redoUntil _ => isTrue trivial
  | .redoAll => isTrue trivial
  | .saveHappened => isTrue trivial

def PerformsUndoable (w : Saved ElementStore ElementEdit) : Call ElementOperation → Prop
  | .perform operation => Undoable w.manager.configuration operation
  | _ => True

instance (w : Saved ElementStore ElementEdit) : DecidablePred (PerformsUndoable w) :=
  fun c => by cases c <;> simp only [PerformsUndoable] <;> infer_instance

theorem performs_of_undoable {w : Saved ElementStore ElementEdit} {c : Call ElementOperation}
    (undoable : PerformsUndoable w c) : Performs elementEdits w c := by
  cases c with
  | perform operation => exact postsExact_of_undoable undoable
  | _ => trivial

/-- A display is renamed and the file is saved, and the change is undone and made again. -/
theorem sound_run_displays :
    Meets (follow elementEdits) (Sound elementEdits) (.initial displays)
      [.perform (.setName 0 "Front"), .saveHappened, .undo,
        .perform (.setName 0 "Front"), .undoAll] := by
  apply (sound_run_iff displays _ _).mpr
  · decide
  · apply meets_imp (fun _ _ => performs_of_undoable)
    decide

/-- Another change made from just before the saved configuration seems to be saved. An undo
that throws counts as one, and later edits are not recorded. -/
theorem sound_run_fails :
    (∃ w, run (follow elementEdits) (.initial displays)
        [.perform (.setName 0 "Front"), .saveHappened, .undo, .perform (.setName 0 "Back")] =
          some w ∧
      w.manager.getUnsavedChanges = false ∧ w.manager.configuration ≠ w.saved) ∧
    ∃ m, call elementEdits (.initial displays) .undo = (true, m) ∧
      m.mEditOffsetFromSave = -1 ∧ m.mUndoInProgress = true := by
  refine ⟨⟨_, rfl, by decide, by decide⟩, ⟨_, rfl, by decide, by decide⟩⟩

end VRJuggler.Config
