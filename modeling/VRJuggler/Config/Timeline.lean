import VRJuggler.Config.UndoManager

/-!
# The timeline of an undo manager

Where all edits are exact, undo and redo move along one list of configurations. The list and
the offset of its newest configuration stay as they are, until an edit is made.
-/
namespace VRJuggler.Config

open ConfigUndoManager

variable {σ α ε : Type} {edits : UndoableEdits σ α ε} {m : ConfigUndoManager σ ε}
  {timeline : List σ} {top : Int}

/-! ## Configurations before and after -/

variable (edits) in
/-- The configurations that undoing these edits leads to. -/
inductive Past : σ → List ε → List σ → Prop where
  | nil (c : σ) : Past c [] []
  | cons {b c : σ} {edit : ε} {rest : List ε} {bs : List σ} (exact : Exact edits b edit c)
    (past : Past b rest bs) : Past c (edit :: rest) (b :: bs)

variable (edits) in
/-- The configurations that redoing these edits leads to. -/
inductive Future : σ → List ε → List σ → Prop where
  | nil (c : σ) : Future c [] []
  | cons {c d : σ} {edit : ε} {rest : List ε} {ds : List σ} (exact : Exact edits c edit d)
    (future : Future d rest ds) : Future c (edit :: rest) (d :: ds)

theorem Past.take {c : σ} {undoable : List ε} {bs : List σ} (past : Past edits c undoable bs)
    (n : Nat) : Past edits c (undoable.take n) (bs.take n) := by
  induction past generalizing n with
  | nil c =>
    simp only [List.take_nil]
    exact .nil c
  | cons exact _ ih =>
    cases n with
    | zero => exact .nil _
    | succ n => exact .cons exact (ih n)

theorem Past.length_eq {c : σ} {undoable : List ε} {bs : List σ}
    (past : Past edits c undoable bs) : bs.length = undoable.length := by
  induction past with
  | nil => rfl
  | cons _ _ ih => rw [List.length_cons, List.length_cons, ih]

theorem Future.length_eq {c : σ} {redoable : List ε} {ds : List σ}
    (future : Future edits c redoable ds) : ds.length = redoable.length := by
  induction future with
  | nil => rfl
  | cons _ _ ih => rw [List.length_cons, List.length_cons, ih]

/-- The configurations along which the manager moves, the newest one first, and the offset
of the newest one. -/
structure Timeline (edits : UndoableEdits σ α ε) (m : ConfigUndoManager σ ε) (timeline : List σ)
    (top : Int) : Prop where
  along : ∃ bs ds, Past edits m.configuration m.undoable bs ∧
    Future edits m.configuration m.redoable ds ∧ timeline = ds.reverse ++ m.configuration :: bs
  offset : m.mEditOffsetFromSave + m.redoable.length = top

theorem timeline_initial (c : σ) : Timeline edits (.initial c) [c] 0 :=
  ⟨⟨[], [], .nil c, .nil c, rfl⟩, rfl⟩

namespace Timeline

/-- The manager stands where its offset says. -/
theorem getElem?_eq (line : Timeline edits m timeline top) :
    timeline[m.redoable.length]? = some m.configuration := by
  obtain ⟨bs, ds, -, future, rfl⟩ := line.along
  have size : ds.reverse.length = m.redoable.length := by
    rw [List.length_reverse, future.length_eq]
  rw [List.getElem?_append_right (Nat.le_of_eq size), size, Nat.sub_self, List.getElem?_cons_zero]

theorem length_eq (line : Timeline edits m timeline top) :
    timeline.length = m.redoable.length + (m.undoable.length + 1) := by
  obtain ⟨bs, ds, past, future, rfl⟩ := line.along
  rw [List.length_append, List.length_reverse, List.length_cons, future.length_eq, past.length_eq]

/-- Where two managers move along the same list, the offset tells the configuration. -/
theorem configuration_eq {m' : ConfigUndoManager σ ε} (line : Timeline edits m timeline top)
    (line' : Timeline edits m' timeline top)
    (same : m'.mEditOffsetFromSave = m.mEditOffsetFromSave) :
    m'.configuration = m.configuration := by
  have sizes : m'.redoable.length = m.redoable.length := by
    have left := line.offset
    have right := line'.offset
    omega
  have here := line'.getElem?_eq
  rw [sizes, line.getElem?_eq] at here
  exact (Option.some.inj here).symm

end Timeline

/-! ## Moving along -/

/-- What is posted while an edit is undone or redone is ignored. -/
theorem foldl_addEdit (busy : m.mUndoInProgress = true) (posted : List ε) :
    posted.foldl addEdit m = m := by
  induction posted with
  | nil => rfl
  | cons edit rest ih => rw [List.foldl_cons, addEdit, if_pos busy, ih]

theorem superUndo_eq (m : ConfigUndoManager σ ε) {edit : ε} {rest : List ε} {c : σ}
    (busy : m.mUndoInProgress = true) (next : m.undoable = edit :: rest)
    (undone : (edits.undo edit m.configuration).map Prod.fst = some c) :
    m.superUndo edits = (false, { m with
      configuration := c, undoable := rest, redoable := edit :: m.redoable }) := by
  obtain ⟨result, here, rfl⟩ := Option.map_eq_some_iff.mp undone
  rw [superUndo, next]
  simp only [here]
  rw [foldl_addEdit (by exact busy)]

theorem superRedo_eq (m : ConfigUndoManager σ ε) {edit : ε} {rest : List ε} {c : σ}
    (busy : m.mUndoInProgress = true) (next : m.redoable = edit :: rest)
    (redone : (edits.redo edit m.configuration).map Prod.fst = some c) :
    m.superRedo edits = (false, { m with
      configuration := c, undoable := edit :: m.undoable, redoable := rest }) := by
  obtain ⟨result, here, rfl⟩ := Option.map_eq_some_iff.mp redone
  rw [superRedo, next]
  simp only [here]
  rw [foldl_addEdit (by exact busy)]

/-- The manager has moved along the list. -/
structure Moved (edits : UndoableEdits σ α ε) (timeline : List σ) (top : Int)
    (mUndoInProgress : Bool) (mEditOffsetFromSave : Int)
    (called : Bool × ConfigUndoManager σ ε) : Prop where
  returns : called.1 = false
  line : Timeline edits called.2 timeline top
  flag : called.2.mUndoInProgress = mUndoInProgress
  offset : called.2.mEditOffsetFromSave = mEditOffsetFromSave

/-- The call has thrown, before it could be finished. -/
structure Thrown (called : Bool × ConfigUndoManager σ ε) : Prop where
  throws : called.1 = true
  flag : called.2.mUndoInProgress = true

section Moves

variable (line : Timeline edits m timeline top)
include line

theorem moved_superUndo (busy : m.mUndoInProgress = true) (some : m.undoable ≠ []) :
    Moved edits timeline top true (m.mEditOffsetFromSave - 1)
      ({ m with mEditOffsetFromSave := m.mEditOffsetFromSave - 1 }.superUndo edits) := by
  obtain ⟨bs, ds, past, future, rfl⟩ := line.along
  have offset := line.offset
  obtain ⟨edit, rest, next⟩ := List.exists_cons_of_ne_nil some
  rw [next] at past
  cases past with
  | @cons b _ _ _ bs exact past =>
    rw [superUndo_eq { m with mEditOffsetFromSave := m.mEditOffsetFromSave - 1 } busy next exact.1]
    refine ⟨rfl, ⟨⟨bs, m.configuration :: ds, past, .cons exact future, ?_⟩, ?_⟩, busy, rfl⟩
    · simp only [List.reverse_cons, List.append_assoc, List.singleton_append]
    · simp only [List.length_cons]
      omega

theorem moved_superRedo (busy : m.mUndoInProgress = true) (some : m.redoable ≠ []) :
    Moved edits timeline top true (m.mEditOffsetFromSave + 1)
      ({ m with mEditOffsetFromSave := m.mEditOffsetFromSave + 1 }.superRedo edits) := by
  obtain ⟨bs, ds, past, future, rfl⟩ := line.along
  have offset := line.offset
  obtain ⟨edit, rest, next⟩ := List.exists_cons_of_ne_nil some
  rw [next] at future offset
  cases future with
  | @cons _ d _ _ ds exact future =>
    rw [superRedo_eq { m with mEditOffsetFromSave := m.mEditOffsetFromSave + 1 } busy next exact.2]
    refine ⟨rfl, ⟨⟨m.configuration :: bs, ds, .cons exact past, future, ?_⟩, ?_⟩, busy, rfl⟩
    · simp only [List.reverse_cons, List.append_assoc, List.singleton_append]
    · simp only [List.length_cons] at offset
      show m.mEditOffsetFromSave + 1 + rest.length = top
      omega

end Moves

theorem moved_undoLoop (line : Timeline edits m timeline top) (busy : m.mUndoInProgress = true)
    {count : Nat} (enough : count ≤ m.undoable.length) :
    Moved edits timeline top true (m.mEditOffsetFromSave - count) (undoLoop edits count m) := by
  induction count generalizing m with
  | zero => exact ⟨rfl, line, busy, (Int.sub_zero _).symm⟩
  | succ count ih =>
    have some : m.undoable ≠ [] := by
      intro none
      rw [none] at enough
      exact absurd enough (Nat.not_succ_le_zero count)
    have moved := moved_superUndo line busy some
    have sizes := line.length_eq.symm.trans moved.line.length_eq
    have offset := line.offset.trans moved.line.offset.symm
    rw [moved.offset] at offset
    rw [undoLoop]
    simp only [moved.returns, Bool.false_eq_true, if_false]
    have rest := ih moved.line moved.flag (by omega)
    rw [moved.offset] at rest
    have same : m.mEditOffsetFromSave - 1 - count = m.mEditOffsetFromSave - (count + 1 : Nat) := by
      omega
    rwa [same] at rest

theorem thrown_undoLoop (line : Timeline edits m timeline top) (busy : m.mUndoInProgress = true)
    {count : Nat} (short : m.undoable.length < count) : Thrown (undoLoop edits count m) := by
  induction count generalizing m with
  | zero => exact absurd short (Nat.not_lt_zero _)
  | succ count ih =>
    rw [undoLoop]
    by_cases none : m.undoable = []
    · rw [superUndo, none]
      exact ⟨rfl, busy⟩
    · have moved := moved_superUndo line busy none
      have sizes := line.length_eq.symm.trans moved.line.length_eq
      have offset := line.offset.trans moved.line.offset.symm
      rw [moved.offset] at offset
      simp only [moved.returns, Bool.false_eq_true, if_false]
      exact ih moved.line moved.flag (by omega)

/-- The sizes and the offset after a move. -/
theorem Moved.sizes {called : Bool × ConfigUndoManager σ ε} {busy : Bool} {offset : Int}
    (line : Timeline edits m timeline top) (moved : Moved edits timeline top busy offset called) :
    m.redoable.length + m.undoable.length = called.2.redoable.length + called.2.undoable.length ∧
      m.mEditOffsetFromSave + m.redoable.length = offset + called.2.redoable.length := by
  have lengths := line.length_eq.symm.trans moved.line.length_eq
  have offsets := line.offset.trans moved.line.offset.symm
  rw [moved.offset] at offsets
  exact ⟨by omega, offsets⟩

/-- A loop of redos does not throw. -/
theorem moved_redoLoop (goOn : ConfigUndoManager σ ε → Bool) (line : Timeline edits m timeline top)
    (busy : m.mUndoInProgress = true) (count : Nat) :
    ∃ offset, Moved edits timeline top true offset (redoLoop edits goOn count m) := by
  induction count generalizing m with
  | zero => exact ⟨_, rfl, line, busy, rfl⟩
  | succ count ih =>
    rw [redoLoop]
    split
    · next goes =>
      have some : m.redoable ≠ [] := by
        intro none
        simp [canRedo, none] at goes
      have moved := moved_superRedo line busy some
      simp only [moved.returns, Bool.false_eq_true, if_false]
      exact ih moved.line moved.flag
    · exact ⟨_, rfl, line, busy, rfl⟩

/-- The loop of `redoUntil` reaches a save point that can be reached. -/
theorem moved_redoUntil_loop (line : Timeline edits m timeline top)
    (busy : m.mUndoInProgress = true) {savePoint : Int} {count : Nat}
    (above : m.mEditOffsetFromSave ≤ savePoint) (near : savePoint ≤ m.mEditOffsetFromSave + count)
    (enough : count ≤ m.redoable.length) :
    Moved edits timeline top true savePoint
      (redoLoop edits (fun m => m.mEditOffsetFromSave < savePoint) count m) := by
  induction count generalizing m with
  | zero => exact ⟨rfl, line, busy, by show m.mEditOffsetFromSave = savePoint; omega⟩
  | succ count ih =>
    rw [redoLoop]
    by_cases reached : m.mEditOffsetFromSave = savePoint
    · rw [if_neg (by simp [reached])]
      exact ⟨rfl, line, busy, reached⟩
    · have some : m.redoable ≠ [] := by
        intro none
        rw [none] at enough
        exact absurd enough (Nat.not_succ_le_zero count)
      have below : m.mEditOffsetFromSave < savePoint := by omega
      rw [if_pos (by simp [canRedo, below, some])]
      have moved := moved_superRedo line busy some
      obtain ⟨-, offsets⟩ := moved.sizes line
      simp only [moved.returns, Bool.false_eq_true, if_false]
      apply ih moved.line moved.flag
      · rw [moved.offset]
        omega
      · rw [moved.offset]
        omega
      · omega

/-! ## Whole calls -/

theorem Moved.finish {called : Bool × ConfigUndoManager σ ε} {busy : Bool} {offset : Int}
    (moved : Moved edits timeline top busy offset called) :
    Moved edits timeline top false offset (finish called) := by
  rw [ConfigUndoManager.finish, if_neg (by simp [moved.returns])]
  exact ⟨rfl, ⟨moved.line.along, moved.line.offset⟩, rfl, moved.offset⟩

theorem Thrown.finish {called : Bool × ConfigUndoManager σ ε} (thrown : Thrown called) :
    Thrown (finish called) := by
  rwa [ConfigUndoManager.finish, if_pos thrown.throws]

section Calls

variable (line : Timeline edits m timeline top)
include line

/-- The same with the flag set. -/
theorem Timeline.busy : Timeline edits { m with mUndoInProgress := true } timeline top :=
  ⟨line.along, line.offset⟩

theorem moved_undo (some : m.undoable ≠ []) :
    Moved edits timeline top false (m.mEditOffsetFromSave - 1) (m.undo edits) :=
  (moved_superUndo line.busy rfl some).finish

theorem moved_redo (some : m.redoable ≠ []) :
    Moved edits timeline top false (m.mEditOffsetFromSave + 1) (m.redo edits) :=
  (moved_superRedo line.busy rfl some).finish

theorem moved_undoUntil {savePoint : Int}
    (enough : m.mEditOffsetFromSave - savePoint ≤ m.undoable.length) :
    Moved edits timeline top false
      (m.mEditOffsetFromSave - (m.mEditOffsetFromSave - savePoint).toNat)
      (m.undoUntil edits savePoint) :=
  (moved_undoLoop line.busy rfl (Int.toNat_le.mpr enough)).finish

theorem thrown_undoUntil {savePoint : Int}
    (short : m.undoable.length < m.mEditOffsetFromSave - savePoint) :
    Thrown (m.undoUntil edits savePoint) :=
  (thrown_undoLoop line.busy rfl (by show m.undoable.length < _; omega)).finish

theorem moved_redoAll : ∃ offset, Moved edits timeline top false offset (m.redoAll edits) := by
  obtain ⟨offset, moved⟩ := moved_redoLoop (fun _ => true) line.busy rfl m.redoable.length
  exact ⟨offset, moved.finish⟩

theorem moved_redoUntil (savePoint : Int) :
    ∃ offset, Moved edits timeline top false offset (m.redoUntil edits savePoint) := by
  obtain ⟨offset, moved⟩ := moved_redoLoop (fun m => m.mEditOffsetFromSave < savePoint) line.busy
    rfl m.redoable.length
  exact ⟨offset, moved.finish⟩

theorem moved_redoUntil_of_near {savePoint : Int} (above : m.mEditOffsetFromSave ≤ savePoint)
    (near : savePoint ≤ m.mEditOffsetFromSave + m.redoable.length) :
    Moved edits timeline top false savePoint (m.redoUntil edits savePoint) :=
  (moved_redoUntil_loop line.busy rfl above near (Nat.le_refl _)).finish

end Calls

theorem thrown_undo (none : m.undoable = []) : Thrown (m.undo edits) := by
  apply Thrown.finish
  rw [superUndo, none]
  exact ⟨rfl, rfl⟩

theorem thrown_redo (none : m.redoable = []) : Thrown (m.redo edits) := by
  apply Thrown.finish
  rw [superRedo, none]
  exact ⟨rfl, rfl⟩

/-! ## Calls that undo and redo -/

/-- Nothing is undone or redone that is not there. -/
def Enough (m : ConfigUndoManager σ ε) : Call α → Prop
  | .undo => m.undoable ≠ []
  | .undoUntil savePoint => m.mEditOffsetFromSave - savePoint ≤ m.undoable.length
  | .undoAll => m.mEditOffsetFromSave ≤ m.undoable.length
  | .redo => m.redoable ≠ []
  | _ => True

instance decidableEnough [DecidableEq ε] (m : ConfigUndoManager σ ε) (c : Call α) :
    Decidable (Enough m c) := by
  cases c <;> simp only [Enough] <;> infer_instance

def Moves : Call α → Prop
  | .perform _ => False
  | .saveHappened => False
  | _ => True

theorem moved_call {c : Call α} (line : Timeline edits m timeline top) (moves : Moves c)
    (enough : Enough m c) : ∃ offset, Moved edits timeline top false offset (call edits m c) := by
  cases c with
  | perform operation => exact moves.elim
  | undo => exact ⟨_, moved_undo line enough⟩
  | undoUntil savePoint => exact ⟨_, moved_undoUntil line enough⟩
  | undoAll =>
    have near : m.mEditOffsetFromSave - 0 ≤ m.undoable.length := by
      rw [Int.sub_zero]
      exact enough
    exact ⟨_, moved_undoUntil line near⟩
  | redo => exact ⟨_, moved_redo line enough⟩
  | redoUntil savePoint => exact moved_redoUntil line savePoint
  | redoAll => exact moved_redoAll line
  | saveHappened => exact moves.elim

/-- Otherwise the call throws. -/
theorem thrown_call {c : Call α} (line : Timeline edits m timeline top) (short : ¬ Enough m c) :
    Thrown (call edits m c) := by
  cases c with
  | undo => exact thrown_undo (not_not.mp short)
  | undoUntil savePoint => exact thrown_undoUntil line (Int.not_le.mp short)
  | undoAll =>
    have far : m.undoable.length < m.mEditOffsetFromSave - 0 := by
      rw [Int.sub_zero]
      exact Int.not_le.mp short
    exact thrown_undoUntil line far
  | redo => exact thrown_redo (not_not.mp short)
  | _ => exact absurd trivial short

/-! ## New edits -/

/-- The operation changes nothing, or posts one edit, which is exact. -/
def PostsExact (edits : UndoableEdits σ α ε) (operation : α) (c : σ) : Prop :=
  edits.perform operation c = (c, []) ∨
    ∃ edit after, edits.perform operation c = (after, [edit]) ∧ Exact edits c edit after

theorem perform_eq_self {operation : α}
    (nothing : edits.perform operation m.configuration = (m.configuration, [])) :
    m.perform edits operation = m := by
  rw [perform, nothing]
  rfl

/-- A new edit cuts off what could be redone. -/
theorem timeline_perform {operation : α} {edit : ε} {after : σ}
    (line : Timeline edits m timeline top) (idle : m.mUndoInProgress = false)
    (posts : edits.perform operation m.configuration = (after, [edit]))
    (exact : Exact edits m.configuration edit after) :
    Timeline edits (m.perform edits operation)
        (after :: (timeline.drop m.redoable.length).take limit) (m.mEditOffsetFromSave + 1) ∧
      m.perform edits operation = { m with
        configuration := after
        undoable := (edit :: m.undoable).take limit
        redoable := []
        mEditOffsetFromSave := m.mEditOffsetFromSave + 1 } := by
  obtain ⟨bs, ds, past, future, rfl⟩ := line.along
  have performed : m.perform edits operation = { m with
      configuration := after
      undoable := (edit :: m.undoable).take limit
      redoable := []
      mEditOffsetFromSave := m.mEditOffsetFromSave + 1 } := by
    rw [perform, posts, List.foldl_cons, List.foldl_nil, addEdit, if_neg (by simp [idle])]
    rfl
  refine ⟨?_, performed⟩
  rw [performed]
  have size : m.redoable.length = ds.reverse.length := by
    rw [List.length_reverse, future.length_eq]
  refine ⟨⟨(m.configuration :: bs).take limit, [], (Past.cons exact past).take limit, .nil after,
    ?_⟩, Int.add_zero _⟩
  rw [size, List.drop_left, List.reverse_nil, List.nil_append]

/-! ## What was seen at an offset -/

/-- The configurations that were seen at offsets are those of the list there. -/
def Recorded (timeline : List σ) (top : Int) (seen : Int → Option σ) : Prop :=
  ∀ (i : Nat) x c, timeline[i]? = some x → seen (top - i) = some c → x = c

theorem Recorded.configuration_eq {seen : Int → Option σ} {c : σ}
    (recorded : Recorded timeline top seen) (line : Timeline edits m timeline top)
    (here : seen m.mEditOffsetFromSave = some c) : m.configuration = c := by
  apply recorded m.redoable.length _ _ line.getElem?_eq
  have offset := line.offset
  have same : top - m.redoable.length = m.mEditOffsetFromSave := by omega
  rw [same, here]

theorem recorded_none : Recorded timeline top fun _ => none := by
  intro i x c _ there
  cases there

/-- What is seen where the manager stands. -/
def noticed (m : ConfigUndoManager σ ε) (seen : Int → Option σ) (offset : Int) : Option σ :=
  if offset = m.mEditOffsetFromSave then some m.configuration else seen offset

@[simp] theorem noticed_self (m : ConfigUndoManager σ ε) (seen : Int → Option σ) :
    noticed m seen m.mEditOffsetFromSave = some m.configuration :=
  if_pos rfl

theorem noticed_of_ne {seen : Int → Option σ} {offset : Int}
    (away : offset ≠ m.mEditOffsetFromSave) : noticed m seen offset = seen offset :=
  if_neg away

theorem Recorded.noticed {seen : Int → Option σ} (recorded : Recorded timeline top seen)
    (line : Timeline edits m timeline top) : Recorded timeline top (noticed m seen) := by
  intro i x c here there
  have offset := line.offset
  by_cases this : i = m.redoable.length
  · have same : top - i = m.mEditOffsetFromSave := by omega
    rw [same, noticed_self] at there
    rw [this, line.getElem?_eq] at here
    exact (Option.some.inj here).symm.trans (Option.some.inj there)
  · rw [noticed_of_ne (by omega)] at there
    exact recorded i x c here there

/-- A new edit leaves the older part of the list. -/
theorem recorded_perform {seen seen' : Int → Option σ} {after : σ}
    (line : Timeline edits m timeline top) (recorded : Recorded timeline top seen)
    (new : ∀ c, seen' (m.mEditOffsetFromSave + 1) = some c → after = c)
    (older : ∀ offset c, offset ≠ m.mEditOffsetFromSave + 1 → seen' offset = some c →
      seen offset = some c) :
    Recorded (after :: (timeline.drop m.redoable.length).take limit)
      (m.mEditOffsetFromSave + 1) seen' := by
  intro i x c here there
  cases i with
  | zero =>
    rw [List.getElem?_cons_zero] at here
    obtain rfl := Option.some.inj here
    exact new c (by simpa using there)
  | succ i =>
    rw [List.getElem?_cons_succ] at here
    have part : timeline[m.redoable.length + i]? = some x := by
      rw [← List.getElem?_drop]
      exact (List.getElem?_eq_some_iff.mp here).elim fun bound value => by
        rw [List.getElem_take] at value
        exact List.getElem?_eq_some_iff.mpr ⟨_, value⟩
    have offset := line.offset
    have before := older _ c (by push_cast; omega) there
    refine recorded _ x c part ?_
    rw [← before]
    congr 1
    push_cast
    omega

end VRJuggler.Config
