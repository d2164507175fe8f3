import VRJuggler.Base.DepthFirst
import VRJuggler.Gadget.Proxies

/-!
# The update of a frame

Once a frame the kernel has all devices and proxies of the input manager update their data. A
proxy updates its device first, and the simulated device that stands for a relative position
updates the two proxies that it reads, so that an update may go through many objects before it
comes back. Devices that a keyboard simulates look at the keys as they are. Between the devices
and the proxies, the input logger and the cluster write their own data into devices.
-/
namespace VRJuggler.Gadget

inductive InputObject (δ π : Type) where
  | device (d : δ)
  | proxy (p : π)
  deriving DecidableEq

/-- `updateData` of a device: the samples that its driver has collected are swapped in; or, in a
`SimInput`, the keys that the device of a proxy has, if there is one, go into the next data; or, in
`SimRelativePosition`, the positions of two proxies are multiplied. -/
inductive DeviceUpdate (π D : Type) where
  | swapBuffers (swapped : D → D)
  | keyed (mKeyboardMouse : π) (pressed : D → Option D → D)
  | relative (mBaseFrame mRelativePos : π)

/-- The code of the objects at a frame. A proxy that `overrides` the empty `updateData` of the base
class takes the data of its device; a digital proxy looks at its last own data as well. -/
structure InputCode (δ π D V : Type) where
  updateData : δ → DeviceUpdate π D
  mult : V → V → D
  overrides : π → Bool
  take : π → V → D → V

/-- Members of the objects. `updates` keeps the calls of `updateData` that have returned. -/
structure InputState (δ π D V : Type) where
  mNeedUpdate : InputObject δ π → Bool
  devices : δ → D
  proxies : π → V
  updates : List (InputObject δ π) := []

variable {δ τ π D V : Type} [DecidableEq δ] [DecidableEq π]

namespace InputState

def setNeedUpdate (s : InputState δ π D V) (o : InputObject δ π) (needs : Bool) :
    InputState δ π D V :=
  { s with mNeedUpdate := Function.update s.mNeedUpdate o needs }

def updatedDevice (s : InputState δ π D V) (d : δ) (data : D) : InputState δ π D V :=
  { s with
    devices := Function.update s.devices d data
    updates := s.updates ++ [.device d] }

def updatedProxy (s : InputState δ π D V) (p : π) (data : V) : InputState δ π D V :=
  { s with
    proxies := Function.update s.proxies p data
    updates := s.updates ++ [.proxy p] }

/-- Data written over those of the devices. -/
def rewritten (s : InputState δ π D V) (rewrite : δ → D → D) : InputState δ π D V :=
  { s with devices := fun d => rewrite d (s.devices d) }

@[simp] theorem devices_setNeedUpdate (s : InputState δ π D V) (o : InputObject δ π)
    (needs : Bool) :
    (s.setNeedUpdate o needs).devices = s.devices := rfl

@[simp] theorem proxies_setNeedUpdate (s : InputState δ π D V) (o : InputObject δ π)
    (needs : Bool) :
    (s.setNeedUpdate o needs).proxies = s.proxies := rfl

end InputState

variable (code : InputCode δ π D V) (m : InputManager δ τ π)

/-- `updateDataIfNeeded` of an object, with the depth of the stack that is left. -/
def updateDataIfNeeded : Nat → InputState δ π D V → InputObject δ π → Option (InputState δ π D V)
  | 0, _, _ => none
  | depth + 1, s, o =>
    if s.mNeedUpdate o then
      let s := s.setNeedUpdate o false
      match o with
      | .device d =>
        match code.updateData d with
        | .swapBuffers swapped => some (s.updatedDevice d (swapped (s.devices d)))
        | .keyed mKeyboardMouse pressed =>
          -- the keyboard is not asked to update itself
          let keyboard := (m.proxies mKeyboardMouse).getProxiedInputDevice
          some (s.updatedDevice d (pressed (s.devices d) (keyboard.map s.devices)))
        | .relative mBaseFrame mRelativePos => do
          let s ← updateDataIfNeeded depth s (.proxy mBaseFrame)
          let s ← updateDataIfNeeded depth s (.proxy mRelativePos)
          some (s.updatedDevice d (code.mult (s.proxies mBaseFrame) (s.proxies mRelativePos)))
      | .proxy p =>
        match (m.proxies p).getProxiedInputDevice, code.overrides p with
        | some d, true => do
          -- a digital proxy has looked at its old state already
          let old_state := s.proxies p
          let s ← updateDataIfNeeded depth s (.device d)
          some (s.updatedProxy p (code.take p old_state (s.devices d)))
        | _, _ => some (s.updatedProxy p (s.proxies p))
    else some s

namespace InputManager

/-- The devices of the table, in its order. -/
def tableDevices : List (InputObject δ π) :=
  m.mDevTable.entries.filterMap fun entry => entry.2.map .device

def tableProxies : List (InputObject δ π) :=
  m.mProxyTable.entries.map fun entry => .proxy entry.2

def resetAllDevicesAndProxies (s : InputState δ π D V) : InputState δ π D V :=
  let s := m.tableProxies.foldl (fun s o => s.setNeedUpdate o true) s
  m.tableDevices.foldl (fun s o => s.setNeedUpdate o true) s

/-- The loop of `updateAllDevices`, up to the input logger. -/
def updateAllDevices (depth : Nat) (s : InputState δ π D V) : Option (InputState δ π D V) :=
  m.tableDevices.foldlM (updateDataIfNeeded code m depth) s

def updateAllProxies (depth : Nat) (s : InputState δ π D V) : Option (InputState δ π D V) :=
  m.tableProxies.foldlM (updateDataIfNeeded code m depth) s

/-- From one call of `resetAllDevicesAndProxies` to the next in the control loop; `rewrite` is what
the logger and the cluster make of the data of a device. -/
def frame (rewrite : δ → D → D) (depth : Nat) (s : InputState δ π D V) :
    Option (InputState δ π D V) := do
  let s ← m.updateAllDevices code depth (m.resetAllDevicesAndProxies s)
  m.updateAllProxies code depth (s.rewritten rewrite)

end InputManager

/-! ## Objects as things that read each other -/

/-- Data of a device or of a proxy. -/
def InputState.data (s : InputState δ π D V) : InputObject δ π → D ⊕ V
  | .device d => .inl (s.devices d)
  | .proxy p => .inr (s.proxies p)

/-- The objects that `updateData` of an object updates first. -/
def reads : InputObject δ π → List (InputObject δ π)
  | .device d =>
    match code.updateData d with
    | .relative mBaseFrame mRelativePos => [.proxy mBaseFrame, .proxy mRelativePos]
    | _ => []
  | .proxy p =>
    match (m.proxies p).getProxiedInputDevice, code.overrides p with
    | some d, true => [.device d]
    | _, _ => []

/-- The objects that `updateData` of an object looks at as they are. -/
def peeks : InputObject δ π → List (InputObject δ π)
  | .device d =>
    match code.updateData d with
    | .keyed mKeyboardMouse _ =>
      (m.proxies mKeyboardMouse).getProxiedInputDevice.toList.map .device
    | _ => []
  | .proxy _ => []

/-- What an object makes of its data and those of the others. -/
def compute : InputObject δ π → D ⊕ V → (InputObject δ π → D ⊕ V) → D ⊕ V
  | .device d, own, data =>
    match code.updateData d with
    | .swapBuffers swapped => own.map swapped id
    | .keyed mKeyboardMouse pressed =>
      let keyboard := (m.proxies mKeyboardMouse).getProxiedInputDevice
      own.map (fun last => pressed last (keyboard.bind fun k => (data (.device k)).getLeft?)) id
    | .relative mBaseFrame mRelativePos =>
      match data (.proxy mBaseFrame), data (.proxy mRelativePos) with
      | .inr base, .inr relative => .inl (code.mult base relative)
      | _, _ => own
  | .proxy p, own, data =>
    match (m.proxies p).getProxiedInputDevice, code.overrides p with
    | some d, true =>
      match own, data (.device d) with
      | .inr old_state, .inl now => .inr (code.take p old_state now)
      | _, _ => own
    | _, _ => own

/-- The objects as they update each other. -/
def inputUpdates : Updates (InputObject δ π) (D ⊕ V) where
  reads := reads code m
  peeks := peeks code m
  compute := compute code m
  compute_congr := by
    intro n own f g same
    cases n with
    | device d =>
      cases does : code.updateData d with
      | swapBuffers swapped => simp [compute, does]
      | keyed mKeyboardMouse pressed =>
        cases keyboard : (m.proxies mKeyboardMouse).getProxiedInputDevice with
        | none => simp [compute, does, keyboard]
        | some k =>
          have same := same (.device k) (by simp [reads, peeks, does, keyboard])
          simp [compute, does, keyboard, same]
      | relative mBaseFrame mRelativePos =>
        have base := same (.proxy mBaseFrame) (by simp [reads, does])
        have relative := same (.proxy mRelativePos) (by simp [reads, does])
        simp [compute, does, base, relative]
    | proxy p =>
      cases device : (m.proxies p).getProxiedInputDevice with
      | none => simp [compute, device]
      | some d =>
        cases takes : code.overrides p with
        | false => simp [compute, device, takes]
        | true =>
          have same := same (.device d) (by simp [reads, device, takes])
          simp [compute, device, takes, same]

variable {code : InputCode δ π D V} {m : InputManager δ τ π}

omit [DecidableEq δ] [DecidableEq π] in
@[simp] theorem reads_inputUpdates : (inputUpdates code m).reads = reads code m := rfl

omit [DecidableEq δ] [DecidableEq π] in
@[simp] theorem peeks_inputUpdates : (inputUpdates code m).peeks = peeks code m := rfl

omit [DecidableEq δ] [DecidableEq π] in
@[simp] theorem compute_inputUpdates : (inputUpdates code m).compute = compute code m := rfl

/-- The members as marks, when `before` are the calls that returned before. -/
structure HasMarks (before : List (InputObject δ π)) (s : InputState δ π D V)
    (t : Marks (InputObject δ π) (D ⊕ V)) : Prop where
  marked : t.marked = s.mNeedUpdate
  data : t.data = s.data
  updates : s.updates = before ++ t.done

variable {before : List (InputObject δ π)} {s : InputState δ π D V}
  {t : Marks (InputObject δ π) (D ⊕ V)}

theorem HasMarks.setNeedUpdate (shows : HasMarks before s t) (o : InputObject δ π) :
    HasMarks before (s.setNeedUpdate o false) (t.unmark o) := by
  constructor
  · simp [Marks.unmark, InputState.setNeedUpdate, shows.marked]
  · exact shows.data
  · exact shows.updates

theorem HasMarks.updatedDevice (shows : HasMarks before s t) (d : δ) (data : D) :
    HasMarks before (s.updatedDevice d data) (t.finish (.device d) (.inl data)) := by
  constructor
  · exact shows.marked
  · funext o
    have same := congrFun shows.data o
    cases o with
    | device e =>
      by_cases here : e = d
      · simp [Marks.finish, InputState.updatedDevice, InputState.data, here]
      · simpa [Marks.finish, InputState.updatedDevice, InputState.data, here] using same
    | proxy p => simpa [Marks.finish, InputState.updatedDevice, InputState.data] using same
  · simp [Marks.finish, InputState.updatedDevice, shows.updates]

theorem HasMarks.updatedProxy (shows : HasMarks before s t) (p : π) (data : V) :
    HasMarks before (s.updatedProxy p data) (t.finish (.proxy p) (.inr data)) := by
  constructor
  · exact shows.marked
  · funext o
    have same := congrFun shows.data o
    cases o with
    | device d => simpa [Marks.finish, InputState.updatedProxy, InputState.data] using same
    | proxy q =>
      by_cases here : q = p
      · simp [Marks.finish, InputState.updatedProxy, InputState.data, here]
      · simpa [Marks.finish, InputState.updatedProxy, InputState.data, here] using same
  · simp [Marks.finish, InputState.updatedProxy, shows.updates]

/-! ## The code updates as the objects do -/

omit [DecidableEq δ] [DecidableEq π] in
theorem HasMarks.device (shows : HasMarks before s t) (d : δ) :
    t.data (.device d) = .inl (s.devices d) := congrFun shows.data (.device d)

omit [DecidableEq δ] [DecidableEq π] in
theorem HasMarks.proxy (shows : HasMarks before s t) (p : π) :
    t.data (.proxy p) = .inr (s.proxies p) := congrFun shows.data (.proxy p)

/-- One computation after another. -/
theorem rel_bind {α β γ ε : Type} {R : α → β → Prop} {S : γ → ε → Prop} {a : Option α}
    {b : Option β}
    {f : α → Option γ} {g : β → Option ε} (first : Option.Rel R a b)
    (next : ∀ x y, R x y → Option.Rel S (f x) (g y)) : Option.Rel S (a.bind f) (b.bind g) := by
  cases first with
  | some related => exact next _ _ related
  | none => exact .none

/-- An update of one object, with the same stack. -/
theorem hasMarks_updateDataIfNeeded (depth : Nat) :
    ∀ (s : InputState δ π D V) t o, HasMarks before s t →
    Option.Rel (HasMarks before) (updateDataIfNeeded code m depth s o)
      ((inputUpdates code m).visit depth t o) := by
  induction depth with
  | zero => exact fun s t o _ => .none
  | succ depth ih =>
    intro s t o shows
    rw [updateDataIfNeeded, Updates.visit, shows.marked]
    split
    case isFalse => exact .some shows
    case isTrue needed =>
      have begun := shows.setNeedUpdate o
      cases o with
      | device d =>
        cases does : code.updateData d with
        | swapBuffers swapped =>
          have last := begun.updatedDevice d (swapped (s.devices d))
          simpa [reads, compute, does, shows.device] using last
        | keyed mKeyboardMouse pressed =>
          cases keyboard : (m.proxies mKeyboardMouse).getProxiedInputDevice with
          | none =>
            have last := begun.updatedDevice d (pressed (s.devices d) none)
            simpa [reads, compute, does, keyboard, shows.device] using last
          | some k =>
            have last := begun.updatedDevice d (pressed (s.devices d) (some (s.devices k)))
            simpa [reads, compute, does, keyboard, shows.device] using last
        | relative mBaseFrame mRelativePos =>
          -- the two proxies, one after the other
          simp only [reads_inputUpdates, reads, does, List.foldlM_cons, List.foldlM_nil,
            Option.bind_eq_bind, Option.map_bind, Function.comp_def, Option.pure_def]
          refine rel_bind (ih _ _ (.proxy mBaseFrame) begun) fun s₁ t₁ shows₁ => ?_
          refine rel_bind (ih _ _ (.proxy mRelativePos) shows₁) fun s₂ t₂ shows₂ => ?_
          have last := shows₂.updatedDevice d
            (code.mult (s₂.proxies mBaseFrame) (s₂.proxies mRelativePos))
          simpa [compute, does, shows₂.proxy] using last
      | proxy p =>
        cases device : (m.proxies p).getProxiedInputDevice with
        | none =>
          have last := begun.updatedProxy p (s.proxies p)
          simpa [reads, compute, device, shows.proxy] using last
        | some d =>
          cases takes : code.overrides p with
          | false =>
            have last := begun.updatedProxy p (s.proxies p)
            simpa [reads, compute, device, takes, shows.proxy] using last
          | true =>
            simp only [reads_inputUpdates, reads, device, takes, List.foldlM_cons, List.foldlM_nil,
              Option.bind_eq_bind, Option.map_bind, Function.comp_def, Option.pure_def]
            refine rel_bind (ih _ _ (.device d) begun) fun s₁ t₁ shows₁ => ?_
            have last := shows₁.updatedProxy p (code.take p (s.proxies p) (s₁.devices d))
            simpa [compute, device, takes, shows.proxy, shows₁.device] using last

/-- The members at the start of some updates. -/
def InputState.marks (s : InputState δ π D V) : Marks (InputObject δ π) (D ⊕ V) where
  marked := s.mNeedUpdate
  data := s.data
  done := []

/-- The objects that are updated, when these are asked to update themselves if needed. -/
def UpdatedFrom (code : InputCode δ π D V) (m : InputManager δ τ π) (s : InputState δ π D V)
    (asked : List (InputObject δ π)) (o : InputObject δ π) : Prop :=
  (inputUpdates code m).Reached s.marks asked o

/-- The object updates others that come to update the object itself. -/
def WaitsForItself (code : InputCode δ π D V) (m : InputManager δ τ π) (o : InputObject δ π) :
    Prop :=
  (inputUpdates code m).OnCircle o

/-- One after the other of the objects was asked to update itself if needed. -/
def Asked (code : InputCode δ π D V) (m : InputManager δ τ π) (s : InputState δ π D V)
    (asked : List (InputObject δ π)) (s' : InputState δ π D V) : Prop :=
  ∃ done, s'.updates = s.updates ++ done ∧
    (inputUpdates code m).Updated s.marks asked { s'.marks with done := done }

omit [DecidableEq δ] [DecidableEq π] in
theorem hasMarks_marks (s : InputState δ π D V) : HasMarks s.updates s s.marks where
  marked := rfl
  data := rfl
  updates := (List.append_nil _).symm

theorem hasMarks_fold (code : InputCode δ π D V) (m : InputManager δ τ π) (depth : Nat)
    (asked : List (InputObject δ π)) :
    ∀ (s : InputState δ π D V) t, HasMarks before s t →
      Option.Rel (HasMarks before) (asked.foldlM (updateDataIfNeeded code m depth) s)
        ((inputUpdates code m).visitAll depth t asked) := by
  induction asked with
  | nil => exact fun s t shows => .some shows
  | cons o rest ih =>
    intro s t shows
    rw [Updates.visitAll, List.foldlM_cons, List.foldlM_cons]
    exact rel_bind (hasMarks_updateDataIfNeeded depth s t o shows)
      fun s₁ t₁ shows₁ => ih s₁ t₁ shows₁

theorem hasMarks_of_fold {depth : Nat} {asked : List (InputObject δ π)} {s s' : InputState δ π D V}
    (folded : asked.foldlM (updateDataIfNeeded code m depth) s = some s') :
    ∃ t, (inputUpdates code m).visitAll depth s.marks asked = some t ∧ HasMarks s.updates s' t := by
  have related := hasMarks_fold code m depth asked s _ (hasMarks_marks s)
  rw [folded] at related
  cases h : (inputUpdates code m).visitAll depth s.marks asked with
  | none => rw [h] at related; cases related
  | some t => rw [h] at related; cases related with | some shows => exact ⟨t, rfl, shows⟩

theorem returns_asked (code : InputCode δ π D V) (m : InputManager δ τ π) (s : InputState δ π D V)
    (asked : List (InputObject δ π))
    {pending : Finset (InputObject δ π)} (covers : ∀ o, s.mNeedUpdate o = true → o ∈ pending) :
    ∃ s', Returns (fun depth => asked.foldlM (updateDataIfNeeded code m depth) s) s' ∧
      Asked code m s asked s' := by
  have none' : s.marks.done = [] := rfl
  obtain ⟨t, ⟨deep, ends⟩, updated⟩ :=
    Updates.returns_visitAll (u := inputUpdates code m) none' covers asked
  have same (depth : Nat) (enough : deep ≤ depth) :
      ∃ s', asked.foldlM (updateDataIfNeeded code m depth) s = some s' ∧
        HasMarks s.updates s' t := by
    have related := hasMarks_fold code m depth asked s _ (hasMarks_marks s)
    rw [show (inputUpdates code m).visitAll depth s.marks asked = some t from ends depth enough]
      at related
    cases h : asked.foldlM (updateDataIfNeeded code m depth) s with
    | none => rw [h] at related; cases related
    | some s' => rw [h] at related; cases related with | some shows => exact ⟨s', rfl, shows⟩
  -- the members are determined by what they show
  have unique {s₁ s₂ : InputState δ π D V} (one : HasMarks s.updates s₁ t)
      (two : HasMarks s.updates s₂ t) : s₁ = s₂ := by
    have data : s₁.data = s₂.data := one.data.symm.trans two.data
    have devices : s₁.devices = s₂.devices :=
      funext fun d => Sum.inl.inj (congrFun data (.device d))
    have proxies : s₁.proxies = s₂.proxies := funext fun p => Sum.inr.inj (congrFun data (.proxy p))
    have marked := one.marked.symm.trans two.marked
    have updates := one.updates.trans two.updates.symm
    cases s₁
    cases s₂
    simp_all
  obtain ⟨s', here, shows⟩ := same deep (Nat.le_refl deep)
  refine ⟨s', ⟨deep, fun depth enough => ?_⟩, ?_⟩
  · obtain ⟨s₂, there, shows₂⟩ := same depth enough
    simp only [there, unique shows shows₂]
  · have last : { s'.marks with done := t.done } = t := by
      cases t
      simp [InputState.marks, ← shows.marked, ← shows.data]
    exact ⟨t.done, shows.updates, by rwa [last]⟩

namespace Asked

variable {asked : List (InputObject δ π)} {s' : InputState δ π D V}
  (round : Asked code m s asked s')
include round

theorem once {o : InputObject δ π} (here : UpdatedFrom code m s asked o) :
    s'.updates.count o = s.updates.count o + 1 := by
  obtain ⟨done, log, updated⟩ := round
  rw [log, List.count_append,
    List.count_eq_one_of_mem updated.nodup ((updated.done_iff o).mpr here)]

theorem others {o : InputObject δ π} (away : ¬ UpdatedFrom code m s asked o) :
    s'.updates.count o = s.updates.count o := by
  obtain ⟨done, log, updated⟩ := round
  rw [log, List.count_append, List.count_eq_zero_of_not_mem (mt (updated.done_iff o).mp away),
    Nat.add_zero]

theorem needs_iff (o : InputObject δ π) : s'.mNeedUpdate o = true ↔
    s.mNeedUpdate o = true ∧ ¬ UpdatedFrom code m s asked o := by
  obtain ⟨done, -, updated⟩ := round
  exact updated.marked_iff o

theorem kept {o : InputObject δ π} (away : ¬ UpdatedFrom code m s asked o) :
    s'.data o = s.data o := by
  obtain ⟨done, -, updated⟩ := round
  exact updated.kept o away

theorem fresh {o : InputObject δ π} (here : UpdatedFrom code m s asked o)
    (straight : ¬ WaitsForItself code m o) (noPeek : peeks code m o = []) :
    s'.data o = compute code m o (s.data o) s'.data := by
  obtain ⟨done, -, updated⟩ := round
  exact updated.fresh here straight noPeek

/-- The data that an object computed from, whichever were updated before it. -/
theorem computed {o : InputObject δ π} (here : UpdatedFrom code m s asked o) :
    ∃ earlier later, s'.updates = s.updates ++ earlier ++ o :: later ∧
      s'.data o = compute code m o (s.data o)
        (fun r => if r ∈ earlier then s'.data r else s.data r) := by
  obtain ⟨done, log, updated⟩ := round
  obtain ⟨earlier, later, rfl⟩ := List.append_of_mem ((updated.done_iff o).mpr here)
  exact ⟨earlier, later, by rw [log, List.append_assoc], updated.computed earlier o later rfl⟩

theorem unneeded_reads {o r : InputObject δ π} (here : UpdatedFrom code m s asked o)
    (member : r ∈ reads code m o) : s'.mNeedUpdate r = false := by
  obtain ⟨done, -, updated⟩ := round
  exact updated.unmarked_reads here member

end Asked

omit [DecidableEq δ] [DecidableEq π] in
theorem needed_of_updatedFrom {asked : List (InputObject δ π)} {o : InputObject δ π}
    (here : UpdatedFrom code m s asked o) : s.mNeedUpdate o = true := by
  by_contra unmarked
  exact Updates.not_reached_of_unmarked (Bool.eq_false_of_not_eq_true unmarked) here

omit [DecidableEq δ] [DecidableEq π] in
theorem updatedFrom_of_mem {asked : List (InputObject δ π)} {o : InputObject δ π}
    (member : o ∈ asked) (needed : s.mNeedUpdate o = true) : UpdatedFrom code m s asked o :=
  ⟨o, member, needed, .refl⟩

omit [DecidableEq δ] [DecidableEq π] in
theorem device_of_data {s' : InputState δ π D V} {d : δ}
    (same : s'.data (.device d) = s.data (.device d)) :
    s'.devices d = s.devices d := Sum.inl.inj same

omit [DecidableEq δ] [DecidableEq π] in
theorem proxy_of_data {s' : InputState δ π D V} {p : π}
    (same : s'.data (.proxy p) = s.data (.proxy p)) :
    s'.proxies p = s.proxies p := Sum.inr.inj same

/-! ## A frame -/

theorem foldl_setNeedUpdate (os : List (InputObject δ π)) (s : InputState δ π D V) :
    let after := os.foldl (fun s o => s.setNeedUpdate o true) s
    after.data = s.data ∧ after.updates = s.updates ∧
      ∀ o, after.mNeedUpdate o = true ↔ o ∈ os ∨ s.mNeedUpdate o = true := by
  induction os generalizing s with
  | nil => simp
  | cons o rest ih =>
    obtain ⟨data, updates, marks⟩ := ih (s.setNeedUpdate o true)
    refine ⟨data, updates, fun o' => ?_⟩
    rw [List.foldl_cons, marks, List.mem_cons]
    by_cases same : o' = o
    · simp [InputState.setNeedUpdate, same]
    · simp [InputState.setNeedUpdate, same]

/-- An object of the input manager. -/
def InputManager.InTables (m : InputManager δ τ π) (o : InputObject δ π) : Prop :=
  o ∈ m.tableDevices ∨ o ∈ m.tableProxies

theorem reset_spec (s : InputState δ π D V) :
    let after := m.resetAllDevicesAndProxies s
    after.data = s.data ∧ after.updates = s.updates ∧
      ∀ o, after.mNeedUpdate o = true ↔ m.InTables o ∨ s.mNeedUpdate o = true := by
  obtain ⟨data, updates, marks⟩ := foldl_setNeedUpdate m.tableProxies s
  obtain ⟨data', updates', marks'⟩ :=
    foldl_setNeedUpdate m.tableDevices (m.tableProxies.foldl (fun s o => s.setNeedUpdate o true) s)
  refine ⟨data'.trans data, updates'.trans updates, fun o => ?_⟩
  rw [InputManager.resetAllDevicesAndProxies, marks', marks, InputManager.InTables, or_assoc]

/-- What a frame comes to: `s₀` before it, `s₁` after the devices, and `s` at the end. -/
structure FrameUpdated (code : InputCode δ π D V) (m : InputManager δ τ π) (rewrite : δ → D → D)
    (s₀ s₁ s : InputState δ π D V) : Prop where
  /-- every object of the tables is updated exactly once -/
  once : ∀ o, m.InTables o → s.mNeedUpdate o = false ∧
    s.updates.count o = s₀.updates.count o + 1
  /-- other objects only if no update was ever asked of them -/
  outside : ∀ o, ¬ m.InTables o → s₀.mNeedUpdate o = false → s.mNeedUpdate o = false ∧
    s.updates.count o = s₀.updates.count o
  untouched : ∀ p, ¬ m.InTables (.proxy p) → s₀.mNeedUpdate (.proxy p) = false →
    s.proxies p = s₀.proxies p
  swapped : ∀ d swapped, m.InTables (.device d) → code.updateData d = .swapBuffers swapped →
    s.devices d = rewrite d (swapped (s₀.devices d))
  /-- the keys are those of this frame if the keyboard was updated before the device -/
  keyed : ∀ d mKeyboardMouse pressed, m.InTables (.device d) →
    code.updateData d = .keyed mKeyboardMouse pressed →
      ∃ earlier later, s₁.updates = s₀.updates ++ earlier ++ .device d :: later ∧
        s.devices d = rewrite d (pressed (s₀.devices d)
          ((m.proxies mKeyboardMouse).getProxiedInputDevice.map fun k =>
            if .device k ∈ earlier then s₁.devices k else s₀.devices k))
  /-- from the data that the proxies have at the end of the frame -/
  relative : ∀ d mBaseFrame mRelativePos, m.InTables (.device d) →
    code.updateData d = .relative mBaseFrame mRelativePos → ¬ WaitsForItself code m (.device d) →
      s.devices d = rewrite d (code.mult (s.proxies mBaseFrame) (s.proxies mRelativePos))
  /-- the data of a proxy, from those of its device at the end of the frame or, if a device reads
  the proxy, from those before they were rewritten -/
  proxy : ∀ p d, m.InTables (.proxy p) → ¬ WaitsForItself code m (.proxy p) →
    (m.proxies p).getProxiedInputDevice = some d → code.overrides p = true →
      (UpdatedFrom code m (m.resetAllDevicesAndProxies s₀) m.tableDevices (.proxy p) →
        s.proxies p = code.take p (s₀.proxies p) (s₁.devices d)) ∧
      (¬ UpdatedFrom code m (m.resetAllDevicesAndProxies s₀) m.tableDevices (.proxy p) →
        s.proxies p = code.take p (s₀.proxies p) (s.devices d))
  pending : ∀ o, s.mNeedUpdate o = true → s₀.mNeedUpdate o = true

section Phases

variable {rewrite : δ → D → D} {s₀ s₁ s : InputState δ π D V}
  (one : Asked code m (m.resetAllDevicesAndProxies s₀) m.tableDevices s₁)
  (two : Asked code m (s₁.rewritten rewrite) m.tableProxies s)

include one in
/-- A device of the table is updated at once, and no object twice. -/
theorem needs_after_devices (o : InputObject δ π) : s₁.mNeedUpdate o = true ↔
    (o ∈ m.tableProxies ∨ s₀.mNeedUpdate o = true) ∧
      ¬ UpdatedFrom code m (m.resetAllDevicesAndProxies s₀) m.tableDevices o := by
  obtain ⟨-, -, marks⟩ := reset_spec (m := m) s₀
  rw [one.needs_iff, marks, InputManager.InTables]
  refine and_congr_left fun away => ?_
  have apart : o ∉ m.tableDevices := by
    intro device
    exact away (updatedFrom_of_mem device ((marks o).mpr (.inl (.inl device))))
  simp [apart]

include one in
/-- Every object of the tables is updated in one of the two rounds. -/
theorem updated_in_tables (rewrite : δ → D → D) {o : InputObject δ π} (member : m.InTables o) :
    UpdatedFrom code m (m.resetAllDevicesAndProxies s₀) m.tableDevices o ∨
      UpdatedFrom code m (s₁.rewritten rewrite) m.tableProxies o := by
  obtain ⟨-, -, marks⟩ := reset_spec (m := m) s₀
  rcases member with device | proxy
  · exact .inl (updatedFrom_of_mem device ((marks o).mpr (.inl (.inl device))))
  · by_cases first : UpdatedFrom code m (m.resetAllDevicesAndProxies s₀) m.tableDevices o
    · exact .inl first
    · exact .inr (updatedFrom_of_mem proxy ((needs_after_devices one o).mpr ⟨.inl proxy, first⟩))

include one in
/-- What the devices have updated is not updated again. -/
theorem not_updated_again (rewrite : δ → D → D) {o : InputObject δ π}
    (first : UpdatedFrom code m (m.resetAllDevicesAndProxies s₀) m.tableDevices o) :
    ¬ UpdatedFrom code m (s₁.rewritten rewrite) m.tableProxies o := by
  intro second
  have needed : s₁.mNeedUpdate o = true := needed_of_updatedFrom second
  exact ((needs_after_devices one o).mp needed).2 first

include one two in
theorem once_in_tables {o : InputObject δ π} (member : m.InTables o) :
    s.mNeedUpdate o = false ∧ s.updates.count o = s₀.updates.count o + 1 := by
  obtain ⟨-, updates, -⟩ := reset_spec (m := m) s₀
  rcases updated_in_tables one rewrite member with first | second
  · have again := not_updated_again one rewrite first
    constructor
    · rw [← Bool.not_eq_true, two.needs_iff]
      rintro ⟨needed, -⟩
      exact ((needs_after_devices one o).mp needed).2 first
    · rw [two.others again, ← updates]
      exact one.once first
  · have before : ¬ UpdatedFrom code m (m.resetAllDevicesAndProxies s₀) m.tableDevices o :=
      fun first => not_updated_again one rewrite first second
    constructor
    · rw [← Bool.not_eq_true, two.needs_iff]
      exact fun needed => needed.2 second
    · rw [two.once second, ← updates]
      exact congrArg (· + 1) (one.others before)

include one two in
theorem untouched_outside {o : InputObject δ π} (outside : ¬ m.InTables o)
    (settled : s₀.mNeedUpdate o = false) :
    s.mNeedUpdate o = false ∧ s.updates.count o = s₀.updates.count o ∧
      s.data o = (s₁.rewritten rewrite).data o ∧ s₁.data o = s₀.data o := by
  obtain ⟨data, updates, marks⟩ := reset_spec (m := m) s₀
  have unmarked : (m.resetAllDevicesAndProxies s₀).mNeedUpdate o = false := by
    rw [← Bool.not_eq_true, marks]
    simp [outside, settled]
  have first : ¬ UpdatedFrom code m (m.resetAllDevicesAndProxies s₀) m.tableDevices o :=
    Updates.not_reached_of_unmarked unmarked
  have unneeded : s₁.mNeedUpdate o = false := by
    rw [← Bool.not_eq_true, one.needs_iff]
    simp [unmarked]
  have second : ¬ UpdatedFrom code m (s₁.rewritten rewrite) m.tableProxies o :=
    Updates.not_reached_of_unmarked unneeded
  refine ⟨?_, ?_, two.kept second, ?_⟩
  · rw [← Bool.not_eq_true, two.needs_iff]
    exact fun needed => Bool.false_ne_true (unneeded.symm.trans needed.1)
  · rw [two.others second, ← updates]
    exact one.others first
  · rw [one.kept first, data]

omit one two in
theorem device_first (code : InputCode δ π D V) (s₀ : InputState δ π D V) {d : δ}
    (member : m.InTables (.device d)) :
    UpdatedFrom code m (m.resetAllDevicesAndProxies s₀) m.tableDevices (.device d) := by
  obtain ⟨-, -, marks⟩ := reset_spec (m := m) s₀
  have listed : .device d ∈ m.tableDevices := by
    refine member.resolve_right fun proxy => ?_
    simp [InputManager.tableProxies] at proxy
  exact updatedFrom_of_mem listed ((marks _).mpr (.inl member))

include one two in
/-- What is read in the first round is not updated in the second. -/
theorem proxy_read_by_device {d : δ} {p : π} (member : m.InTables (.device d))
    (reading : .proxy p ∈ reads code m (.device d)) : s.proxies p = s₁.proxies p := by
  have first := device_first code s₀ member
  have settled : s₁.mNeedUpdate (.proxy p) = false := one.unneeded_reads first reading
  exact proxy_of_data (two.kept (Updates.not_reached_of_unmarked settled))

include one two in
/-- A device of the table has the data of the first round, rewritten. -/
theorem device_rewritten {d : δ} (member : m.InTables (.device d)) :
    s.devices d = rewrite d (s₁.devices d) :=
  device_of_data (two.kept (not_updated_again one rewrite (device_first code s₀ member)))

include one two in
theorem swapped_data {d : δ} {swapped : D → D} (member : m.InTables (.device d))
    (does : code.updateData d = .swapBuffers swapped) :
    s.devices d = rewrite d (swapped (s₀.devices d)) := by
  obtain ⟨data, -, -⟩ := reset_spec (m := m) s₀
  obtain ⟨_, _, -, own⟩ := one.computed (device_first code s₀ member)
  rw [device_rewritten one two member]
  simp only [compute, does, data] at own
  exact congrArg (rewrite d) (Sum.inl.inj own)

include one two in
theorem keyed_data {d : δ} {mKeyboardMouse : π} {pressed : D → Option D → D}
    (member : m.InTables (.device d)) (does : code.updateData d = .keyed mKeyboardMouse pressed) :
    ∃ earlier later, s₁.updates = s₀.updates ++ earlier ++ .device d :: later ∧
      s.devices d = rewrite d (pressed (s₀.devices d)
        ((m.proxies mKeyboardMouse).getProxiedInputDevice.map fun k =>
          if .device k ∈ earlier then s₁.devices k else s₀.devices k)) := by
  obtain ⟨data, updates, -⟩ := reset_spec (m := m) s₀
  obtain ⟨earlier, later, log, own⟩ := one.computed (device_first code s₀ member)
  refine ⟨earlier, later, by rw [log, updates], ?_⟩
  rw [device_rewritten one two member]
  refine congrArg (rewrite d) (Sum.inl.inj (own.trans ?_))
  simp only [compute, does, data]
  cases keyboard : (m.proxies mKeyboardMouse).getProxiedInputDevice with
  | none => rfl
  | some k =>
    by_cases before : .device k ∈ earlier
    · simp [before, InputState.data]
    · simp [before, InputState.data]

include one two in
theorem relative_data {d : δ} {mBaseFrame mRelativePos : π} (member : m.InTables (.device d))
    (does : code.updateData d = .relative mBaseFrame mRelativePos)
    (straight : ¬ WaitsForItself code m (.device d)) :
    s.devices d = rewrite d (code.mult (s.proxies mBaseFrame) (s.proxies mRelativePos)) := by
  have own := one.fresh (device_first code s₀ member) straight (by simp [peeks, does])
  have base := proxy_read_by_device (p := mBaseFrame) one two member (by simp [reads, does])
  have relative := proxy_read_by_device (p := mRelativePos) one two member (by simp [reads, does])
  rw [device_rewritten one two member, base, relative]
  simp only [compute, does] at own
  exact congrArg (rewrite d) (Sum.inl.inj own)

include one two in
theorem proxy_data {p : π} {d : δ} (member : m.InTables (.proxy p))
    (straight : ¬ WaitsForItself code m (.proxy p))
    (device : (m.proxies p).getProxiedInputDevice = some d) (takes : code.overrides p = true) :
    (UpdatedFrom code m (m.resetAllDevicesAndProxies s₀) m.tableDevices (.proxy p) →
      s.proxies p = code.take p (s₀.proxies p) (s₁.devices d)) ∧
    (¬ UpdatedFrom code m (m.resetAllDevicesAndProxies s₀) m.tableDevices (.proxy p) →
      s.proxies p = code.take p (s₀.proxies p) (s.devices d)) := by
  obtain ⟨data, -, -⟩ := reset_spec (m := m) s₀
  constructor
  · -- updated with a device that reads it
    intro first
    have own := one.fresh first straight rfl
    simp only [compute, device, takes, data] at own
    rw [proxy_of_data (two.kept (not_updated_again one rewrite first))]
    exact Sum.inr.inj own
  · intro away
    have second := (updated_in_tables one rewrite member).resolve_left away
    have own := two.fresh second straight rfl
    have before : s₁.proxies p = s₀.proxies p :=
      proxy_of_data ((one.kept away).trans (congrFun data _))
    simp only [compute, device, takes] at own
    rw [← before]
    exact Sum.inr.inj own

end Phases

/-- A frame ends, in two rounds of updates. -/
theorem frame_rounds (code : InputCode δ π D V) (m : InputManager δ τ π) (rewrite : δ → D → D)
    (s₀ : InputState δ π D V) {pending : Finset (InputObject δ π)}
    (covers : ∀ o, s₀.mNeedUpdate o = true → o ∈ pending) :
    ∃ s₁ s,
      Returns (fun depth => m.updateAllDevices code depth (m.resetAllDevicesAndProxies s₀)) s₁ ∧
      Returns (fun depth => m.frame code rewrite depth s₀) s ∧
      Asked code m (m.resetAllDevicesAndProxies s₀) m.tableDevices s₁ ∧
      Asked code m (s₁.rewritten rewrite) m.tableProxies s := by
  obtain ⟨-, -, marks⟩ := reset_spec (m := m) s₀
  let all := pending ∪ m.tableDevices.toFinset ∪ m.tableProxies.toFinset
  have inAll (o : InputObject δ π)
      (needed : (m.resetAllDevicesAndProxies s₀).mNeedUpdate o = true) : o ∈ all := by
    rcases (marks o).mp needed with (device | proxy) | before
    · simp [all, device]
    · simp [all, proxy]
    · simp [all, covers o before]
  obtain ⟨s₁, ends₁, one⟩ := returns_asked code m _ m.tableDevices inAll
  obtain ⟨s, ends₂, two⟩ := returns_asked code m (s₁.rewritten rewrite)
    m.tableProxies fun o needed => inAll o ((one.needs_iff o).mp needed).1
  exact ⟨s₁, s, ends₁, ends₁.bind ends₂, one, two⟩

/-- A tracker, and a device at the product of what two proxies make of the tracker. -/
def wristCode : InputCode Bool Bool Nat Nat where
  updateData d := if d then .relative false true else .swapBuffers (· + 1)
  mult := (· * ·)
  overrides _ := true
  take p _ now := if p then now else 10 * now

def wristManager : InputManager Bool Unit Bool where
  mDevTable := (SortedMap.empty.insert "tracker" (some false)).insert "hand" (some true)
  mProxyTable := (SortedMap.empty.insert "wrist" true).insert "base" false
  proxies _ := { mName := "", mDeviceName := "tracker", devType := (), mTypedDevice := some false,
                 mStupefied := false }

def wristData : InputState Bool Bool Nat Nat where
  mNeedUpdate _ := false
  devices _ := 1
  proxies _ := 0

/-- A simulated device in its place in the table, when no device in front of it has it updated, uses
the keys of this frame just if the devices in front of it have the keyboard updated, and otherwise
the keys of the last frame. -/
theorem keyed_in_turn (code : InputCode δ π D V) (m : InputManager δ τ π) (rewrite : δ → D → D)
    (s₀ : InputState δ π D V) {pending : Finset (InputObject δ π)}
    (covers : ∀ o, s₀.mNeedUpdate o = true → o ∈ pending) {front back : List (InputObject δ π)}
    {d k : δ} {mKeyboardMouse : π} {pressed : D → Option D → D}
    (table : m.tableDevices = front ++ .device d :: back)
    (apart : ¬ UpdatedFrom code m (m.resetAllDevicesAndProxies s₀) front (.device d))
    (does : code.updateData d = .keyed mKeyboardMouse pressed)
    (keyboard : (m.proxies mKeyboardMouse).getProxiedInputDevice = some k) :
    ∃ s₁ s,
      Returns (fun depth => m.updateAllDevices code depth (m.resetAllDevicesAndProxies s₀)) s₁ ∧
      Returns (fun depth => m.frame code rewrite depth s₀) s ∧
      (UpdatedFrom code m (m.resetAllDevicesAndProxies s₀) front (.device k) →
        s.devices d = rewrite d (pressed (s₀.devices d) (some (s₁.devices k)))) ∧
      (¬ UpdatedFrom code m (m.resetAllDevicesAndProxies s₀) front (.device k) →
        s.devices d = rewrite d (pressed (s₀.devices d) (some (s₀.devices k)))) := by
  obtain ⟨data, -, marks⟩ := reset_spec (m := m) s₀
  obtain ⟨s₁, s, ends₁, ends, one, two⟩ := frame_rounds code m rewrite s₀ covers
  refine ⟨s₁, s, ends₁, ends, ?_⟩
  have member : m.InTables (.device d) := .inl (by simp [table])
  obtain ⟨depth, folded⟩ := ends₁.exists_some
  rw [InputManager.updateAllDevices, table] at folded
  obtain ⟨t, visited, shows⟩ := hasMarks_of_fold folded
  have none' : (m.resetAllDevicesAndProxies s₀).marks.done = [] := rfl
  have updated := Updates.updated_visitAll none' visited
  obtain ⟨earlier, later, parts, iff⟩ := Updates.done_in_turn none' visited
    ((marks _).mpr (.inl member)) apart (by simp [reads, does])
  have own := updated.computed earlier (.device d) later parts
  rw [shows.device] at own
  rw [device_rewritten one two member]
  have seen : (InputObject.device k) ∈ earlier ↔
    UpdatedFrom code m (m.resetAllDevicesAndProxies s₀) front (.device k) := iff _
  rw [← seen]
  have start : (m.resetAllDevicesAndProxies s₀).marks.data = s₀.data := data
  simp only [compute_inputUpdates, compute, does, keyboard, start, Option.bind_some] at own
  constructor
  · intro before
    rw [Updates.seen, if_pos before, shows.device] at own
    exact congrArg (rewrite d) (Sum.inl.inj own)
  · intro after
    rw [Updates.seen, if_neg after, start] at own
    exact congrArg (rewrite d) (Sum.inl.inj own)

def buttonsCode : InputCode Bool Unit Nat Nat where
  updateData d := if d then .keyed () (fun _ keys => keys.getD 0) else .swapBuffers (· + 1)
  mult := (· * ·)
  overrides _ := false
  take _ own _ := own

def buttonsManager : InputManager Bool Unit Unit where
  mDevTable := (SortedMap.empty.insert "keyboard" (some false)).insert "buttons" (some true)
  mProxyTable := .empty
  proxies _ := { mName := "", mDeviceName := "keyboard", devType := (), mTypedDevice := some false,
                 mStupefied := false }

/-- The buttons stand before the keyboard, and miss the key that was pressed. -/
theorem keyed_in_turn_buttons :
    let s₀ : InputState Bool Unit Nat Nat := ⟨fun _ => false, fun _ => 1, fun _ => 0, []⟩
    ∃ s, Returns (fun depth => buttonsManager.frame buttonsCode (fun _ data => data) depth s₀) s ∧
      s.devices true = 1 := by
  intro s₀
  have settled : ∀ o, s₀.mNeedUpdate o = true → o ∈ (∅ : Finset (InputObject Bool Unit)) :=
    fun o needed => by simp [s₀] at needed
  have table : buttonsManager.tableDevices = [] ++ .device true :: [.device false] := by
    decide +kernel
  have apart (o : InputObject Bool Unit) : ¬ UpdatedFrom buttonsCode buttonsManager
      (buttonsManager.resetAllDevicesAndProxies s₀) [] o := by
    rintro ⟨n, member, -⟩
    exact absurd member List.not_mem_nil
  obtain ⟨_, s, -, ends, -, missed⟩ := keyed_in_turn buttonsCode buttonsManager
    (fun _ data => data) s₀ settled table (apart _) rfl rfl
  exact ⟨s, ends, missed (apart _)⟩

/-! ## The order of the tables -/

/-- The same objects under other names. -/
def InputManager.renamed (m : InputManager δ τ π) (mDevTable : SortedMap String (Option δ))
    (mProxyTable : SortedMap String π) : InputManager δ τ π :=
  { m with mDevTable, mProxyTable }

/-- Neither the object nor one that it comes to updates itself in a circle or looks at keys. -/
def Settles (code : InputCode δ π D V) (m : InputManager δ τ π) (o : InputObject δ π) : Prop :=
  ∀ o', Relation.ReflTransGen (fun a b => b ∈ reads code m a) o o' →
    ¬ WaitsForItself code m o' ∧ peeks code m o' = []

/-- The tables are gone through in the order of the names, and the data of a frame do not depend on
it, circles and the devices that look at keys apart. -/
theorem frame_order (code : InputCode δ π D V) (m : InputManager δ τ π) (rewrite : δ → D → D)
    (s₀ : InputState δ π D V) {pending : Finset (InputObject δ π)}
    (covers : ∀ o, s₀.mNeedUpdate o = true → o ∈ pending)
    (mDevTable : SortedMap String (Option δ)) (mProxyTable : SortedMap String π)
    (devices : ∀ o, o ∈ m.tableDevices ↔ o ∈ (m.renamed mDevTable mProxyTable).tableDevices)
    (proxies : ∀ o, o ∈ m.tableProxies ↔ o ∈ (m.renamed mDevTable mProxyTable).tableProxies) :
    ∃ s s', Returns (fun depth => m.frame code rewrite depth s₀) s ∧
      Returns (fun depth => (m.renamed mDevTable mProxyTable).frame code rewrite depth s₀) s' ∧
      ∀ o, Settles code m o → s.data o = s'.data o := by
  let m' := m.renamed mDevTable mProxyTable
  obtain ⟨data, -, marks⟩ := reset_spec (m := m) s₀
  obtain ⟨data', -, marks'⟩ := reset_spec (m := m') s₀
  obtain ⟨s₁, s, -, ends, one, two⟩ := frame_rounds code m rewrite s₀ covers
  obtain ⟨s₁', s', -, ends', one', two'⟩ := frame_rounds code m' rewrite s₀ covers
  refine ⟨s, s', ends, ends', fun o straight => ?_⟩
  -- the same objects are to be updated, first and after the devices
  have begun : (m.resetAllDevicesAndProxies s₀).mNeedUpdate =
      (m'.resetAllDevicesAndProxies s₀).mNeedUpdate := by
    funext o
    rw [Bool.eq_iff_iff, marks, marks', InputManager.InTables, InputManager.InTables, devices,
      proxies]
  have left : s₁.mNeedUpdate = s₁'.mNeedUpdate := by
    funext o
    rw [Bool.eq_iff_iff, one.needs_iff, one'.needs_iff, begun]
    exact and_congr_right fun _ => not_congr (Updates.reached_congr begun devices o)
  have ⟨_, _, updated₁⟩ := one
  have ⟨_, _, updated₁'⟩ := one'
  have ⟨_, _, updated₂⟩ := two
  have ⟨_, _, updated₂'⟩ := two'
  let all := pending ∪ m.tableDevices.toFinset ∪ m.tableProxies.toFinset
  have inAll (o : InputObject δ π)
      (needed : (m.resetAllDevicesAndProxies s₀).mNeedUpdate o = true) : o ∈ all.toList := by
    rw [Finset.mem_toList]
    rcases (marks o).mp needed with (device | proxy) | before
    · simp [all, device]
    · simp [all, proxy]
    · simp [all, covers o before]
  have first (o' : InputObject δ π) (way : Relation.ReflTransGen (inputUpdates code m).Reads o o') :
      s₁.data o' = s₁'.data o' := by
    refine Updates.Updated.agree updated₁ updated₁' devices all.toList inAll begun
      (fun r _ => congrFun (data.trans data'.symm) r) fun r more => straight r (way.trans more)
  have rewritten (o' : InputObject δ π)
      (way : Relation.ReflTransGen (inputUpdates code m).Reads o o') :
      (s₁.rewritten rewrite).data o' = (s₁'.rewritten rewrite).data o' := by
    have same := first o' way
    cases o' with
    | device d => exact congrArg (Sum.map (rewrite d) id) same
    | proxy p => exact same
  exact Updates.Updated.agree updated₂ updated₂' proxies all.toList
    (fun o needed => inAll o ((one.needs_iff o).mp needed).1) left rewritten straight

/-- The same with the tracker in front of the device that depends on it. -/
theorem frame_order_wrist :
    let mDevTable := (SortedMap.empty.insert "hand" (some false)).insert "tracker" (some true)
    ∃ s s',
      Returns (fun depth => wristManager.frame wristCode (fun _ data => data) depth wristData) s ∧
      Returns (fun depth => (wristManager.renamed mDevTable wristManager.mProxyTable).frame
        wristCode (fun _ data => data) depth wristData) s' ∧
      ∀ o, Settles wristCode wristManager o → s.data o = s'.data o := by
  intro mDevTable
  have settled : ∀ o, wristData.mNeedUpdate o = true → o ∈ (∅ : Finset (InputObject Bool Bool)) :=
    fun o needed => by simp [wristData] at needed
  have devices : wristManager.tableDevices = [.device true, .device false] := by decide +kernel
  have renamed : (wristManager.renamed mDevTable wristManager.mProxyTable).tableDevices =
      [.device false, .device true] := by decide +kernel
  refine frame_order wristCode wristManager (fun _ data => data) wristData settled mDevTable
    wristManager.mProxyTable (fun o => ?_) fun o => Iff.rfl
  rw [devices, renamed]
  simp [or_comm]

/-! ## Many frames -/

instance (m : InputManager δ τ π) (o : InputObject δ π) : Decidable (m.InTables o) :=
  inferInstanceAs (Decidable (_ ∨ _))

/-- What a frame meets: the tables and the code of the objects may change from frame to frame. -/
structure FrameInput (δ τ π D V : Type) where
  code : InputCode δ π D V
  manager : InputManager δ τ π
  rewrite : δ → D → D

def frames (depth : Nat) (s : InputState δ π D V) (inputs : List (FrameInput δ τ π D V)) :
    Option (InputState δ π D V) :=
  inputs.foldlM (fun s i => i.manager.frame i.code i.rewrite depth s) s

end VRJuggler.Gadget
