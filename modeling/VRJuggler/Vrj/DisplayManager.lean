import Mathlib.Data.Int.Basic
import Mathlib.Data.List.Induction
import Mathlib.Data.List.Nodup
import Mathlib.Data.String.Basic
import Mathlib.Logic.Function.Basic
import VRJuggler.Base.Run

/-!
# The display manager

The displays of a configuration are kept in two lists, and the draw manager is told of the active
ones. A draw manager may come, go and be replaced by a new one at any time. Of a draw manager only
the calls that it gets are kept, and of a display what the manager asks it for.
-/
namespace VRJuggler.Vrj

/-- A configuration element: its type, its name and the property `active`. -/
structure Element where
  getID : String
  getName : String
  active : Bool

/-- A display that has been configured. Pointers to displays are compared by `object`. -/
structure Display where
  object : Nat
  mName : String
  mActive : Bool
  deriving DecidableEq

inductive DrawCall where
  | addDisplay (disp : Display)
  | removeDisplay (disp : Display)
  deriving DecidableEq

/-- The calls that the draw manager got so far. -/
structure DrawManager where
  calls : List DrawCall := []

/-- `created`: the number of displays that were ever created. -/
structure DisplayManager where
  mActiveDisplays : List Display := []
  mInactiveDisplays : List Display := []
  mDrawManager : Option DrawManager := none
  mDisplaySystemElement : Option Element := none
  created : Nat := 0

namespace DrawManager

def addDisplay (drawMgr : DrawManager) (disp : Display) : DrawManager :=
  { calls := drawMgr.calls ++ [.addDisplay disp] }

def removeDisplay (drawMgr : DrawManager) (disp : Display) : DrawManager :=
  { calls := drawMgr.calls ++ [.removeDisplay disp] }

/-- How often it has been told of a display and not been told to remove it. -/
def told (drawMgr : DrawManager) (disp : Display) : Int :=
  drawMgr.calls.count (.addDisplay disp) - drawMgr.calls.count (.removeDisplay disp)

end DrawManager

namespace DisplayManager

variable (m : DisplayManager)

def setDrawManager (drawMgr : Option DrawManager) : DisplayManager :=
  { m with
    -- a new draw manager is told of the active displays; the old one is told nothing
    mDrawManager := drawMgr.map fun mgr => m.mActiveDisplays.foldl DrawManager.addDisplay mgr }

/-- The draw manager is notified of a display by `tell`. -/
def notify (notifyDrawMgr : Bool) (tell : DrawManager → Display → DrawManager)
    (disp : Display) : Option DrawManager :=
  match m.mDrawManager with
  | none => none
  -- an inactive display is never mentioned to it
  | some mgr => some (if notifyDrawMgr ∧ disp.mActive then tell mgr disp else mgr)

def addDisplay (disp : Display) (notifyDrawMgr : Bool) : DisplayManager :=
  let mDrawManager := m.notify notifyDrawMgr .addDisplay disp
  if disp.mActive then
    { m with mActiveDisplays := m.mActiveDisplays ++ [disp], mDrawManager }
  else { m with mInactiveDisplays := m.mInactiveDisplays ++ [disp], mDrawManager }

/-- That the display is known is only asserted. -/
def closeDisplay (disp : Display) (notifyDrawMgr : Bool) : DisplayManager :=
  { m with
    mDrawManager := m.notify notifyDrawMgr .removeDisplay disp
    mActiveDisplays := m.mActiveDisplays.filter (· ≠ disp)
    mInactiveDisplays := m.mInactiveDisplays.filter (· ≠ disp) }

def findDisplayNamed (name : String) : Option Display :=
  match m.mActiveDisplays.find? fun disp => disp.mName = name with
  | some disp => some disp
  | none => m.mInactiveDisplays.find? fun disp => disp.mName = name

/-- `Display::create` and `config`. -/
def createDisplay (element : Element) : Display :=
  { object := m.created, mName := element.getName, mActive := element.active }

def configAddDisplay (element : Element) : DisplayManager × Bool :=
  -- a display of this name is closed before the new one is opened
  let closed :=
    match m.findDisplayNamed element.getName with
    | some cur_disp => m.closeDisplay cur_disp true
    | none => m
  if element.getID = "display_window" then
    ({ closed with created := closed.created + 1 }.addDisplay (closed.createDisplay element) true,
      true)
  else (closed, true)

def configRemoveDisplay (element : Element) : DisplayManager × Bool :=
  if element.getID = "display_window" then
    match m.findDisplayNamed element.getName with
    | some remove_disp => (m.closeDisplay remove_disp true, true)
    | none => (m, false)
  else (m, false)

def configAdd (element : Element) : DisplayManager × Bool :=
  if element.getID = "surfaceDisplay" ∨ element.getID = "simDisplay" then (m, false)
  else if element.getID = "display_window" then m.configAddDisplay element
  else if element.getID = "display_system" then
    ({ m with mDisplaySystemElement := some element }, true)
  else (m, false)

def configRemove (element : Element) : DisplayManager × Bool :=
  if element.getID = "surfaceDisplay" ∨ element.getID = "simDisplay" then (m, false)
  else if element.getID = "display_window" then m.configRemoveDisplay element
  else if element.getID = "display_system" then ({ m with mDisplaySystemElement := none }, true)
  else (m, false)

/-- All displays of the manager. -/
def displays : List Display := m.mActiveDisplays ++ m.mInactiveDisplays

end DisplayManager

/-- A call; the draw manager that is installed is a new one. -/
inductive ManagerCall where
  | configAdd (element : Element)
  | configRemove (element : Element)
  | newDrawManager
  | noDrawManager

def DisplayManager.call (m : DisplayManager) : ManagerCall → DisplayManager
  | .configAdd element => (m.configAdd element).1
  | .configRemove element => (m.configRemove element).1
  | .newDrawManager => m.setDrawManager (some {})
  | .noDrawManager => m.setDrawManager none

/-- The manager after the calls. -/
def DisplayManager.run (calls : List ManagerCall) : DisplayManager :=
  calls.foldl DisplayManager.call {}

/-! ## What the manager should hold -/

/-- The `active` flags of the displays that were added last and not removed, by name. -/
def registerCall (flags : String → Option Bool) : ManagerCall → String → Option Bool
  | .configAdd element =>
    if element.getID = "display_window" then
      Function.update flags element.getName (some element.active)
    else flags
  | .configRemove element =>
    if element.getID = "display_window" then Function.update flags element.getName none
    else flags
  | .newDrawManager => flags
  | .noDrawManager => flags

def registered (calls : List ManagerCall) : String → Option Bool :=
  calls.foldl registerCall fun _ => none

/-- The lists and the draw manager agree with the flags. -/
structure Holds (flags : String → Option Bool) (m : DisplayManager) : Prop where
  names : (m.displays.map Display.mName).Nodup
  flagged : ∀ name active, (∃ disp ∈ m.displays, disp.mName = name ∧ disp.mActive = active) ↔
    flags name = some active
  active : ∀ disp ∈ m.mActiveDisplays, disp.mActive = true
  inactive : ∀ disp ∈ m.mInactiveDisplays, disp.mActive = false
  told : ∀ mgr, m.mDrawManager = some mgr → ∀ disp,
    mgr.told disp = if disp ∈ m.mActiveDisplays then 1 else 0

/-! ## The draw manager -/

theorem told_addDisplay (mgr : DrawManager) (added disp : Display) :
    (mgr.addDisplay added).told disp = mgr.told disp + if disp = added then 1 else 0 := by
  by_cases same : disp = added
  · subst same
    simp only [DrawManager.told, DrawManager.addDisplay, List.count_append]
    simp
    omega
  · have apart : ¬ added = disp := fun equal => same equal.symm
    simp [DrawManager.told, DrawManager.addDisplay, same, apart]

theorem told_removeDisplay (mgr : DrawManager) (removed disp : Display) :
    (mgr.removeDisplay removed).told disp = mgr.told disp - if disp = removed then 1 else 0 := by
  by_cases same : disp = removed
  · subst same
    simp only [DrawManager.told, DrawManager.removeDisplay, List.count_append]
    simp
    omega
  · have apart : ¬ removed = disp := fun equal => same equal.symm
    simp [DrawManager.told, DrawManager.removeDisplay, same, apart]

/-- A new draw manager is told of each display once. -/
theorem told_foldl {disps : List Display} (nodup : disps.Nodup) (mgr : DrawManager)
    (disp : Display) :
    (disps.foldl DrawManager.addDisplay mgr).told disp =
      mgr.told disp + if disp ∈ disps then 1 else 0 := by
  induction disps generalizing mgr with
  | nil => simp
  | cons first disps ih =>
    obtain ⟨fresh, nodup⟩ := List.nodup_cons.mp nodup
    rw [List.foldl_cons, ih nodup, told_addDisplay, Int.add_assoc]
    by_cases same : disp = first
    · subst same
      simp [fresh]
    · simp [same]

/-! ## One call -/

variable {m : DisplayManager} {flags : String → Option Bool}

theorem find_some {name : String} {disp : Display}
    (found : m.findDisplayNamed name = some disp) : disp ∈ m.displays ∧ disp.mName = name := by
  unfold DisplayManager.findDisplayNamed at found
  cases here : m.mActiveDisplays.find? fun disp => disp.mName = name with
  | some other =>
    rw [here] at found
    obtain rfl := Option.some.inj found
    exact ⟨List.mem_append_left _ (List.mem_of_find?_eq_some here),
      by simpa using List.find?_some here⟩
  | none =>
    rw [here] at found
    exact ⟨List.mem_append_right _ (List.mem_of_find?_eq_some found),
      by simpa using List.find?_some found⟩

theorem find_none {name : String} (missing : m.findDisplayNamed name = none) :
    ∀ disp ∈ m.displays, disp.mName ≠ name := by
  unfold DisplayManager.findDisplayNamed at missing
  cases here : m.mActiveDisplays.find? fun disp => disp.mName = name with
  | some other =>
    rw [here] at missing
    cases missing
  | none =>
    rw [here] at missing
    intro disp member
    rcases List.mem_append.mp member with active | inactive
    · simpa using List.find?_eq_none.mp here disp active
    · simpa using List.find?_eq_none.mp missing disp inactive

/-- Displays with one name are the same display. -/
theorem Holds.same_of_name (holds : Holds flags m) {disp other : Display}
    (known : disp ∈ m.displays) (also : other ∈ m.displays) (equal : disp.mName = other.mName) :
    disp = other :=
  List.inj_on_of_nodup_map holds.names known also equal

/-- A display is in the list that its flag says. -/
theorem Holds.mem_active_iff (holds : Holds flags m) {disp : Display} (known : disp ∈ m.displays) :
    disp ∈ m.mActiveDisplays ↔ disp.mActive = true := by
  constructor
  · exact holds.active disp
  · intro active
    rcases List.mem_append.mp known with here | other
    · exact here
    · have inactive := holds.inactive disp other
      rw [active] at inactive
      cases inactive

theorem Holds.setDrawManager (holds : Holds flags m) (fresh : Option DrawManager)
    (untold : ∀ mgr, fresh = some mgr → ∀ disp, mgr.told disp = 0) :
    Holds flags (m.setDrawManager fresh) := by
  -- each active display is told once, as no name is there twice
  have nodup : m.mActiveDisplays.Nodup :=
    (List.nodup_append.mp (List.Nodup.of_map _ holds.names)).1
  refine ⟨holds.names, holds.flagged, holds.active, holds.inactive, ?_⟩
  intro mgr installed disp
  cases fresh with
  | none => cases installed
  | some new =>
    obtain rfl := Option.some.inj installed
    rw [told_foldl nodup, untold new rfl, Int.zero_add]
    rfl

theorem displays_closeDisplay (disp : Display) (notifyDrawMgr : Bool) :
    (m.closeDisplay disp notifyDrawMgr).displays = m.displays.filter (· ≠ disp) :=
  (List.filter_append _ _).symm

theorem mem_closeDisplay (disp other : Display) (notifyDrawMgr : Bool) :
    other ∈ (m.closeDisplay disp notifyDrawMgr).displays ↔ other ∈ m.displays ∧ other ≠ disp := by
  rw [displays_closeDisplay, List.mem_filter, decide_eq_true_iff]

theorem mem_active_closeDisplay (disp other : Display) (notifyDrawMgr : Bool) :
    other ∈ (m.closeDisplay disp notifyDrawMgr).mActiveDisplays ↔
      other ∈ m.mActiveDisplays ∧ other ≠ disp := by
  rw [DisplayManager.closeDisplay, List.mem_filter, decide_eq_true_iff]

/-- Closing a display removes its name. -/
theorem Holds.closeDisplay (holds : Holds flags m) {disp : Display} (known : disp ∈ m.displays) :
    Holds (Function.update flags disp.mName none) (m.closeDisplay disp true) := by
  refine ⟨?_, ?_, ?_, ?_, ?_⟩
  · rw [displays_closeDisplay]
    exact holds.names.sublist (List.filter_sublist.map _)
  · intro name active
    by_cases same : name = disp.mName
    · -- no other display has the name
      subst same
      rw [Function.update_self]
      constructor
      · rintro ⟨other, member, equal, -⟩
        obtain ⟨member, apart⟩ := (mem_closeDisplay disp other true).mp member
        exact absurd (holds.same_of_name member known equal) apart
      · intro flag
        cases flag
    · rw [Function.update_of_ne same, ← holds.flagged name active]
      constructor
      · rintro ⟨other, member, rest⟩
        exact ⟨other, ((mem_closeDisplay disp other true).mp member).1, rest⟩
      · rintro ⟨other, member, equal, flag⟩
        have apart : other ≠ disp := by
          rintro rfl
          exact same equal.symm
        exact ⟨other, (mem_closeDisplay disp other true).mpr ⟨member, apart⟩, equal, flag⟩
  · intro other member
    exact holds.active other (List.mem_filter.mp member).1
  · intro other member
    exact holds.inactive other (List.mem_filter.mp member).1
  · intro mgr installed other
    have left := mem_active_closeDisplay (m := m) disp other true
    cases old : m.mDrawManager with
    | none => simp [DisplayManager.closeDisplay, DisplayManager.notify, old] at installed
    | some before =>
      have told := holds.told before old other
      simp only [DisplayManager.closeDisplay, DisplayManager.notify, old, true_and,
        Option.some.injEq] at installed
      subst installed
      by_cases active : disp.mActive = true
      · -- the draw manager knows an active display and is told to remove it
        have here : disp ∈ m.mActiveDisplays := (holds.mem_active_iff known).mpr active
        rw [if_pos active, told_removeDisplay, told]
        by_cases equal : other = disp
        · subst equal
          simp [left, here]
        · simp [left, equal]
      · -- it does not know an inactive one
        have gone : disp ∉ m.mActiveDisplays := fun here =>
          active ((holds.mem_active_iff known).mp here)
        rw [if_neg active, told]
        by_cases equal : other = disp
        · subst equal
          simp [left, gone]
        · simp [left, equal]

/-- The display is added to one of the two lists. -/
theorem displays_addDisplay (disp : Display) (notifyDrawMgr : Bool) :
    (m.addDisplay disp notifyDrawMgr).displays.Perm (disp :: m.displays) := by
  unfold DisplayManager.addDisplay DisplayManager.displays
  split
  · simp
  · rw [← List.append_assoc]
    exact List.perm_append_singleton disp _

theorem mem_addDisplay (disp other : Display) (notifyDrawMgr : Bool) :
    other ∈ (m.addDisplay disp notifyDrawMgr).displays ↔ other ∈ m.displays ∨ other = disp := by
  rw [(displays_addDisplay disp notifyDrawMgr).mem_iff, List.mem_cons, or_comm]

theorem mem_active_addDisplay (disp other : Display) (notifyDrawMgr : Bool) :
    other ∈ (m.addDisplay disp notifyDrawMgr).mActiveDisplays ↔
      other ∈ m.mActiveDisplays ∨ other = disp ∧ disp.mActive = true := by
  unfold DisplayManager.addDisplay
  split
  next active => simp [active]
  next inactive => simp [inactive]

theorem mem_inactive_addDisplay (disp other : Display) (notifyDrawMgr : Bool) :
    other ∈ (m.addDisplay disp notifyDrawMgr).mInactiveDisplays ↔
      other ∈ m.mInactiveDisplays ∨ other = disp ∧ disp.mActive = false := by
  unfold DisplayManager.addDisplay
  split
  next active => simp [active]
  next inactive => simp [inactive]

theorem mDrawManager_addDisplay (disp : Display) (notifyDrawMgr : Bool) :
    (m.addDisplay disp notifyDrawMgr).mDrawManager = m.notify notifyDrawMgr .addDisplay disp := by
  unfold DisplayManager.addDisplay
  split <;> rfl

/-- Adding a display whose name is not in use adds its name. -/
theorem Holds.addDisplay (holds : Holds flags m) (disp : Display)
    (unused : ∀ other ∈ m.displays, other.mName ≠ disp.mName) :
    Holds (Function.update flags disp.mName (some disp.mActive)) (m.addDisplay disp true) := by
  -- a display that is added is told once because it was not told before
  have new : disp ∉ m.mActiveDisplays := fun here =>
    unused disp (List.mem_append_left _ here) rfl
  refine ⟨?_, ?_, ?_, ?_, ?_⟩
  · have perm := displays_addDisplay (m := m) disp true
    rw [(perm.map Display.mName).nodup_iff, List.map_cons, List.nodup_cons]
    refine ⟨?_, holds.names⟩
    intro used
    obtain ⟨other, member, equal⟩ := List.mem_map.mp used
    exact unused other member equal
  · intro name active
    simp only [mem_addDisplay]
    by_cases same : name = disp.mName
    · subst same
      rw [Function.update_self]
      constructor
      · rintro ⟨other, member | rfl, equal, flag⟩
        · exact absurd equal (unused other member)
        · rw [flag]
      · intro flag
        exact ⟨disp, Or.inr rfl, rfl, Option.some.inj flag⟩
    · rw [Function.update_of_ne same, ← holds.flagged name active]
      constructor
      · rintro ⟨other, member | rfl, equal, flag⟩
        · exact ⟨other, member, equal, flag⟩
        · exact absurd equal.symm same
      · rintro ⟨other, member, rest⟩
        exact ⟨other, Or.inl member, rest⟩
  · intro other member
    rcases (mem_active_addDisplay disp other true).mp member with here | ⟨rfl, active⟩
    · exact holds.active other here
    · exact active
  · intro other member
    rcases (mem_inactive_addDisplay disp other true).mp member with here | ⟨rfl, inactive⟩
    · exact holds.inactive other here
    · exact inactive
  · intro mgr installed other
    rw [mDrawManager_addDisplay] at installed
    cases old : m.mDrawManager with
    | none => simp [DisplayManager.notify, old] at installed
    | some before =>
      have told := holds.told before old other
      simp only [DisplayManager.notify, old, true_and, Option.some.injEq] at installed
      subst installed
      have now := mem_active_addDisplay (m := m) disp other true
      by_cases active : disp.mActive = true
      · -- an active display is told to the draw manager, which did not know it
        rw [if_pos active, told_addDisplay, told]
        by_cases equal : other = disp
        · subst equal
          simp [now, new, active]
        · simp [now, equal]
      · rw [if_neg active, told]
        simp [now, active]

/-! ## All calls -/

theorem Holds.createNew (holds : Holds flags m) {element : Element}
    (unused : ∀ other ∈ m.displays, other.mName ≠ element.getName) :
    Holds (Function.update flags element.getName (some element.active))
      ({ m with created := m.created + 1 }.addDisplay (m.createDisplay element) true) := by
  -- the number of displays created matters to no part of the invariant
  have counted : Holds flags { m with created := m.created + 1 } :=
    ⟨holds.names, holds.flagged, holds.active, holds.inactive, holds.told⟩
  exact counted.addDisplay (m.createDisplay element) unused

theorem Holds.configAddDisplay (holds : Holds flags m) {element : Element}
    (type : element.getID = "display_window") :
    Holds (Function.update flags element.getName (some element.active))
      (m.configAddDisplay element).1 := by
  unfold DisplayManager.configAddDisplay
  rw [if_pos type]
  cases found : m.findDisplayNamed element.getName with
  | some cur_disp =>
    obtain ⟨known, name⟩ := find_some found
    have closed := holds.closeDisplay known
    have unused : ∀ other ∈ (m.closeDisplay cur_disp true).displays,
        other.mName ≠ element.getName := by
      intro other member equal
      rw [mem_closeDisplay] at member
      exact member.2 (holds.same_of_name member.1 known (equal.trans name.symm))
    rw [name] at closed
    have added := closed.createNew unused
    rw [Function.update_idem] at added
    exact added
  | none => exact holds.createNew (find_none found)

/-- An element whose name no display has leaves the flags as they are. -/
theorem Holds.update_none (holds : Holds flags m) {name : String}
    (missing : ∀ disp ∈ m.displays, disp.mName ≠ name) :
    Function.update flags name none = flags := by
  rw [Function.update_eq_self_iff]
  cases flag : flags name with
  | none => rfl
  | some active =>
    obtain ⟨disp, member, equal, -⟩ := (holds.flagged name active).mpr flag
    exact absurd equal (missing disp member)

theorem Holds.configRemoveDisplay (holds : Holds flags m) {element : Element}
    (type : element.getID = "display_window") :
    Holds (Function.update flags element.getName none) (m.configRemoveDisplay element).1 := by
  unfold DisplayManager.configRemoveDisplay
  rw [if_pos type]
  cases found : m.findDisplayNamed element.getName with
  | some remove_disp =>
    obtain ⟨known, name⟩ := find_some found
    have closed := holds.closeDisplay known
    rw [name] at closed
    exact closed
  | none =>
    rw [holds.update_none (find_none found)]
    exact holds

theorem Holds.configAdd (holds : Holds flags m) (element : Element) :
    Holds (registerCall flags (.configAdd element)) (m.configAdd element).1 := by
  unfold DisplayManager.configAdd registerCall
  by_cases type : element.getID = "display_window"
  · have other : ¬ (element.getID = "surfaceDisplay" ∨ element.getID = "simDisplay") := by
      rw [type]
      decide
    simp only [if_neg other, if_pos type]
    exact holds.configAddDisplay type
  · -- elements of other types leave the displays alone
    simp only [if_neg type]
    split
    · exact holds
    · split
      · exact ⟨holds.names, holds.flagged, holds.active, holds.inactive, holds.told⟩
      · exact holds

theorem Holds.configRemove (holds : Holds flags m) (element : Element) :
    Holds (registerCall flags (.configRemove element)) (m.configRemove element).1 := by
  unfold DisplayManager.configRemove registerCall
  by_cases type : element.getID = "display_window"
  · have other : ¬ (element.getID = "surfaceDisplay" ∨ element.getID = "simDisplay") := by
      rw [type]
      decide
    simp only [if_neg other, if_pos type]
    exact holds.configRemoveDisplay type
  · simp only [if_neg type]
    split
    · exact holds
    · split
      · exact ⟨holds.names, holds.flagged, holds.active, holds.inactive, holds.told⟩
      · exact holds

theorem Holds.call (holds : Holds flags m) (call : ManagerCall) :
    Holds (registerCall flags call) (m.call call) := by
  cases call with
  | configAdd element => exact holds.configAdd element
  | configRemove element => exact holds.configRemove element
  | newDrawManager =>
    refine holds.setDrawManager (some {}) ?_
    intro mgr new disp
    obtain rfl := Option.some.inj new
    rfl
  | noDrawManager =>
    refine holds.setDrawManager none ?_
    intro mgr new
    cases new

/-- After any calls, the displays are those of the elements that were added last and not removed,
each in the list of its flag, and the draw manager was told of each active display once. -/
theorem displays_registered (calls : List ManagerCall) :
    Holds (registered calls) (DisplayManager.run calls) := by
  induction calls using List.reverseRecOn with
  | nil =>
    refine ⟨List.nodup_nil, ?_, ?_, ?_, ?_⟩
    · intro name active
      constructor
      · rintro ⟨disp, member, -⟩
        cases member
      · intro flag
        cases flag
    · intro disp member
      cases member
    · intro disp member
      cases member
    · intro mgr installed
      cases installed
  | append_singleton calls call ih =>
    have next := ih.call call
    rw [registered, DisplayManager.run, List.foldl_append, List.foldl_append]
    exact next

end VRJuggler.Vrj
