import Mathlib.Algebra.Field.Rat
import VRJuggler.Snx.OpenAL

/-!
# Changing the sound API

Sonix passes every call on to the implementation in use, a stub at first. `changeAPI` creates the
implementation that is asked for, copies the settings of the old one, shuts the old one down and
starts the new one. One that cannot be started is replaced by a stub.

The settings are copied before the sounds of the old implementation are unbound. So the marks that
`unbind` leaves on sounds that are playing are lost. The name is copied as well, and stays the
stub's for ever.
-/
namespace VRJuggler.Snx

variable {φ μ ι : Type} [Zero φ] [One φ]

/-! ## Implementations -/

namespace Stub

/-- The stub plays nothing and marks what is triggered. -/
def call (s : SoundImplementation φ μ ι) : Call φ μ ι → SoundImplementation φ μ ι
  | .configureAPI sai => s.configureAPI sai
  | .configure sound description => s.store sound description
  | .remove sound => s.erase sound
  | .trigger sound repeats =>
    (s.trigger sound repeats).edit sound fun info => { info with triggerOnNextBind := true }
  | .stop sound =>
    (s.stop sound).edit sound fun info => { info with triggerOnNextBind := false }
  -- `pause` stops a sound and `unpause` triggers it
  | .pause sound =>
    (s.stop sound).edit sound fun info => { info with triggerOnNextBind := false }
  | .unpause sound =>
    (s.trigger sound (s.lookup sound).repeats).edit sound fun info =>
      { info with triggerOnNextBind := true }
  | .setRetriggerable sound onOff => s.setRetriggerable sound onOff
  | .setAmbient sound ambient => s.setAmbient sound ambient
  | .setPitchBend sound amount => s.setPitchBend sound amount
  | .setVolume sound amount => s.setVolume sound amount
  | .setCutoff sound amount => s.setCutoff sound amount
  | .setPosition sound position => s.setPosition sound position
  | .setListenerPosition mat => s.setListenerPosition mat

end Stub

namespace OpenAL

def bindAll (loads : String → Loading) (s : OpenAL φ μ ι) : OpenAL φ μ ι :=
  s.mSounds.keys.foldl (fun s sound => s.bind loads sound) s

def unbindAll (s : OpenAL φ μ ι) : OpenAL φ μ ι :=
  s.mSounds.keys.foldl (fun s sound => s.unbind sound) s

def shutdownAPI (s : OpenAL φ μ ι) : OpenAL φ μ ι :=
  if s.isStarted then { s.unbindAll with isStarted := false } else s

/-! ### All sounds of a new implementation -/

section BindAll

variable {loads : String → Loading} {sound : String} {s : OpenAL φ μ ι}

/-- Binding several aliases leaves the others alone. -/
theorem foldl_bind_of_not_mem (loads : String → Loading) {keys : List String}
    (elsewhere : sound ∉ keys) :
    (keys.foldl (fun s key => s.bind loads key) s).mSounds.find sound = s.mSounds.find sound ∧
      (keys.foldl (fun s key => s.bind loads key) s).mBindLookup sound =
        s.mBindLookup sound := by
  induction keys generalizing s with
  | nil => exact ⟨rfl, rfl⟩
  | cons key keys ih =>
    have other : sound ≠ key := fun same => elsewhere (same ▸ List.mem_cons_self ..)
    obtain ⟨sounds, sources⟩ := ih (s := s.bind loads key) fun member =>
      elsewhere (List.mem_cons_of_mem _ member)
    have only := only_bind loads key s
    exact ⟨sounds.trans (only.sounds sound other), sources.trans (only.sources sound other)⟩

/-- One of several aliases is bound from what was there of it before. -/
theorem foldl_bind_of_mem (loads : String → Loading) {keys : List String}
    (distinct : keys.Nodup) (member : sound ∈ keys) :
    ∃ t : OpenAL φ μ ι, t.isStarted = s.isStarted ∧
      t.mSounds.find sound = s.mSounds.find sound ∧ t.mBindLookup sound = s.mBindLookup sound ∧
      (keys.foldl (fun s key => s.bind loads key) s).mSounds.find sound =
        (t.bind loads sound).mSounds.find sound ∧
      (keys.foldl (fun s key => s.bind loads key) s).mBindLookup sound =
        (t.bind loads sound).mBindLookup sound := by
  induction keys generalizing s with
  | nil => cases member
  | cons key keys ih =>
    obtain ⟨fresh, distinct⟩ := List.nodup_cons.mp distinct
    -- its own turn comes now or later; the other turns leave it alone
    by_cases here : sound = key
    · subst here
      obtain ⟨sounds, sources⟩ := foldl_bind_of_not_mem loads
        (s := s.bind loads sound) fresh
      exact ⟨s, rfl, rfl, rfl, sounds, sources⟩
    · have later : sound ∈ keys := (List.mem_cons.mp member).resolve_left here
      obtain ⟨t, begun, found, bound, sounds, sources⟩ := ih (s := s.bind loads key) distinct later
      have only := only_bind loads key s
      exact ⟨t, begun.trans only.isStarted, found.trans (only.sounds sound here),
        bound.trans (only.sources sound here), sounds, sources⟩

/-- What no binding changes. -/
theorem foldl_bind_keeps {β : Type} (view : OpenAL φ μ ι → β)
    (kept : ∀ key (s t : OpenAL φ μ ι), Only key s t → view t = view s) (keys : List String) :
    view (keys.foldl (fun s key => s.bind loads key) s) = view s := by
  induction keys generalizing s with
  | nil => rfl
  | cons key keys ih =>
    have first : view (s.bind loads key) = view s := kept key s _ (only_bind loads key s)
    exact (ih (s := s.bind loads key)).trans first

variable {base : SoundImplementation φ μ ι}

theorem isStarted_bindAll : ((started base).bindAll loads).isStarted = true :=
  foldl_bind_keeps OpenAL.isStarted (fun _ _ _ only => only.isStarted) _

theorem mName_bindAll : ((started base).bindAll loads).mName = base.mName :=
  foldl_bind_keeps (fun s => s.mName) (fun _ _ _ only => only.mName) _

theorem mListenerPos_bindAll : ((started base).bindAll loads).mListenerPos = base.mListenerPos :=
  foldl_bind_keeps (fun s => s.mListenerPos) (fun _ _ _ only => only.mListenerPos) _

theorem mSoundAPIInfo_bindAll :
    ((started base).bindAll loads).mSoundAPIInfo = base.mSoundAPIInfo :=
  foldl_bind_keeps (fun s => s.mSoundAPIInfo) (fun _ _ _ only => only.mSoundAPIInfo) _

theorem bindAll_of_find (loads : String → Loading) {info : SoundInfo φ}
    (found : base.mSounds.find sound = some info) :
    ∃ t : OpenAL φ μ ι, t.isStarted = true ∧ t.mSounds.find sound = some info ∧
      t.mBindLookup sound = none ∧
      ((started base).bindAll loads).mSounds.find sound =
        (t.bind loads sound).mSounds.find sound ∧
      ((started base).bindAll loads).mBindLookup sound =
        (t.bind loads sound).mBindLookup sound := by
  have member : sound ∈ (started base).mSounds.keys :=
    (SortedMap.mem_keys_iff _ _).mpr (Option.isSome_of_eq_some found)
  obtain ⟨t, begun, there, bound, sounds, sources⟩ :=
    foldl_bind_of_mem loads (s := started base) (SortedMap.nodup_keys _) member
  exact ⟨t, begun, there.trans found, bound, sounds, sources⟩

theorem bindAll_of_absent (loads : String → Loading) (absent : base.mSounds.find sound = none) :
    ((started base).bindAll loads).mSounds.find sound = none ∧
      ((started base).bindAll loads).mBindLookup sound = none := by
  have elsewhere : sound ∉ (started base).mSounds.keys := by
    rw [SortedMap.mem_keys_iff]
    intro there
    exact absurd absent (Option.isSome_iff_ne_none.mp there)
  obtain ⟨sounds, sources⟩ := foldl_bind_of_not_mem loads (s := started base) elsewhere
  exact ⟨sounds.trans absent, sources⟩

theorem settings_bindAll :
    (((started base).bindAll loads).mSounds.find sound).map SoundInfo.settings =
      (base.mSounds.find sound).map SoundInfo.settings := by
  -- an alias that is not configured is not bound
  cases found : base.mSounds.find sound with
  | none => rw [(bindAll_of_absent loads found).1]
  | some info =>
    obtain ⟨t, begun, there, -, sounds, -⟩ := bindAll_of_find loads found
    have present := (only_bind loads sound t).present (Option.isSome_of_eq_some there)
    rw [sounds, SoundImplementation.find_of_isSome present, Option.map_some,
      settings_bind loads begun, SoundImplementation.lookup_of_find there, Option.map_some]

/-- A sound whose file is loaded is played when it was marked, and then no longer marked. -/
theorem stateOf_bindAll {info : SoundInfo φ} (found : base.mSounds.find sound = some info)
    (loaded : loads info.filename = .loaded) :
    ((started base).bindAll loads).stateOf sound =
      if info.triggerOnNextBind then .playing else .initial := by
  obtain ⟨t, begun, there, free, -, sources⟩ := bindAll_of_find loads found
  have info' := SoundImplementation.lookup_of_find there
  have readable : loads (t.lookup sound).filename = .loaded := by rw [info']; exact loaded
  obtain ⟨source, bound, -, state⟩ := mBindLookup_bind_of_loaded begun readable
  -- a new implementation plays nothing, so that only the mark counts
  have marked : t.again sound = info.triggerOnNextBind := by
    rw [again, info', isPlaying_of_not_bound (isBound_eq_false_iff.mpr free), Bool.or_false]
  rw [stateOf, sources, bound]
  exact state.trans (by rw [marked])

theorem unmarked_bindAll {source : Source φ}
    (bound : ((started base).bindAll loads).mBindLookup sound = some source) :
    (((started base).bindAll loads).lookup sound).triggerOnNextBind = false := by
  cases found : base.mSounds.find sound with
  | none =>
    rw [(bindAll_of_absent loads found).2] at bound
    cases bound
  | some info =>
    obtain ⟨t, begun, there, -, sounds, sources⟩ := bindAll_of_find loads found
    have here : ((started base).bindAll loads).lookup sound =
        (t.bind loads sound).lookup sound := by
      rw [SoundImplementation.lookup, sounds, SoundImplementation.lookup]
    rw [here]
    -- a sound whose file is not loaded has no source
    by_cases readable : loads (t.lookup sound).filename = .loaded
    · exact marked_bind_of_loaded begun readable
    · rw [sources, mBindLookup_bind_of_not_loaded begun readable] at bound
      cases bound

end BindAll

/-! ### Marks are for sounds that are not bound -/

/-- A sound that is bound is not marked. -/
def Quiet (s : OpenAL φ μ ι) : Prop :=
  ∀ sound source, s.mBindLookup sound = some source →
    (s.lookup sound).triggerOnNextBind = false

section Quiet

variable {loads : String → Loading} {sound : String} {s t : OpenAL φ μ ι}

theorem quiet_of_frame (quiet : Quiet s)
    (sounds : ∀ other, other ≠ sound → t.mSounds.find other = s.mSounds.find other)
    (sources : ∀ other, other ≠ sound → t.mBindLookup other = s.mBindLookup other)
    (own : ∀ source, t.mBindLookup sound = some source →
      (t.lookup sound).triggerOnNextBind = false) : Quiet t := by
  intro other source bound
  -- the other aliases keep mark and source
  by_cases same : other = sound
  · subst same
    exact own source bound
  · rw [SoundImplementation.lookup, sounds other same]
    exact quiet other source ((sources other same).symm.trans bound)

theorem quiet_of_only (quiet : Quiet s) (only : Only sound s t)
    (own : ∀ source, t.mBindLookup sound = some source →
      (t.lookup sound).triggerOnNextBind = false) : Quiet t :=
  quiet_of_frame quiet only.sounds only.sources own

/-- A call that neither marks a sound nor binds it. -/
theorem quiet_of_kept (quiet : Quiet s) (only : Only sound s t)
    (bound : (t.mBindLookup sound).isSome → (s.mBindLookup sound).isSome)
    (mark : (t.lookup sound).triggerOnNextBind = (s.lookup sound).triggerOnNextBind) :
    Quiet t := by
  apply quiet_of_only quiet only
  intro source there
  obtain ⟨before, here⟩ := Option.isSome_iff_exists.mp (bound (Option.isSome_of_eq_some there))
  exact mark.trans (quiet sound before here)

omit [Zero φ] [One φ] in
theorem isSome_source {write : Source φ → Source φ}
    (there : ((s.source sound write).mBindLookup sound).isSome) :
    (s.mBindLookup sound).isSome := by
  rw [mBindLookup_source_self, Option.isSome_map] at there
  exact there

theorem quiet_edit (quiet : Quiet s) {change : SoundInfo φ → SoundInfo φ}
    (mark : ∀ info, (change info).triggerOnNextBind = info.triggerOnNextBind) :
    Quiet (s.settings (.edit sound change)) := by
  apply quiet_of_kept quiet (only_edit sound change s) id
  rw [lookup_settings_self, mark]

theorem quiet_source (quiet : Quiet s) {write : Source φ → Source φ} :
    Quiet (s.source sound write) :=
  quiet_of_kept quiet (only_source sound write s) isSome_source rfl

theorem quiet_setter (quiet : Quiet s) {change : SoundInfo φ → SoundInfo φ}
    {write : Source φ → Source φ}
    (mark : ∀ info, (change info).triggerOnNextBind = info.triggerOnNextBind) :
    Quiet ((s.settings (.edit sound change)).source sound write) :=
  quiet_source (quiet_edit quiet mark)

theorem quiet_play {looping : Int} (quiet : Quiet s) : Quiet (s.play sound looping) := by
  unfold play
  split
  · exact quiet_source quiet
  · exact quiet

/-- Where it can be marked, it is bound no more. -/
theorem quiet_unbind (quiet : Quiet s) (begun : s.isStarted = true) : Quiet (s.unbind sound) := by
  apply quiet_of_only quiet (only_unbind sound s)
  intro source there
  rw [mBindLookup_unbind begun] at there
  cases there

theorem quiet_bind (quiet : Quiet s) (begun : s.isStarted = true) :
    Quiet (s.bind loads sound) := by
  apply quiet_of_only quiet (only_bind loads sound s)
  intro source there
  by_cases loaded : loads (s.lookup sound).filename = .loaded
  · exact marked_bind_of_loaded begun loaded
  · rw [mBindLookup_bind_of_not_loaded begun loaded] at there
    cases there

theorem quiet_bindAll {base : SoundImplementation φ μ ι} :
    Quiet ((started base).bindAll loads) :=
  fun _ _ bound => unmarked_bindAll bound

theorem quiet_configure {description : SoundInfo φ} (quiet : Quiet s)
    (begun : s.isStarted = true) : Quiet (s.configure loads sound description) := by
  -- the old mark is kept for an alias that is then not bound
  have stored : Quiet ((s.unbind sound).settings (.store sound description)) := by
    apply quiet_of_only (quiet_unbind quiet begun) (only_edit sound _ _)
    intro source there
    rw [mBindLookup_settings, mBindLookup_unbind begun] at there
    cases there
  rw [configure_of_started begun]
  exact quiet_bind stored ((only_unbind sound s).isStarted.trans begun)

theorem quiet_remove (quiet : Quiet s) (begun : s.isStarted = true) :
    Quiet (s.remove sound) := by
  have only := only_unbind sound s
  have free : (s.unbind sound).mBindLookup sound = none := mBindLookup_unbind begun
  have sounds (other : String) (elsewhere : other ≠ sound) :
      ((s.unbind sound).settings (.erase sound)).mSounds.find other = s.mSounds.find other :=
    (SortedMap.find_erase_of_ne _ elsewhere).trans (only.sounds other elsewhere)
  rw [remove_of_started begun]
  apply quiet_of_frame (t := (s.unbind sound).settings (.erase sound)) quiet sounds only.sources
  intro source there
  rw [mBindLookup_settings, free] at there
  cases there

theorem quiet_trigger {looping : Int} (quiet : Quiet s) (begun : s.isStarted = true) :
    Quiet (s.trigger loads sound looping) := by
  have begins : Quiet (s.settings (.trigger sound looping)) := quiet_edit quiet fun _ => rfl
  -- a bound sound keeps its mark, another one is bound first
  cases bound : s.isBound sound with
  | true =>
    rw [trigger_of_bound bound]
    exact quiet_play begins
  | false =>
    have next : Quiet ((s.settings (.trigger sound looping)).bind loads sound) :=
      quiet_bind begins begun
    rw [trigger_of_unbound bound]
    split
    · exact quiet_play next
    · exact next

theorem quiet_setPosition {position : φ × φ × φ} (quiet : Quiet s) :
    Quiet (s.setPosition sound position) := by
  have edited : Quiet (s.settings (.setPosition sound position)) := quiet_edit quiet fun _ => rfl
  unfold setPosition
  dsimp only
  split
  · exact edited
  · exact quiet_source edited

theorem quiet_call [LE φ] [DecidableLE φ] (slow : φ) (quiet : Quiet s)
    (begun : s.isStarted = true) (call : Call φ μ ι) : Quiet (s.call slow loads call) := by
  cases call with
  | configureAPI sai => exact quiet
  | configure sound description => exact quiet_configure quiet begun
  | remove sound => exact quiet_remove quiet begun
  | trigger sound repeats => exact quiet_trigger quiet begun
  | stop sound =>
    apply quiet_setter quiet
    intro
    rfl
  | pause sound => exact quiet_source quiet
  | unpause sound => exact quiet_source quiet
  | setRetriggerable sound onOff =>
    apply quiet_edit quiet
    intro
    rfl
  | setAmbient sound ambient =>
    apply quiet_setter quiet
    intro
    rfl
  | setPitchBend sound amount =>
    apply quiet_setter quiet
    intro
    rfl
  | setVolume sound amount =>
    apply quiet_setter quiet
    intro
    rfl
  | setCutoff sound amount =>
    apply quiet_setter quiet
    intro
    rfl
  | setPosition sound position => exact quiet_setPosition quiet
  | setListenerPosition mat => exact quiet

end Quiet

end OpenAL

inductive Implementation (φ μ ι : Type)
  | stub (s : SoundImplementation φ μ ι)
  | openAL (s : OpenAL φ μ ι)

/-- The two kinds of implementations. -/
inductive Kind
  | stub
  | openAL
deriving DecidableEq, Repr

def Kind.name : Kind → String
  | .stub => "Stub"
  | .openAL => "OpenAL"

namespace Implementation

def kind : Implementation φ μ ι → Kind
  | stub _ => .stub
  | openAL _ => .openAL

def base : Implementation φ μ ι → SoundImplementation φ μ ι
  | stub s => s
  | openAL s => s.toSoundImplementation

/-- `name()` of the implementation. -/
def name (i : Implementation φ μ ι) : String := i.base.mName

def call [LE φ] [DecidableLE φ] (slow : φ) (loads : String → Loading) (i : Implementation φ μ ι)
    (call : Call φ μ ι) : Implementation φ μ ι :=
  match i with
  | stub s => stub (Stub.call s call)
  | openAL s => openAL (s.call slow loads call)

def finish (sound : String) : Implementation φ μ ι → Implementation φ μ ι
  | stub s => stub s
  | openAL s => openAL (s.source sound .finish)

def copy (si : SoundImplementation φ μ ι) : Implementation φ μ ι → Implementation φ μ ι
  | stub s => stub (.copy si s)
  | openAL s => openAL (s.settings (.copy si))

/-- `opens` tells whether the library opens its device and makes a context. -/
def startAPI (opens : Bool) : Implementation φ μ ι → Implementation φ μ ι × Bool
  | stub s => (stub s, true)
  | openAL s => (openAL { s with isStarted := s.isStarted || opens }, s.isStarted || opens)

def shutdownAPI : Implementation φ μ ι → Implementation φ μ ι
  | stub s => stub s
  | openAL s => openAL s.shutdownAPI

def bindAll (loads : String → Loading) : Implementation φ μ ι → Implementation φ μ ι
  | stub s => stub s
  | openAL s => openAL (s.bindAll loads)

def unbindAll : Implementation φ μ ι → Implementation φ μ ι
  | stub s => stub s
  | openAL s => openAL s.unbindAll

end Implementation

/-! ## Sonix -/

/-- The sounds of an implementation that has just been constructed. -/
def SoundImplementation.new [Inhabited μ] [Inhabited ι] (name : String) :
    SoundImplementation φ μ ι where
  mName := name
  mSoundAPIInfo := default
  mSounds := SortedMap.empty
  mListenerPos := default

/-- What the factory creates: a clone of the registered implementation, or else a stub. `plugin`
tells whether the plugin for OpenAL has been found. -/
def createImplementation [Inhabited μ] [Inhabited ι] (plugin : Bool) (apiName : String) :
    Implementation φ μ ι :=
  if plugin = true ∧ apiName = "OpenAL" then
    .openAL
      { SoundImplementation.new "OpenAL" with
        mBindLookup := fun _ => none
        isStarted := false }
  else .stub (SoundImplementation.new "Stub")

structure Sonix (φ μ ι : Type) where
  mImplementation : Option (Implementation φ μ ι)

namespace Sonix

variable [Inhabited μ] [Inhabited ι] (plugin : Bool)

/-- The implementation in use; there is one from the first call on. -/
def impl (s : Sonix φ μ ι) : Implementation φ μ ι :=
  s.mImplementation.getD (createImplementation plugin "stub")

/-- The new implementation with the settings of the old one, before it is started. -/
def prepared (apiName : String) (s : Sonix φ μ ι) : Implementation φ μ ι :=
  (createImplementation plugin apiName).copy (s.impl plugin).base

omit [Zero φ] [One φ] in
theorem startAPI_prepared {opens : Bool} {apiName : String} {s : Sonix φ μ ι}
    (failed : ¬ ((s.prepared plugin apiName).startAPI opens).2 = true) :
    plugin = true ∧ apiName = "OpenAL" := by
  by_contra other
  rw [prepared, createImplementation, if_neg other] at failed
  exact failed rfl

def changeAPI (loads : String → Loading) (opens : Bool) (apiName : String) (s : Sonix φ μ ι) :
    Sonix φ μ ι :=
  let next := (s.prepared plugin apiName).startAPI opens
  -- the old implementation goes through this and is deleted
  let _deleted := (s.impl plugin).unbindAll.shutdownAPI
  if ((s.prepared plugin apiName).startAPI opens).2 then ⟨some (next.1.bindAll loads)⟩
  else
    -- it fails to start
    let reverted := changeAPI loads opens "stub" ⟨some next.1⟩
    ⟨reverted.mImplementation.map (Implementation.bindAll loads)⟩
termination_by if plugin = true ∧ apiName = "OpenAL" then 1 else 0
decreasing_by
  rw [if_neg (by simp), if_pos (startAPI_prepared plugin ‹_›)]
  decide

/-- Which implementation is in use after `changeAPI`. -/
def requested (opens : Bool) (apiName : String) : Kind :=
  if plugin = true ∧ apiName = "OpenAL" ∧ opens = true then .openAL else .stub

section Changed

variable {plugin : Bool} {loads : String → Loading} {opens : Bool} {apiName : String}
  {s : Sonix φ μ ι}

theorem changeAPI_of_unregistered (other : ¬ (plugin = true ∧ apiName = "OpenAL")) :
    changeAPI plugin loads opens apiName s = ⟨some (.stub (s.impl plugin).base)⟩ := by
  have prepared : s.prepared plugin apiName = .stub (s.impl plugin).base := by
    rw [prepared, createImplementation, if_neg other]
    rfl
  rw [changeAPI, prepared]
  rfl

/-- Everything the new implementation has is the old one's. -/
theorem changeAPI_eq :
    changeAPI plugin loads opens apiName s =
      match requested plugin opens apiName with
      | .openAL => ⟨some (.openAL ((OpenAL.started (s.impl plugin).base).bindAll loads))⟩
      | .stub => ⟨some (.stub (s.impl plugin).base)⟩ := by
  by_cases registered : plugin = true ∧ apiName = "OpenAL"
  · have prepared : s.prepared plugin apiName =
        .openAL { (s.impl plugin).base with mBindLookup := fun _ => none, isStarted := false } := by
      rw [prepared, createImplementation, if_pos registered]
      rfl
    rw [changeAPI, prepared]
    cases opens with
    | true =>
      have kind : requested plugin true apiName = .openAL :=
        if_pos ⟨registered.1, registered.2, rfl⟩
      rw [kind]
      rfl
    | false =>
      -- the nested call asks for a stub, which starts
      have kind : requested plugin false apiName = .stub := if_neg (by simp)
      have reverted (s : Sonix φ μ ι) : changeAPI plugin loads false "stub" s =
          ⟨some (.stub (s.impl plugin).base)⟩ := changeAPI_of_unregistered (by simp)
      rw [kind, reverted]
      rfl
  · have plain : requested plugin opens apiName = .stub :=
      if_neg fun all => registered ⟨all.1, all.2.1⟩
    rw [plain, changeAPI_of_unregistered registered]

end Changed

end Sonix

/-! ## Runs -/

/-- Which sounds have been triggered under the stub, and not stopped or removed since. -/
def Call.heard (triggered : String → Bool) : Call φ μ ι → String → Bool
  | .trigger sound _ => Function.update triggered sound true
  | .unpause sound => Function.update triggered sound true
  | .stop sound => Function.update triggered sound false
  | .pause sound => Function.update triggered sound false
  | .remove sound => Function.update triggered sound false
  | _ => triggered

/-- Sonix, and what has been triggered under the stub in use. -/
structure Session (φ μ ι : Type) where
  sonix : Sonix φ μ ι
  triggered : String → Bool

/-- What a program does, and a sound that comes to its end. -/
inductive Step (φ μ ι : Type)
  | call (loads : String → Loading) (call : Call φ μ ι)
  | finish (sound : String)
  | changeAPI (loads : String → Loading) (opens : Bool) (apiName : String)

namespace Session

variable [Inhabited μ] [Inhabited ι] [LE φ] [DecidableLE φ]

def start : Session φ μ ι where
  sonix := ⟨none⟩
  triggered _ := false

def impl (plugin : Bool) (w : Session φ μ ι) : Implementation φ μ ι := w.sonix.impl plugin

def follow (plugin : Bool) (slow : φ) (w : Session φ μ ι) : Step φ μ ι → Session φ μ ι
  | .call loads call =>
    { sonix := ⟨some ((w.impl plugin).call slow loads call)⟩
      triggered := if (w.impl plugin).kind = .stub then call.heard w.triggered else w.triggered }
  | .finish sound =>
    { w with sonix := ⟨w.sonix.mImplementation.map (Implementation.finish sound)⟩ }
  | .changeAPI loads opens apiName =>
    let changed := w.sonix.changeAPI plugin loads opens apiName
    { sonix := changed
      triggered := if (changed.impl plugin).kind = .stub then w.triggered else fun _ => false }

end Session

/-! ## What changing the API should keep -/

namespace Implementation

/-- The library plays the sound. -/
def plays (sound : String) : Implementation φ μ ι → Prop
  | stub _ => False
  | openAL s => s.stateOf sound = .playing

instance (sound : String) : (i : Implementation φ μ ι) → Decidable (i.plays sound)
  | stub _ => isFalse id
  | openAL s => inferInstanceAs (Decidable (s.stateOf sound = .playing))

/-- The sound is played, or is marked for the next time that it is bound. -/
def resumes (sound : String) : Implementation φ μ ι → Prop
  | stub s => (s.lookup sound).triggerOnNextBind = true
  | openAL s => s.stateOf sound = .playing

instance (sound : String) : (i : Implementation φ μ ι) → Decidable (i.resumes sound)
  | stub s => inferInstanceAs (Decidable ((s.lookup sound).triggerOnNextBind = true))
  | openAL s => inferInstanceAs (Decidable (s.stateOf sound = .playing))

end Implementation

section Spec

variable [Inhabited μ] [Inhabited ι] (plugin : Bool) (loads : String → Loading) (opens : Bool)
  (apiName : String)

/-- The sounds that should be heard after a change: those that were playing or triggered under
the stub. A configured file is assumed to be loadable. -/
def Session.Due (w : Session φ μ ι) (sound : String) : Prop :=
  (∃ info, (w.impl plugin).base.mSounds.find sound = some info ∧
    loads info.filename = .loaded) ∧
  ((w.impl plugin).plays sound ∨ w.triggered sound = true)

/-- The change from one state to the other keeps the state of the sounds. -/
structure Switched (w : Session φ μ ι) (s : Sonix φ μ ι) : Prop where
  settings : ∀ sound, ((s.impl plugin).base.mSounds.find sound).map SoundInfo.settings =
    ((w.impl plugin).base.mSounds.find sound).map SoundInfo.settings
  listener : (s.impl plugin).base.mListenerPos = (w.impl plugin).base.mListenerPos
  inUse : (s.impl plugin).kind = Sonix.requested plugin opens apiName
  name : (s.impl plugin).name = (Sonix.requested plugin opens apiName).name
  resumed : ∀ sound, w.Due plugin loads sound → (s.impl plugin).resumes sound

end Spec

/-! ## The invariant of a run -/

namespace Stub

variable {triggered : String → Bool} {sound : String} {s : SoundImplementation φ μ ι}

/-- Every sound that counts as triggered is marked. -/
def Marks (triggered : String → Bool) (s : SoundImplementation φ μ ι) : Prop :=
  ∀ sound, triggered sound = true → (s.lookup sound).triggerOnNextBind = true

theorem marks_edit (marks : Marks triggered s) {change : SoundInfo φ → SoundInfo φ}
    (kept : ∀ info, (change info).triggerOnNextBind = info.triggerOnNextBind) :
    Marks triggered (s.edit sound change) := by
  intro other heard
  by_cases same : other = sound
  · subst same
    rw [SoundImplementation.lookup_edit_self, kept]
    exact marks other heard
  · rw [SoundImplementation.lookup_edit_of_ne same]
    exact marks other heard

/-- A sound that is marked counts as triggered, or as one that is not. -/
theorem marks_mark (marks : Marks triggered s) {heard : Bool} :
    Marks (Function.update triggered sound heard)
      (s.edit sound fun info => { info with triggerOnNextBind := heard }) := by
  intro other there
  -- the sound itself, and the others
  by_cases same : other = sound
  · subst same
    rw [Function.update_self] at there
    rw [SoundImplementation.lookup_edit_self]
    exact there
  · rw [Function.update_of_ne same] at there
    rw [SoundImplementation.lookup_edit_of_ne same]
    exact marks other there

theorem marks_erase (marks : Marks triggered s) :
    Marks (Function.update triggered sound false) (s.erase sound) := by
  intro other there
  by_cases same : other = sound
  · subst same
    rw [Function.update_self] at there
    cases there
  · rw [Function.update_of_ne same] at there
    have kept : (s.erase sound).lookup other = s.lookup other := by
      rw [SoundImplementation.lookup, SoundImplementation.erase,
        SortedMap.find_erase_of_ne _ same, SoundImplementation.lookup]
    rw [kept]
    exact marks other there

theorem marks_call (marks : Marks triggered s) (call : Call φ μ ι) :
    Marks (call.heard triggered) (Stub.call s call) := by
  cases call with
  | configureAPI sai => exact marks
  | configure sound description =>
    apply marks_edit marks
    intro
    rfl
  | remove sound => exact marks_erase marks
  | trigger sound repeats =>
    apply marks_mark
    apply marks_edit marks
    intro
    rfl
  | stop sound =>
    apply marks_mark
    apply marks_edit marks
    intro
    rfl
  | pause sound =>
    apply marks_mark
    apply marks_edit marks
    intro
    rfl
  | unpause sound =>
    apply marks_mark
    apply marks_edit marks
    intro
    rfl
  | setListenerPosition mat => exact marks
  | _ =>
    apply marks_edit marks
    intro
    rfl

theorem mName_call (s : SoundImplementation φ μ ι) (call : Call φ μ ι) :
    (Stub.call s call).mName = s.mName := by
  cases call with
  | _ => rfl

end Stub

namespace Session

variable [Inhabited μ] [Inhabited ι] {plugin : Bool} {w : Session φ μ ι}

/-- The sounds that have been triggered under the stub are marked; OpenAL is started, marks none
that is bound, and there is nothing triggered under a stub. -/
def Followed (triggered : String → Bool) : Implementation φ μ ι → Prop
  | .stub s => Stub.Marks triggered s
  | .openAL s => s.isStarted = true ∧ s.Quiet ∧ ∀ sound, triggered sound = false

structure Inv (plugin : Bool) (w : Session φ μ ι) : Prop where
  name : (w.impl plugin).name = "Stub"
  followed : Followed w.triggered (w.impl plugin)

theorem inv_start : Inv plugin (start : Session φ μ ι) := by
  have stub : (start : Session φ μ ι).impl plugin = .stub (.new "Stub") := if_neg (by simp)
  constructor
  · rw [stub]
    rfl
  · rw [stub]
    intro sound heard
    cases heard

theorem inv_call [LE φ] [DecidableLE φ] (slow : φ) (inv : Inv plugin w)
    (loads : String → Loading) (call : Call φ μ ι) :
    Inv plugin (w.follow plugin slow (.call loads call)) := by
  obtain ⟨name, followed⟩ := inv
  obtain ⟨i, same⟩ : ∃ i, i = w.impl plugin := ⟨_, rfl⟩
  have next : (w.follow plugin slow (.call loads call)).impl plugin = i.call slow loads call := by
    rw [same]
    rfl
  have heard : (w.follow plugin slow (.call loads call)).triggered =
      if i.kind = .stub then call.heard w.triggered else w.triggered := by
    rw [same]
    rfl
  rw [← same] at name followed
  -- the stub follows what is triggered, OpenAL keeps its sources unmarked
  cases i with
  | stub s =>
    constructor
    · rw [next]
      exact (Stub.mName_call s call).trans name
    · rw [next, heard]
      exact Stub.marks_call followed call
  | openAL s =>
    obtain ⟨begun, quiet, none⟩ := followed
    have frame := OpenAL.frame_call slow loads s call
    constructor
    · rw [next]
      exact frame.2.trans name
    · rw [next, heard]
      exact ⟨frame.1.trans begun, OpenAL.quiet_call slow quiet begun call, none⟩

theorem inv_finish [LE φ] [DecidableLE φ] (slow : φ) (inv : Inv plugin w) (sound : String) :
    Inv plugin (w.follow plugin slow (.finish sound)) := by
  obtain ⟨⟨_ | i⟩, triggered⟩ := w
  · exact inv
  · obtain ⟨name, followed⟩ := inv
    cases i with
    | stub s => exact ⟨name, followed⟩
    | openAL s =>
      obtain ⟨begun, quiet, none⟩ := followed
      exact ⟨name, begun, OpenAL.quiet_source quiet, none⟩

theorem inv_changeAPI [LE φ] [DecidableLE φ] (slow : φ) (inv : Inv plugin w)
    (loads : String → Loading) (opens : Bool) (apiName : String) :
    Inv plugin (w.follow plugin slow (.changeAPI loads opens apiName)) := by
  obtain ⟨name, followed⟩ := inv
  have changed : w.sonix.changeAPI plugin loads opens apiName = _ := Sonix.changeAPI_eq
  unfold follow
  dsimp only
  rw [changed]
  -- the sounds are the old ones in any case
  cases Sonix.requested plugin opens apiName with
  | openAL =>
    exact ⟨OpenAL.mName_bindAll.trans name, OpenAL.isStarted_bindAll, OpenAL.quiet_bindAll,
      fun _ => rfl⟩
  | stub =>
    refine ⟨name, ?_⟩
    change Followed w.triggered (w.impl plugin) at followed
    change Stub.Marks w.triggered (w.impl plugin).base
    generalize w.impl plugin = i at followed
    cases i with
    | stub s => exact followed
    | openAL s =>
      intro sound heard
      rw [followed.2.2 sound] at heard
      cases heard

theorem inv_foldl [LE φ] [DecidableLE φ] (slow : φ) (inv : Inv plugin w)
    (steps : List (Step φ μ ι)) : Inv plugin (steps.foldl (follow plugin slow) w) := by
  induction steps generalizing w with
  | nil => exact inv
  | cons step steps ih =>
    apply ih
    cases step with
    | call loads call => exact inv_call slow inv loads call
    | finish sound => exact inv_finish slow inv sound
    | changeAPI loads opens apiName => exact inv_changeAPI slow inv loads opens apiName

/-! ## What changing the API keeps -/

section Changes

variable (loads : String → Loading) (opens : Bool) (apiName : String)

/-- No sound with a loadable file is playing. -/
def Silent (plugin : Bool) (loads : String → Loading) (w : Session φ μ ι) : Prop :=
  ∀ sound info, (w.impl plugin).base.mSounds.find sound = some info →
    loads info.filename = .loaded → ¬ (w.impl plugin).plays sound

theorem kept_changeAPI (plugin : Bool) (w : Session φ μ ι) (sound : String) :
    ((((w.sonix.changeAPI plugin loads opens apiName).impl plugin).base.mSounds.find sound).map
        SoundInfo.settings =
      ((w.impl plugin).base.mSounds.find sound).map SoundInfo.settings) ∧
    ((w.sonix.changeAPI plugin loads opens apiName).impl plugin).base.mListenerPos =
      (w.impl plugin).base.mListenerPos ∧
    ((w.sonix.changeAPI plugin loads opens apiName).impl plugin).base.mSoundAPIInfo =
      (w.impl plugin).base.mSoundAPIInfo ∧
    ((w.sonix.changeAPI plugin loads opens apiName).impl plugin).kind =
      Sonix.requested plugin opens apiName := by
  rw [Sonix.changeAPI_eq]
  cases Sonix.requested plugin opens apiName with
  | stub => exact ⟨rfl, rfl, rfl, rfl⟩
  | openAL =>
    exact ⟨OpenAL.settings_bindAll, OpenAL.mListenerPos_bindAll, OpenAL.mSoundAPIInfo_bindAll, rfl⟩

/-- The name stays the stub's. -/
theorem name_changeAPI (inv : Inv plugin w) :
    ((w.sonix.changeAPI plugin loads opens apiName).impl plugin).name = "Stub" := by
  rw [Sonix.changeAPI_eq]
  cases Sonix.requested plugin opens apiName with
  | stub => exact inv.name
  | openAL => exact OpenAL.mName_bindAll.trans inv.name

/-- A sound is heard again just when it is marked. -/
theorem resumes_changeAPI {sound : String} {info : SoundInfo φ}
    (found : (w.impl plugin).base.mSounds.find sound = some info)
    (loaded : loads info.filename = .loaded) :
    ((w.sonix.changeAPI plugin loads opens apiName).impl plugin).resumes sound ↔
      info.triggerOnNextBind = true := by
  rw [Sonix.changeAPI_eq]
  cases Sonix.requested plugin opens apiName with
  | stub =>
    have here : (w.impl plugin).base.lookup sound = info :=
      SoundImplementation.lookup_of_find found
    change ((w.impl plugin).base.lookup sound).triggerOnNextBind = true ↔ _
    rw [here]
  | openAL =>
    have state := OpenAL.stateOf_bindAll found loaded
    change ((OpenAL.started (w.impl plugin).base).bindAll loads).stateOf sound = .playing ↔ _
    rw [state]
    cases info.triggerOnNextBind <;> simp

/-- What was playing is not marked; what was triggered under the stub is. -/
theorem resumed_iff (inv : Inv plugin w) :
    (∀ sound, w.Due plugin loads sound →
      ((w.sonix.changeAPI plugin loads opens apiName).impl plugin).resumes sound) ↔
        w.Silent plugin loads := by
  obtain ⟨-, followed⟩ := inv
  constructor
  · intro resumed sound info found loaded plays
    -- a sound that is heard again was marked, and OpenAL marks none that is bound
    have marked := (resumes_changeAPI loads opens apiName found loaded).mp
      (resumed sound ⟨⟨info, found, loaded⟩, Or.inl plays⟩)
    generalize w.impl plugin = i at followed found plays
    cases i with
    | stub s => exact plays
    | openAL s =>
      have here : s.lookup sound = info := SoundImplementation.lookup_of_find found
      change s.stateOf sound = .playing at plays
      cases bound : s.mBindLookup sound with
      | none => simp [OpenAL.stateOf, bound] at plays
      | some source =>
        have unmarked := followed.2.1 sound source bound
        rw [here, marked] at unmarked
        cases unmarked
  · rintro silent sound ⟨⟨info, found, loaded⟩, plays | heard⟩
    · exact absurd plays (silent sound info found loaded)
    · apply (resumes_changeAPI loads opens apiName found loaded).mpr
      generalize w.impl plugin = i at followed found
      -- only the stub has sounds that count as triggered
      cases i with
      | stub s =>
        have here : s.lookup sound = info := SoundImplementation.lookup_of_find found
        rw [← here]
        exact followed sound heard
      | openAL s =>
        rw [followed.2.2 sound] at heard
        cases heard

end Changes

/-- After any calls, changing the API keeps the settings, the listener and the choice of the
implementation. It keeps the whole state of the sounds just when the stub is then in use, whose
name it shows in any case, and no sound was playing, whose mark would be lost. -/
theorem changeAPI_switched_iff [LE φ] [DecidableLE φ] (plugin : Bool) (slow : φ)
    (steps : List (Step φ μ ι)) (loads : String → Loading) (opens : Bool) (apiName : String) :
    Switched plugin loads opens apiName (steps.foldl (follow plugin slow) start)
        ((steps.foldl (follow plugin slow) start).sonix.changeAPI plugin loads opens apiName) ↔
      Sonix.requested plugin opens apiName = .stub ∧
        (steps.foldl (follow plugin slow) start).Silent plugin loads := by
  obtain ⟨w, same⟩ : ∃ w, w = steps.foldl (follow plugin slow) start := ⟨_, rfl⟩
  have inv : Inv plugin w := same ▸ inv_foldl slow inv_start steps
  rw [← same]
  have kept := kept_changeAPI loads opens apiName plugin w
  have name := name_changeAPI loads opens apiName inv
  constructor
  · intro switched
    refine ⟨?_, (resumed_iff loads opens apiName inv).mp switched.resumed⟩
    -- the name is the stub's, and only the stub has this name
    have asked := name.symm.trans switched.name
    generalize Sonix.requested plugin opens apiName = kind at asked
    cases kind with
    | stub => rfl
    | openAL => exact absurd asked (by decide)
  · rintro ⟨stub, silent⟩
    refine ⟨fun sound => (kept sound).1, (kept "").2.1, (kept "").2.2.2, ?_,
      (resumed_iff loads opens apiName inv).mpr silent⟩
    rw [name, stub]
    rfl

/-! ## A sound that is lost -/

def hum : SoundInfo ℚ := { SoundInfo.new with filename := "hum.wav", repeats := -1 }

/-- A sound is played for ever by OpenAL. -/
def humming : List (Step ℚ Unit Unit) :=
  [.call (fun _ => .loaded) (.configure "hum" hum),
    .changeAPI (fun _ => .loaded) true "OpenAL",
    .call (fun _ => .loaded) (.trigger "hum" (-1))]

/-- When the stub is asked for, the sound is neither playing nor marked. -/
theorem playing_sound_lost :
    ¬ Switched true (fun _ => .loaded) true "stub" (humming.foldl (follow true (1 / 1000)) start)
      ((humming.foldl (follow true (1 / 1000)) start).sonix.changeAPI true (fun _ => .loaded) true
        "stub") := by
  intro switched
  have playing : ((humming.foldl (follow true (1 / 1000)) start).impl true).plays "hum" := by
    decide +kernel
  have configured : (((humming.foldl (follow true (1 / 1000)) start).impl true).base.mSounds.find
      "hum").isSome := by
    decide +kernel
  obtain ⟨info, found⟩ := Option.isSome_iff_exists.mp configured
  have heard := switched.resumed "hum" ⟨⟨info, found, rfl⟩, Or.inl playing⟩
  have lost : ¬ (((humming.foldl (follow true (1 / 1000)) start).sonix.changeAPI true
      (fun _ => .loaded) true "stub").impl true).resumes "hum" := by
    decide +kernel
  exact lost heard

end Session

end VRJuggler.Snx
