import Mathlib.Logic.Function.Basic
import VRJuggler.Snx.SoundImplementation

/-!
# The implementation over OpenAL

An alias that is bound has a source of the library, with a play state and with parameters of its
own that the setters write beside the settings. To bind an alias loads its file and generates a
source. `trigger` binds an alias that is not bound, and `bind` triggers a sound that was playing
when it was unbound.

What the program asserts (`startAPI must be called prior to this function`) is not tested; an
implementation that is not started has no sources.
-/
namespace VRJuggler.Snx

variable {φ μ ι : Type}

/-! ## Sources -/

/-- The parameters of a source of the library that the settings decide on. -/
structure Params (φ : Type) where
  relative : Bool
  position : φ × φ × φ
  gain : φ
  pitch : φ
deriving DecidableEq, Repr

inductive PlayState
  | initial
  | playing
  | paused
  | stopped
deriving DecidableEq, Repr

structure Source (φ : Type) where
  params : Params φ
  looping : Bool
  state : PlayState
deriving DecidableEq, Repr

namespace Source

/-- A source as the library generates it. -/
def new [Zero φ] [One φ] : Source φ where
  params := { relative := false, position := (0, 0, 0), gain := 1, pitch := 1 }
  looping := false
  state := .initial

def play (looping : Bool) (source : Source φ) : Source φ :=
  { source with looping := looping, state := .playing }

def resume (source : Source φ) : Source φ :=
  if source.state = .paused then { source with state := .playing } else source

def pause (source : Source φ) : Source φ :=
  if source.state = .playing then { source with state := .paused } else source

/-- A source that has not been played stays as it is. -/
def stop (source : Source φ) : Source φ :=
  if source.state = .initial then source else { source with state := .stopped }

/-- The data of a source that is played once comes to its end. -/
def finish (source : Source φ) : Source φ :=
  if source.state = .playing ∧ source.looping = false then { source with state := .stopped }
  else source

theorem params_stop (source : Source φ) : source.stop.params = source.params := by
  unfold stop
  split <;> rfl

theorem params_pause (source : Source φ) : source.pause.params = source.params := by
  unfold pause
  split <;> rfl

theorem params_resume (source : Source φ) : source.resume.params = source.params := by
  unfold resume
  split <;> rfl

theorem params_finish (source : Source φ) : source.finish.params = source.params := by
  unfold finish
  split <;> rfl

end Source

/-! ## Calls -/

/-- What an attempt to load the data of a file comes to. -/
inductive Loading
  /-- The file does not exist, or the library refuses the buffer or the source. -/
  | refused
  /-- The file exists and no data can be read from it. -/
  | unreadable
  | loaded
deriving DecidableEq, Repr

/-- The implementation over OpenAL; `mBindLookup` has the source of each alias that is bound. -/
structure OpenAL (φ μ ι : Type) extends SoundImplementation φ μ ι where
  mBindLookup : String → Option (Source φ)
  isStarted : Bool

namespace OpenAL

/-- An implementation that has been started with settings and has bound nothing. -/
def started (base : SoundImplementation φ μ ι) : OpenAL φ μ ι where
  toSoundImplementation := base
  mBindLookup _ := none
  isStarted := true

/-- A change of the settings alone. -/
def settings (change : SoundImplementation φ μ ι → SoundImplementation φ μ ι)
    (s : OpenAL φ μ ι) : OpenAL φ μ ι :=
  { s with toSoundImplementation := change s.toSoundImplementation }

/-- A call of the library for the source of an alias, made when the alias is bound. -/
def source (sound : String) (change : Source φ → Source φ) (s : OpenAL φ μ ι) : OpenAL φ μ ι :=
  { s with
    mBindLookup := Function.update s.mBindLookup sound ((s.mBindLookup sound).map change) }

def isBound (sound : String) (s : OpenAL φ μ ι) : Bool := (s.mBindLookup sound).isSome

def stateOf (sound : String) (s : OpenAL φ μ ι) : PlayState :=
  match s.mBindLookup sound with
  | some source => source.state
  | none => .initial

/-- A paused sound counts as playing. -/
def isPlaying (sound : String) (s : OpenAL φ μ ι) : Bool :=
  s.stateOf sound = .playing || s.stateOf sound = .paused

def isPaused (sound : String) (s : OpenAL φ μ ι) : Bool := s.stateOf sound = .paused

/-- A call for an alias leaves what it is not about: the other aliases and their sources, the
listener and what describes the implementation. The alias itself stays there. -/
structure Only (sound : String) (s t : OpenAL φ μ ι) : Prop where
  present : (s.mSounds.find sound).isSome → (t.mSounds.find sound).isSome
  sounds : ∀ other, other ≠ sound → t.mSounds.find other = s.mSounds.find other
  sources : ∀ other, other ≠ sound → t.mBindLookup other = s.mBindLookup other
  isStarted : t.isStarted = s.isStarted
  mName : t.mName = s.mName
  mSoundAPIInfo : t.mSoundAPIInfo = s.mSoundAPIInfo
  mListenerPos : t.mListenerPos = s.mListenerPos

section Parts

variable {sound other : String} {change : SoundImplementation φ μ ι → SoundImplementation φ μ ι}
  {write : Source φ → Source φ} {s t u : OpenAL φ μ ι}

@[simp] theorem mBindLookup_settings : (s.settings change).mBindLookup = s.mBindLookup := rfl

@[simp] theorem isStarted_settings : (s.settings change).isStarted = s.isStarted := rfl

@[simp] theorem isStarted_source : (s.source sound write).isStarted = s.isStarted := rfl

@[simp] theorem mSounds_source : (s.source sound write).mSounds = s.mSounds := rfl

@[simp] theorem mBindLookup_source_self :
    (s.source sound write).mBindLookup sound = (s.mBindLookup sound).map write :=
  Function.update_self ..

theorem mBindLookup_source_of_ne (elsewhere : other ≠ sound) :
    (s.source sound write).mBindLookup other = s.mBindLookup other :=
  Function.update_of_ne elsewhere ..

theorem Only.refl (sound : String) (s : OpenAL φ μ ι) : Only sound s s :=
  ⟨id, fun _ _ => rfl, fun _ _ => rfl, rfl, rfl, rfl, rfl⟩

theorem Only.trans (first : Only sound s t) (second : Only sound t u) : Only sound s u where
  present there := second.present (first.present there)
  sounds other elsewhere := (second.sounds other elsewhere).trans (first.sounds other elsewhere)
  sources other elsewhere := (second.sources other elsewhere).trans (first.sources other elsewhere)
  isStarted := second.isStarted.trans first.isStarted
  mName := second.mName.trans first.mName
  mSoundAPIInfo := second.mSoundAPIInfo.trans first.mSoundAPIInfo
  mListenerPos := second.mListenerPos.trans first.mListenerPos

theorem only_source (sound : String) (write : Source φ → Source φ) (s : OpenAL φ μ ι) :
    Only sound s (s.source sound write) where
  present := id
  sounds _ _ := rfl
  sources _ elsewhere := mBindLookup_source_of_ne elsewhere
  isStarted := rfl
  mName := rfl
  mSoundAPIInfo := rfl
  mListenerPos := rfl

theorem only_update (sound : String) (bound : Option (Source φ)) (s : OpenAL φ μ ι) :
    Only sound s { s with mBindLookup := Function.update s.mBindLookup sound bound } where
  present := id
  sounds _ _ := rfl
  sources _ elsewhere := Function.update_of_ne elsewhere ..
  isStarted := rfl
  mName := rfl
  mSoundAPIInfo := rfl
  mListenerPos := rfl

end Parts

variable [Zero φ] [One φ]

section Settings

variable {sound other : String} {edited : SoundInfo φ → SoundInfo φ} {write : Source φ → Source φ}
  {s : OpenAL φ μ ι}

@[simp] theorem lookup_source : (s.source sound write).lookup other = s.lookup other := rfl

@[simp] theorem lookup_settings_self :
    (s.settings (.edit sound edited)).lookup sound = edited (s.lookup sound) :=
  SoundImplementation.lookup_edit_self

theorem only_edit (sound : String) (edited : SoundInfo φ → SoundInfo φ) (s : OpenAL φ μ ι) :
    Only sound s (s.settings (.edit sound edited)) where
  present _ := Option.isSome_of_eq_some SoundImplementation.find_edit_self
  sounds _ elsewhere := SoundImplementation.find_edit_of_ne elsewhere
  sources _ _ := rfl
  isStarted := rfl
  mName := rfl
  mSoundAPIInfo := rfl
  mListenerPos := rfl

end Settings

def stop (sound : String) (s : OpenAL φ μ ι) : OpenAL φ μ ι :=
  (s.settings (.stop sound)).source sound .stop

def pause (sound : String) (s : OpenAL φ μ ι) : OpenAL φ μ ι := s.source sound .pause

def unpause (sound : String) (s : OpenAL φ μ ι) : OpenAL φ μ ι := s.source sound .resume

def setAmbient (sound : String) (ambient : Bool) (s : OpenAL φ μ ι) : OpenAL φ μ ι :=
  (s.settings (.setAmbient sound ambient)).source sound fun source =>
    if ambient then
      -- an ambient sound is at the listener
      { source with params := { source.params with relative := true, position := (0, 0, 0) } }
    -- its position is not written back
    else { source with params := { source.params with relative := false } }

def setPosition (sound : String) (position : φ × φ × φ) (s : OpenAL φ μ ι) : OpenAL φ μ ι :=
  let s := s.settings (.setPosition sound position)
  -- an ambient sound stays where the listener is
  if (s.lookup sound).ambient then s
  else s.source sound fun source =>
    { source with params := { source.params with position := position } }

/-- The pitch that the library is given; zero or less is not legal. -/
def pitchOf [LE φ] [DecidableLE φ] (slow amount : φ) : φ := if amount ≤ 0 then slow else amount

/-- `slow` is the least pitch that the program sets, 0.001. -/
def setPitchBend [LE φ] [DecidableLE φ] (slow : φ) (sound : String) (amount : φ)
    (s : OpenAL φ μ ι) : OpenAL φ μ ι :=
  (s.settings (.setPitchBend sound amount)).source sound fun source =>
    { source with params := { source.params with pitch := pitchOf slow amount } }

def setVolume (sound : String) (amount : φ) (s : OpenAL φ μ ι) : OpenAL φ μ ι :=
  (s.settings (.setVolume sound amount)).source sound fun source =>
    { source with params := { source.params with gain := amount } }

/-- The library has no cutoff, and the gain is used instead. -/
def setCutoff (sound : String) (amount : φ) (s : OpenAL φ μ ι) : OpenAL φ μ ι :=
  (s.settings (.setCutoff sound amount)).source sound fun source =>
    { source with params := { source.params with gain := amount } }

/-- Take the source of an alias away; a sound that is playing is marked. -/
def unbind (sound : String) (s : OpenAL φ μ ι) : OpenAL φ μ ι :=
  if s.isStarted = false then s
  else
    let s :=
      -- a sound that is stopped here should be triggered next time
      if s.isPlaying sound then
        (s.stop sound).settings (.edit sound fun info => { info with triggerOnNextBind := true })
      else s
    { s with mBindLookup := Function.update s.mBindLookup sound none }

/-- The source that `bind` generates when the data has been loaded. -/
def generate (sound : String) (s : OpenAL φ μ ι) : OpenAL φ μ ι :=
  let info := s.lookup sound
  let s := { s with mBindLookup := Function.update s.mBindLookup sound (some Source.new) }
  (s.setAmbient sound info.ambient).setPosition sound info.position

/-- An alias that is bound is unbound before it is bound again. -/
def release (sound : String) (s : OpenAL φ μ ι) : OpenAL φ μ ι :=
  let s := s.settings (.edit sound id)
  -- an alias that is bound is bound afresh
  if s.isBound sound then s.unbind sound else s

/-- What `bind` does up to the question whether the sound was playing. -/
def load (loads : String → Loading) (sound : String) (s : OpenAL φ μ ι) : OpenAL φ μ ι :=
  let s := s.release sound
  if loads (s.lookup sound).filename = .loaded then s.generate sound else s

/-- What `trigger` does when the sound is bound. -/
def play (sound : String) (looping : Int) (s : OpenAL φ μ ι) : OpenAL φ μ ι :=
  if s.isPaused sound ∨ (s.lookup sound).retriggerable ∨ s.isPlaying sound = false then
    s.source sound (.play (looping = -1 || 1 < looping))
  else s

/-! ### What is left of an alias -/

section Left

variable {loads : String → Loading} {sound : String} {s : OpenAL φ μ ι}

/-- The settings that `unbind` leaves of a sound, which was playing or not. -/
def unboundInfo (playing : Bool) (info : SoundInfo φ) : SoundInfo φ :=
  if playing then { info with repeatCountdown := 0, triggerOnNextBind := true } else info

/-- The parameters that `bind` gives a source. -/
def boundParams (info : SoundInfo φ) : Params φ where
  relative := info.ambient
  position := if info.ambient then (0, 0, 0) else info.position
  gain := 1
  pitch := 1

theorem only_stop (sound : String) (s : OpenAL φ μ ι) : Only sound s (s.stop sound) :=
  (only_edit sound _ s).trans (only_source sound _ _)

theorem only_unbind (sound : String) (s : OpenAL φ μ ι) : Only sound s (s.unbind sound) := by
  unfold unbind
  split
  · exact .refl sound s
  · dsimp only
    split
    · exact ((only_stop sound s).trans (only_edit sound _ _)).trans (only_update sound none _)
    · exact only_update sound none s

theorem lookup_unbind (started : s.isStarted = true) :
    (s.unbind sound).lookup sound = unboundInfo (s.isPlaying sound) (s.lookup sound) := by
  rw [unbind, if_neg (by simp [started])]
  unfold unboundInfo
  cases s.isPlaying sound with
  | true =>
    rw [if_pos rfl, if_pos rfl]
    -- the base class takes the countdown back when the sound is stopped
    have stopped : (s.stop sound).lookup sound = { s.lookup sound with repeatCountdown := 0 } :=
      SoundImplementation.lookup_edit_self
    have marked : ((s.stop sound).settings (.edit sound fun info =>
        { info with triggerOnNextBind := true })).lookup sound =
          { (s.stop sound).lookup sound with triggerOnNextBind := true } := lookup_settings_self
    rw [stopped] at marked
    exact marked
  | false => rfl

theorem mBindLookup_unbind (started : s.isStarted = true) :
    (s.unbind sound).mBindLookup sound = none := by
  rw [unbind, if_neg (by simp [started])]
  exact Function.update_self ..

theorem only_setAmbient (sound : String) (ambient : Bool) (s : OpenAL φ μ ι) :
    Only sound s (s.setAmbient sound ambient) :=
  (only_edit sound _ s).trans (only_source sound _ _)

theorem only_setPosition (sound : String) (position : φ × φ × φ) (s : OpenAL φ μ ι) :
    Only sound s (s.setPosition sound position) := by
  unfold setPosition
  dsimp only
  split
  · exact only_edit sound _ s
  · exact (only_edit sound _ s).trans (only_source sound _ _)

theorem lookup_setAmbient (ambient : Bool) :
    (s.setAmbient sound ambient).lookup sound = { s.lookup sound with ambient := ambient } :=
  SoundImplementation.lookup_edit_self

theorem lookup_setPosition (position : φ × φ × φ) :
    (s.setPosition sound position).lookup sound =
      { s.lookup sound with position := position } := by
  have here : (s.settings (.setPosition sound position)).lookup sound =
      { s.lookup sound with position := position } := SoundImplementation.lookup_edit_self
  unfold setPosition
  dsimp only
  split
  · exact here
  · exact here

/-- Where a sound is put: an ambient one is not. -/
theorem mBindLookup_setPosition (position : φ × φ × φ) :
    (s.setPosition sound position).mBindLookup sound =
      (s.mBindLookup sound).map fun source =>
        if (s.lookup sound).ambient then source
        else { source with params := { source.params with position := position } } := by
  have here : (s.settings (.setPosition sound position)).lookup sound =
      { s.lookup sound with position := position } := SoundImplementation.lookup_edit_self
  unfold setPosition
  dsimp only
  -- which of the two branches is taken is decided after the settings have been changed
  rw [here]
  split
  · rw [mBindLookup_settings]
    simp
  · exact mBindLookup_source_self

theorem only_generate (sound : String) (s : OpenAL φ μ ι) : Only sound s (s.generate sound) :=
  ((only_update sound _ s).trans (only_setAmbient sound _ _)).trans (only_setPosition sound _ _)

theorem lookup_generate : (s.generate sound).lookup sound = s.lookup sound := by
  unfold generate
  rw [lookup_setPosition, lookup_setAmbient]

theorem mBindLookup_generate :
    (s.generate sound).mBindLookup sound =
      some { (Source.new : Source φ) with params := boundParams (s.lookup sound) } := by
  have bound : ({ s with
      mBindLookup := Function.update s.mBindLookup sound (some Source.new) } :
      OpenAL φ μ ι).mBindLookup sound = some Source.new := Function.update_self ..
  unfold generate
  dsimp only
  rw [mBindLookup_setPosition, lookup_setAmbient, setAmbient, mBindLookup_source_self,
    mBindLookup_settings, bound, Option.map_some, Option.map_some]
  -- `setPosition` leaves an ambient sound at the origin
  cases ambient : (s.lookup sound).ambient with
  | true => simp [boundParams, Source.new, ambient]
  | false => simp [boundParams, Source.new, ambient]

theorem only_release (sound : String) (s : OpenAL φ μ ι) : Only sound s (s.release sound) := by
  unfold release
  dsimp only
  split
  · exact (only_edit sound id s).trans (only_unbind sound _)
  · exact only_edit sound id s

omit [Zero φ] [One φ] in
theorem isPlaying_of_not_bound (unbound : s.isBound sound = false) :
    s.isPlaying sound = false := by
  unfold isBound at unbound
  unfold isPlaying stateOf
  rw [Option.isSome_eq_false_iff, Option.isNone_iff_eq_none] at unbound
  rw [unbound]
  rfl

theorem lookup_release (started : s.isStarted = true) :
    (s.release sound).lookup sound = unboundInfo (s.isPlaying sound) (s.lookup sound) := by
  have here : (s.settings (.edit sound id)).lookup sound = s.lookup sound := lookup_settings_self
  unfold release
  dsimp only
  split
  · rw [lookup_unbind (by exact started), here]
    rfl
  -- without a source nothing is playing, and nothing is marked
  next unbound =>
    have silent : s.isPlaying sound = false :=
      isPlaying_of_not_bound (Bool.eq_false_iff.mpr unbound)
    rw [silent, here]
    rfl

theorem mBindLookup_release (started : s.isStarted = true) :
    (s.release sound).mBindLookup sound = none := by
  unfold release
  dsimp only
  split
  · exact mBindLookup_unbind started
  next unbound => exact Option.not_isSome_iff_eq_none.mp unbound

omit [Zero φ] [One φ] in
theorem filename_unboundInfo (playing : Bool) (info : SoundInfo φ) :
    (unboundInfo playing info).filename = info.filename := by
  unfold unboundInfo
  split <;> rfl

theorem only_load (loads : String → Loading) (sound : String) (s : OpenAL φ μ ι) :
    Only sound s (s.load loads sound) := by
  unfold load
  dsimp only
  split
  · exact (only_release sound s).trans (only_generate sound _)
  · exact only_release sound s

theorem lookup_load (loads : String → Loading) (started : s.isStarted = true) :
    (s.load loads sound).lookup sound = unboundInfo (s.isPlaying sound) (s.lookup sound) := by
  unfold load
  dsimp only
  split
  · rw [lookup_generate, lookup_release started]
  · exact lookup_release started

theorem mBindLookup_load (loads : String → Loading) (started : s.isStarted = true) :
    (s.load loads sound).mBindLookup sound =
      if loads (s.lookup sound).filename = .loaded then
        some { (Source.new : Source φ) with params := boundParams (s.lookup sound) }
      else none := by
  have same (playing : Bool) (info : SoundInfo φ) :
      boundParams (unboundInfo playing info) = boundParams info := by
    unfold unboundInfo
    split <;> rfl
  unfold load
  dsimp only
  rw [lookup_release started, filename_unboundInfo]
  split
  · rw [mBindLookup_generate, lookup_release started, same]
  · exact mBindLookup_release started

end Left

/-! ## Triggering and binding -/

/-- A sound that was playing or is marked may be triggered by `bind`. -/
def bindMeasure (sound : String) (s : OpenAL φ μ ι) : ℕ :=
  if (s.lookup sound).triggerOnNextBind ∨ s.isBound sound then 3 else 1

/-- An alias that is not bound is bound by `trigger`. -/
def triggerMeasure (sound : String) (s : OpenAL φ μ ι) : ℕ :=
  if s.isBound sound then 0 else if (s.lookup sound).triggerOnNextBind then 4 else 2

/-- The mark of `unbind` is taken away. -/
def unmark (sound : String) (s : OpenAL φ μ ι) : OpenAL φ μ ι :=
  s.settings (.edit sound fun info => { info with triggerOnNextBind := false })

theorem lookup_unmark {sound : String} {s : OpenAL φ μ ι} :
    (s.unmark sound).lookup sound = { s.lookup sound with triggerOnNextBind := false } :=
  SoundImplementation.lookup_edit_self

theorem lookup_settings_trigger {sound : String} {looping : Int} {s : OpenAL φ μ ι} :
    (s.settings (.trigger sound looping)).lookup sound =
      { s.lookup sound with repeats := looping, repeatCountdown := looping } :=
  SoundImplementation.lookup_edit_self

theorem bindMeasure_trigger {sound : String} {looping : Int} {s : OpenAL φ μ ι}
    (unbound : s.isBound sound = false) :
    bindMeasure sound (s.settings (.trigger sound looping)) < triggerMeasure sound s := by
  have still : (s.settings (.trigger sound looping)).isBound sound = false := unbound
  rw [bindMeasure, triggerMeasure, unbound, lookup_settings_trigger, still]
  cases (s.lookup sound).triggerOnNextBind with
  | true => decide
  | false => decide

theorem triggerMeasure_load {loads : String → Loading} {sound : String} {s : OpenAL φ μ ι}
    (started : s.isStarted = true)
    (marked : ((s.load loads sound).lookup sound).triggerOnNextBind = true) :
    triggerMeasure sound ((s.load loads sound).unmark sound) < bindMeasure sound s := by
  -- only a sound that was bound can have been marked by `unbind`
  have before : (s.lookup sound).triggerOnNextBind ∨ s.isBound sound = true := by
    rw [lookup_load loads started] at marked
    by_cases bound : s.isBound sound = true
    · exact Or.inr bound
    · rw [isPlaying_of_not_bound (Bool.eq_false_iff.mpr bound)] at marked
      exact Or.inl marked
  have unmarked : (((s.load loads sound).unmark sound).lookup sound).triggerOnNextBind = false :=
    by rw [lookup_unmark]
  rw [bindMeasure, if_pos before, triggerMeasure, unmarked]
  split <;> decide

mutual

def trigger (loads : String → Loading) (sound : String) (looping : Int) (s : OpenAL φ μ ι) :
    OpenAL φ μ ι :=
  if s.isBound sound = false then
    let s := bind loads sound (s.settings (.trigger sound looping))
    if s.isBound sound then s.play sound looping else s
  else (s.settings (.trigger sound looping)).play sound looping
termination_by triggerMeasure sound s
decreasing_by exact bindMeasure_trigger ‹_›

/-- A file whose data cannot be read ends the call before the question whether the sound was
playing. -/
def bind (loads : String → Loading) (sound : String) (s : OpenAL φ μ ι) : OpenAL φ μ ι :=
  if s.isStarted = true then
    if loads (s.lookup sound).filename = .unreadable then s.load loads sound
    else if ((s.load loads sound).lookup sound).triggerOnNextBind = true then
      trigger loads sound ((s.load loads sound).lookup sound).repeats
        ((s.load loads sound).unmark sound)
    else s.load loads sound
  else s
termination_by bindMeasure sound s
decreasing_by exact triggerMeasure_load ‹_› ‹_›

end

def configure (loads : String → Loading) (sound : String) (description : SoundInfo φ)
    (s : OpenAL φ μ ι) : OpenAL φ μ ι :=
  let s := (s.unbind sound).settings (.store sound description)
  if s.isStarted then s.bind loads sound else s

def remove (sound : String) (s : OpenAL φ μ ι) : OpenAL φ μ ι :=
  let s := if s.isStarted then s.unbind sound else s
  s.settings (.erase sound)

/-- A call of the interface. The position of the listener is passed on to the library, where
nothing reads it. -/
def call [LE φ] [DecidableLE φ] (slow : φ) (loads : String → Loading) (s : OpenAL φ μ ι) :
    Call φ μ ι → OpenAL φ μ ι
  | .configureAPI sai => s.settings (.configureAPI sai)
  | .configure sound description => s.configure loads sound description
  | .remove sound => s.remove sound
  | .trigger sound repeats => s.trigger loads sound repeats
  | .stop sound => s.stop sound
  | .pause sound => s.pause sound
  | .unpause sound => s.unpause sound
  | .setRetriggerable sound onOff => s.settings (.setRetriggerable sound onOff)
  | .setAmbient sound ambient => s.setAmbient sound ambient
  | .setPitchBend sound amount => s.setPitchBend slow sound amount
  | .setVolume sound amount => s.setVolume sound amount
  | .setCutoff sound amount => s.setCutoff sound amount
  | .setPosition sound position => s.setPosition sound position
  | .setListenerPosition mat => s.settings (.setListenerPosition mat)

/-! ### What triggering and binding leave -/

section Bound

variable {loads : String → Loading} {sound : String} {looping : Int} {s : OpenAL φ μ ι}

omit [Zero φ] [One φ] in
theorem isBound_eq_false_iff : s.isBound sound = false ↔ s.mBindLookup sound = none := by
  rw [isBound, Option.isSome_eq_false_iff, Option.isNone_iff_eq_none]

theorem only_play (sound : String) (looping : Int) (s : OpenAL φ μ ι) :
    Only sound s (s.play sound looping) := by
  unfold play
  split
  · exact only_source sound _ s
  · exact .refl sound s

theorem lookup_play : (s.play sound looping).lookup sound = s.lookup sound := by
  unfold play
  split <;> rfl

/-- Whether a sound can be played from its beginning, and with which end. -/
theorem mBindLookup_play_of_initial (looping : Int) {source : Source φ}
    (bound : s.mBindLookup sound = some source)
    (silent : source.state = .initial) :
    (s.play sound looping).mBindLookup sound =
      some (source.play (looping = -1 || 1 < looping)) := by
  have idle : s.isPlaying sound = false := by simp [isPlaying, stateOf, bound, silent]
  rw [play, if_pos (Or.inr (Or.inr idle)), mBindLookup_source_self, bound, Option.map_some]

theorem params_play : ((s.play sound looping).mBindLookup sound).map Source.params =
    (s.mBindLookup sound).map Source.params := by
  unfold play
  split
  · rw [mBindLookup_source_self, Option.map_map]
    rfl
  · rfl

theorem trigger_of_bound (bound : s.isBound sound = true) :
    trigger loads sound looping s = (s.settings (.trigger sound looping)).play sound looping := by
  rw [trigger, if_neg (by simp [bound])]

theorem trigger_of_unbound (unbound : s.isBound sound = false) :
    trigger loads sound looping s =
      if (bind loads sound (s.settings (.trigger sound looping))).isBound sound then
        (bind loads sound (s.settings (.trigger sound looping))).play sound looping
      else bind loads sound (s.settings (.trigger sound looping)) := by
  rw [trigger, if_pos unbound]

theorem bind_of_unreadable (started : s.isStarted = true)
    (unreadable : loads (s.lookup sound).filename = .unreadable) :
    bind loads sound s = s.load loads sound := by
  rw [bind, if_pos started, if_pos unreadable]

theorem bind_of_quiet (started : s.isStarted = true)
    (quiet : ((s.load loads sound).lookup sound).triggerOnNextBind = false) :
    bind loads sound s = s.load loads sound := by
  rw [bind, if_pos started]
  split
  · rfl
  · rw [if_neg (by rw [quiet]; decide)]

/-- A sound to be played again is triggered once it is bound. -/
theorem bind_of_marked (started : s.isStarted = true)
    (readable : loads (s.lookup sound).filename ≠ .unreadable)
    (marked : ((s.load loads sound).lookup sound).triggerOnNextBind = true) :
    bind loads sound s =
      trigger loads sound ((s.load loads sound).lookup sound).repeats
        ((s.load loads sound).unmark sound) := by
  rw [bind, if_pos started, if_neg readable, if_pos marked]

/-- A sound that cannot be loaded stays silent when it is triggered: its file is tried once. -/
theorem trigger_of_refused (started : s.isStarted = true) (unbound : s.isBound sound = false)
    (refused : loads (s.lookup sound).filename ≠ .loaded)
    (unmarked : (s.lookup sound).triggerOnNextBind = false) :
    trigger loads sound looping s = (s.settings (.trigger sound looping)).load loads sound := by
  obtain ⟨t, same⟩ : ∃ t, t = s.settings (.trigger sound looping) := ⟨_, rfl⟩
  have begun : t.isStarted = true := by rw [same]; exact started
  have free : t.isBound sound = false := by rw [same]; exact unbound
  have here : t.lookup sound =
      { s.lookup sound with repeats := looping, repeatCountdown := looping } := by
    rw [same, lookup_settings_trigger]
  -- the mark has been cleared before, so that the nested call does not trigger again
  have quiet : ((t.load loads sound).lookup sound).triggerOnNextBind = false := by
    rw [lookup_load loads begun, isPlaying_of_not_bound free, here]
    exact unmarked
  have still : (t.load loads sound).isBound sound = false := by
    rw [isBound_eq_false_iff, mBindLookup_load loads begun, here, if_neg refused]
  rw [trigger_of_unbound unbound, ← same, bind_of_quiet begun quiet, still]
  rfl

/-- A sound that is bound is triggered again when it is marked or was playing until then. -/
def again (sound : String) (s : OpenAL φ μ ι) : Bool :=
  (s.lookup sound).triggerOnNextBind || s.isPlaying sound

theorem marked_load (loads : String → Loading) (started : s.isStarted = true) :
    ((s.load loads sound).lookup sound).triggerOnNextBind = s.again sound := by
  rw [lookup_load loads started, again]
  cases s.isPlaying sound with
  | true => exact (Bool.or_true _).symm
  | false => exact (Bool.or_false _).symm

omit [Zero φ] [One φ] in
theorem settings_unboundInfo (playing : Bool) (info : SoundInfo φ) :
    (unboundInfo playing info).settings = info.settings := by
  unfold unboundInfo
  split <;> rfl

theorem settings_load (started : s.isStarted = true) :
    ((s.load loads sound).lookup sound).settings = (s.lookup sound).settings := by
  rw [lookup_load loads started, settings_unboundInfo]

/-- The state from which a sound is triggered that has been bound anew. -/
def reloaded (loads : String → Loading) (sound : String) (s : OpenAL φ μ ι) : OpenAL φ μ ι :=
  ((s.load loads sound).unmark sound).settings
    (.trigger sound ((s.load loads sound).lookup sound).repeats)

theorem lookup_reloaded :
    (s.reloaded loads sound).lookup sound =
      { (s.load loads sound).lookup sound with
        triggerOnNextBind := false
        repeatCountdown := ((s.load loads sound).lookup sound).repeats } := by
  rw [reloaded, lookup_settings_trigger, lookup_unmark]

theorem only_reloaded (loads : String → Loading) (sound : String) (s : OpenAL φ μ ι) :
    Only sound s (s.reloaded loads sound) :=
  ((only_load loads sound s).trans (only_edit sound _ _)).trans (only_edit sound _ _)

theorem isStarted_reloaded : (s.reloaded loads sound).isStarted = s.isStarted :=
  (only_reloaded loads sound s).isStarted

theorem mBindLookup_reloaded :
    (s.reloaded loads sound).mBindLookup sound = (s.load loads sound).mBindLookup sound := rfl

/-- What `bind` comes to: the sound is only loaded, is triggered on its new source, or is tried
once more in vain. -/
theorem bind_cases (loads : String → Loading) (sound : String) (started : s.isStarted = true) :
    bind loads sound s = s.load loads sound ∧
        (loads (s.lookup sound).filename = .unreadable ∨ s.again sound = false) ∨
      bind loads sound s =
          (s.reloaded loads sound).play sound ((s.load loads sound).lookup sound).repeats ∧
        loads (s.lookup sound).filename = .loaded ∧ s.again sound = true ∨
      bind loads sound s = (s.reloaded loads sound).load loads sound ∧
        loads (s.lookup sound).filename = .refused := by
  by_cases unreadable : loads (s.lookup sound).filename = .unreadable
  · exact Or.inl ⟨bind_of_unreadable started unreadable, Or.inl unreadable⟩
  · cases replayed : s.again sound with
    | false =>
      have quiet := (marked_load loads started).trans replayed
      exact Or.inl ⟨bind_of_quiet started quiet, Or.inr rfl⟩
    | true =>
      have marked := (marked_load loads started).trans replayed
      have next := bind_of_marked started unreadable marked
      have begun : ((s.load loads sound).unmark sound).isStarted = true :=
        (only_load loads sound s).isStarted.trans started
      -- triggered with the mark cleared: on the new source, or in vain
      by_cases loaded : loads (s.lookup sound).filename = .loaded
      · have bound : ((s.load loads sound).unmark sound).isBound sound = true := by
          rw [isBound, unmark, mBindLookup_settings, mBindLookup_load loads started, if_pos loaded]
          rfl
        exact Or.inr (Or.inl ⟨next.trans (trigger_of_bound bound), loaded, rfl⟩)
      · have file : (((s.load loads sound).unmark sound).lookup sound).filename =
            (s.lookup sound).filename := by
          rw [lookup_unmark, lookup_load loads started, filename_unboundInfo]
        have free : ((s.load loads sound).unmark sound).isBound sound = false := by
          rw [isBound_eq_false_iff, unmark, mBindLookup_settings, mBindLookup_load loads started,
            if_neg loaded]
        have silent : trigger loads sound ((s.load loads sound).lookup sound).repeats
            ((s.load loads sound).unmark sound) = (s.reloaded loads sound).load loads sound :=
          trigger_of_refused begun free (by rw [file]; exact loaded) (by rw [lookup_unmark])
        refine Or.inr (Or.inr ⟨next.trans silent, ?_⟩)
        cases outcome : loads (s.lookup sound).filename with
        | refused => rfl
        | unreadable => exact absurd outcome unreadable
        | loaded => exact absurd outcome loaded

theorem only_bind (loads : String → Loading) (sound : String) (s : OpenAL φ μ ι) :
    Only sound s (bind loads sound s) := by
  cases started : s.isStarted with
  | false =>
    rw [bind, if_neg (by simp [started])]
    exact .refl sound s
  | true =>
    rcases bind_cases loads sound started with
      ⟨same, -⟩ | ⟨same, -, -⟩ | ⟨same, -⟩
    · rw [same]
      exact only_load loads sound s
    · rw [same]
      exact (only_reloaded loads sound s).trans (only_play sound _ _)
    · rw [same]
      exact (only_reloaded loads sound s).trans (only_load loads sound _)

theorem only_trigger (loads : String → Loading) (sound : String) (looping : Int)
    (s : OpenAL φ μ ι) : Only sound s (s.trigger loads sound looping) := by
  have begun := only_edit sound
    (fun info => { info with repeats := looping, repeatCountdown := looping }) s
  cases bound : s.isBound sound with
  | true =>
    rw [trigger_of_bound bound]
    exact begun.trans (only_play sound looping _)
  | false =>
    rw [trigger_of_unbound bound]
    split
    · exact (begun.trans (only_bind loads sound _)).trans (only_play sound looping _)
    · exact begun.trans (only_bind loads sound _)

theorem only_configure (loads : String → Loading) (sound : String) (description : SoundInfo φ)
    (s : OpenAL φ μ ι) : Only sound s (s.configure loads sound description) := by
  have stored : Only sound s ((s.unbind sound).settings (.store sound description)) :=
    (only_unbind sound s).trans (only_edit sound _ _)
  unfold configure
  dsimp only
  split
  · exact stored.trans (only_bind loads sound _)
  · exact stored

theorem configure_of_started {description : SoundInfo φ} (begun : s.isStarted = true) :
    s.configure loads sound description =
      ((s.unbind sound).settings (.store sound description)).bind loads sound :=
  if_pos ((only_unbind sound s).isStarted.trans begun)

theorem remove_of_started (begun : s.isStarted = true) :
    s.remove sound = (s.unbind sound).settings (.erase sound) := by
  unfold remove
  rw [if_pos begun]

/-- No call starts an implementation, stops it or gives it another name. -/
theorem frame_call [LE φ] [DecidableLE φ] (slow : φ) (loads : String → Loading)
    (s : OpenAL φ μ ι) (call : Call φ μ ι) :
    (s.call slow loads call).isStarted = s.isStarted ∧
      (s.call slow loads call).mName = s.mName := by
  have alone {sound : String} {t : OpenAL φ μ ι} (only : Only sound s t) :
      t.isStarted = s.isStarted ∧ t.mName = s.mName := ⟨only.isStarted, only.mName⟩
  cases call with
  | configure sound description => exact alone (only_configure loads sound description s)
  | remove sound =>
    have only := only_unbind sound s
    unfold OpenAL.call remove
    dsimp only
    split
    · exact ⟨only.isStarted, only.mName⟩
    · exact ⟨rfl, rfl⟩
  | trigger sound repeats => exact alone (only_trigger loads sound repeats s)
  | setPosition sound position => exact alone (only_setPosition sound position s)
  | _ => exact ⟨rfl, rfl⟩

/-- To bind a sound changes none of its settings. -/
theorem settings_bind (loads : String → Loading) (started : s.isStarted = true) :
    ((bind loads sound s).lookup sound).settings = (s.lookup sound).settings := by
  have kept : ((s.reloaded loads sound).lookup sound).settings = (s.lookup sound).settings := by
    rw [lookup_reloaded]
    exact settings_load started
  rcases bind_cases loads sound started with
    ⟨same, -⟩ | ⟨same, -, -⟩ | ⟨same, -⟩
  · rw [same, settings_load started]
  · rw [same, lookup_play, kept]
  · rw [same, settings_load (isStarted_reloaded.trans started), kept]

/-- A sound whose file is loaded is bound afresh and triggered when it is marked or was playing. -/
theorem mBindLookup_bind_of_loaded (started : s.isStarted = true)
    (loaded : loads (s.lookup sound).filename = .loaded) :
    ∃ source, (bind loads sound s).mBindLookup sound = some source ∧
      source.params = boundParams (s.lookup sound) ∧
      source.state = if s.again sound then .playing else .initial := by
  have fresh : (s.load loads sound).mBindLookup sound = _ := mBindLookup_load loads started
  rw [if_pos loaded] at fresh
  -- the source of `load` is the one that is played
  rcases bind_cases loads sound started with
    ⟨same, unreadable | quiet⟩ | ⟨same, -, replayed⟩ | ⟨same, refused⟩
  · rw [loaded] at unreadable
    cases unreadable
  · rw [same, fresh, quiet]
    exact ⟨_, rfl, rfl, rfl⟩
  · have bound := mBindLookup_play_of_initial ((s.load loads sound).lookup sound).repeats
      (mBindLookup_reloaded.trans fresh) rfl
    rw [same, bound, replayed]
    exact ⟨_, rfl, rfl, rfl⟩
  · rw [loaded] at refused
    cases refused

theorem mBindLookup_bind_of_not_loaded (started : s.isStarted = true)
    (refused : loads (s.lookup sound).filename ≠ .loaded) :
    (bind loads sound s).mBindLookup sound = none := by
  rcases bind_cases loads sound started with
    ⟨same, -⟩ | ⟨-, loaded, -⟩ | ⟨same, -⟩
  · rw [same, mBindLookup_load loads started, if_neg refused]
  · exact absurd loaded refused
  · have file : ((s.reloaded loads sound).lookup sound).filename = (s.lookup sound).filename := by
      rw [lookup_reloaded, lookup_load loads started, filename_unboundInfo]
    rw [same, mBindLookup_load loads (isStarted_reloaded.trans started), file, if_neg refused]

/-- The mark is gone when the sound has been loaded. -/
theorem marked_bind_of_loaded (started : s.isStarted = true)
    (loaded : loads (s.lookup sound).filename = .loaded) :
    ((bind loads sound s).lookup sound).triggerOnNextBind = false := by
  rcases bind_cases loads sound started with
    ⟨same, unreadable | quiet⟩ | ⟨same, -, -⟩ | ⟨same, refused⟩
  · rw [loaded] at unreadable
    cases unreadable
  · rw [same, marked_load loads started, quiet]
  · rw [same, lookup_play, lookup_reloaded]
  · rw [loaded] at refused
    cases refused

end Bound

end OpenAL

end VRJuggler.Snx
