import Mathlib.Data.String.Basic
import VRJuggler.Base.SortedMap

/-!
# Settings of sounds

Sonix plays sounds by the alias they are configured under. Every implementation keeps the
settings of each alias in `mSounds`. An amount is of any type with the constants that the program
compares and writes, the listener position and the settings of the whole API are of any types.
-/
namespace VRJuggler.Snx

/-! ## Settings -/

inductive DataSource
  | filesystem
  | data16Mono
  | data8Mono
deriving DecidableEq, Repr

/-- One sound: its alias, where its data is and how it is to be played. The last two fields are
the implementation's own. -/
structure SoundInfo (φ : Type) where
  aliasName : String
  datasource : DataSource
  filename : String
  position : φ × φ × φ
  ambient : Bool
  retriggerable : Bool
  /-- How often the sound is played, `-1` for ever. -/
  repeats : Int
  pitchbend : φ
  cutoff : φ
  volume : φ
  streaming : Bool
  triggerOnNextBind : Bool
  repeatCountdown : Int
deriving DecidableEq, Repr

variable {φ μ ι : Type}

/-- The settings without the two fields that are for internal use only. -/
def SoundInfo.settings (info : SoundInfo φ) : SoundInfo φ :=
  { info with triggerOnNextBind := false, repeatCountdown := 0 }

def SoundInfo.new [Zero φ] [One φ] : SoundInfo φ where
  aliasName := ""
  datasource := .filesystem
  filename := ""
  position := (0, 0, 0)
  ambient := false
  retriggerable := false
  repeats := 1
  pitchbend := 1
  cutoff := 1
  volume := 1
  streaming := false
  triggerOnNextBind := false
  repeatCountdown := 0

/-- What every implementation has. -/
structure SoundImplementation (φ μ ι : Type) where
  mName : String
  mSoundAPIInfo : ι
  mSounds : SortedMap String (SoundInfo φ)
  mListenerPos : μ

namespace SoundImplementation

variable [Zero φ] [One φ]

def lookup (sound : String) (s : SoundImplementation φ μ ι) : SoundInfo φ :=
  (s.mSounds.find sound).getD SoundInfo.new

/-- A change of what `lookup` refers to, which is inserted when it is not there. -/
def edit (sound : String) (change : SoundInfo φ → SoundInfo φ) (s : SoundImplementation φ μ ι) :
    SoundImplementation φ μ ι :=
  { s with mSounds := s.mSounds.insert sound (change (s.lookup sound)) }

def trigger (sound : String) (looping : Int) :
    SoundImplementation φ μ ι → SoundImplementation φ μ ι :=
  edit sound fun info => { info with repeats := looping, repeatCountdown := looping }

def stop (sound : String) : SoundImplementation φ μ ι → SoundImplementation φ μ ι :=
  edit sound fun info => { info with repeatCountdown := 0 }

def setRetriggerable (sound : String) (onOff : Bool) :
    SoundImplementation φ μ ι → SoundImplementation φ μ ι :=
  edit sound fun info => { info with retriggerable := onOff }

def setAmbient (sound : String) (ambient : Bool) :
    SoundImplementation φ μ ι → SoundImplementation φ μ ι :=
  edit sound fun info => { info with ambient := ambient }

def setPitchBend (sound : String) (amount : φ) :
    SoundImplementation φ μ ι → SoundImplementation φ μ ι :=
  edit sound fun info => { info with pitchbend := amount }

def setVolume (sound : String) (amount : φ) :
    SoundImplementation φ μ ι → SoundImplementation φ μ ι :=
  edit sound fun info => { info with volume := amount }

def setCutoff (sound : String) (amount : φ) :
    SoundImplementation φ μ ι → SoundImplementation φ μ ι :=
  edit sound fun info => { info with cutoff := amount }

def setPosition (sound : String) (position : φ × φ × φ) :
    SoundImplementation φ μ ι → SoundImplementation φ μ ι :=
  edit sound fun info => { info with position := position }

def setListenerPosition (position : μ) (s : SoundImplementation φ μ ι) :
    SoundImplementation φ μ ι :=
  { s with mListenerPos := position }

def configureAPI (sai : ι) (s : SoundImplementation φ μ ι) : SoundImplementation φ μ ι :=
  { s with mSoundAPIInfo := sai }

/-- What `configure` stores between `unbind` and `bind`. -/
def store (sound : String) (description : SoundInfo φ) :
    SoundImplementation φ μ ι → SoundImplementation φ μ ι :=
  -- `unbind` may have noted that the sound is to be triggered again
  edit sound fun temp => { description with triggerOnNextBind := temp.triggerOnNextBind }

def erase (sound : String) (s : SoundImplementation φ μ ι) : SoundImplementation φ μ ι :=
  { s with mSounds := s.mSounds.erase sound }

/-- The state of another implementation. No sound is bound by it. -/
def copy (si s : SoundImplementation φ μ ι) : SoundImplementation φ μ ι :=
  -- the sounds are taken over as settings; what is bound stays with the implementation
  { s with
    mName := si.mName
    mSounds := si.mSounds
    mListenerPos := si.mListenerPos
    mSoundAPIInfo := si.mSoundAPIInfo }

/-! ### What a change leaves -/

variable {sound other : String} {change : SoundInfo φ → SoundInfo φ}
  {s : SoundImplementation φ μ ι}

theorem find_edit_self :
    (s.edit sound change).mSounds.find sound = some (change (s.lookup sound)) :=
  SortedMap.find_insert_self _ _ _

theorem find_edit_of_ne (elsewhere : other ≠ sound) :
    (s.edit sound change).mSounds.find other = s.mSounds.find other :=
  SortedMap.find_insert_of_ne _ _ elsewhere

@[simp] theorem lookup_edit_self :
    (s.edit sound change).lookup sound = change (s.lookup sound) := by
  rw [lookup, find_edit_self, Option.getD_some]

theorem lookup_edit_of_ne (elsewhere : other ≠ sound) :
    (s.edit sound change).lookup other = s.lookup other := by
  rw [lookup, find_edit_of_ne elsewhere, lookup]

theorem find_of_isSome (there : (s.mSounds.find sound).isSome) :
    s.mSounds.find sound = some (s.lookup sound) := by
  obtain ⟨info, found⟩ := Option.isSome_iff_exists.mp there
  rw [lookup, found, Option.getD_some]

theorem lookup_of_find {info : SoundInfo φ} (found : s.mSounds.find sound = some info) :
    s.lookup sound = info := by
  rw [lookup, found, Option.getD_some]

end SoundImplementation

/-! ## The interface of all implementations -/

/-- What Sonix asks of the implementation in use. -/
inductive Call (φ μ ι : Type)
  | configureAPI (sai : ι)
  | configure (sound : String) (description : SoundInfo φ)
  | remove (sound : String)
  | trigger (sound : String) (repeats : Int)
  | stop (sound : String)
  | pause (sound : String)
  | unpause (sound : String)
  | setRetriggerable (sound : String) (onOff : Bool)
  | setAmbient (sound : String) (ambient : Bool)
  | setPitchBend (sound : String) (amount : φ)
  | setVolume (sound : String) (amount : φ)
  | setCutoff (sound : String) (amount : φ)
  | setPosition (sound : String) (position : φ × φ × φ)
  | setListenerPosition (mat : μ)

end VRJuggler.Snx
