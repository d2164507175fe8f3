import Mathlib.Algebra.Field.Rat
import VRJuggler.Base.Run
import VRJuggler.Snx.OpenAL

/-!
# Parameters of sources

The parameters of a source are meant to be those that the settings of its alias decide on. The
setters write both copies, and ambient sounds are put at the origin. Two things are missing.
`bind` gives a source the relative flag and the position, but neither volume nor cutoff nor pitch
bend. And volume and cutoff are both written to the gain of the source, so that the later one
counts. A third slip is in `setAmbient`, which leaves a sound at the origin that is positional
again.

How gain depends on volume and cutoff is left open: what is proved holds for every dependence.
-/
namespace VRJuggler.Snx

namespace OpenAL

variable {φ μ ι : Type} [Zero φ] [One φ] [LE φ] [DecidableLE φ]

/-- What a program does with the implementation, and a sound that comes to its end. Which files
can be loaded may change from call to call. -/
inductive Op (φ μ ι : Type)
  | call (loads : String → Loading) (call : Call φ μ ι)
  | bind (loads : String → Loading) (sound : String)
  | unbind (sound : String)
  | finish (sound : String)

def step (slow : φ) (s : OpenAL φ μ ι) : Op φ μ ι → Option (OpenAL φ μ ι)
  | .call loads call => some (s.call slow loads call)
  | .bind loads sound => some (s.bind loads sound)
  | .unbind sound => some (s.unbind sound)
  | .finish sound => some (s.source sound .finish)

section Spec

variable (gain : φ → φ → φ) (slow : φ)

/-- The parameters that the settings decide on. -/
def rendered (info : SoundInfo φ) : Params φ where
  relative := info.ambient
  position := if info.ambient then (0, 0, 0) else info.position
  gain := gain info.volume info.cutoff
  pitch := pitchOf slow info.pitchbend

def Rendered (s : OpenAL φ μ ι) : Prop :=
  ∀ sound source, s.mBindLookup sound = some source →
    source.params = rendered gain slow (s.lookup sound)

/-- The settings that `bind` does not apply are those of a new source. -/
def Neutral (info : SoundInfo φ) : Prop :=
  gain info.volume info.cutoff = 1 ∧ pitchOf slow info.pitchbend = 1

/-- What a step applies is all that it should. -/
def Applied (s : OpenAL φ μ ι) : Op φ μ ι → Prop
  | .bind loads sound =>
    loads (s.lookup sound).filename = .loaded → Neutral gain slow (s.lookup sound)
  | .call loads (.configure _ description) =>
    loads description.filename = .loaded → Neutral gain slow description
  | .call loads (.trigger sound _) =>
    s.isBound sound = false → loads (s.lookup sound).filename = .loaded →
      Neutral gain slow (s.lookup sound)
  | .call _ (.setVolume sound amount) =>
    s.isBound sound → gain amount (s.lookup sound).cutoff = amount
  | .call _ (.setCutoff sound amount) =>
    s.isBound sound → gain (s.lookup sound).volume amount = amount
  | .call _ (.setAmbient sound ambient) =>
    s.isBound sound → ambient = false →
      (s.lookup sound).ambient = false ∨ (s.lookup sound).position = (0, 0, 0)
  | _ => True

end Spec

/-! ## One alias at a time -/

section Steps

variable {gain : φ → φ → φ} {slow : φ} {loads : String → Loading} {sound : String}
  {s t : OpenAL φ μ ι}

omit [One φ] in
theorem rendered_settings (info : SoundInfo φ) :
    rendered gain slow info.settings = rendered gain slow info := rfl

/-- The source of one alias shows its settings. -/
def Shows (gain : φ → φ → φ) (slow : φ) (sound : String) (s : OpenAL φ μ ι) : Prop :=
  ∀ source, s.mBindLookup sound = some source →
    source.params = rendered gain slow (s.lookup sound)

/-- What leaves the other aliases alone is right when it is right for its own. -/
theorem rendered_iff_shows (here : Rendered gain slow s)
    (sounds : ∀ other, other ≠ sound → t.mSounds.find other = s.mSounds.find other)
    (sources : ∀ other, other ≠ sound → t.mBindLookup other = s.mBindLookup other) :
    Rendered gain slow t ↔ Shows gain slow sound t := by
  constructor
  · intro all
    exact all sound
  · intro shows other source bound
    -- the other aliases keep settings and source
    by_cases same : other = sound
    · subst same
      exact shows source bound
    · have info : t.lookup other = s.lookup other := by
        rw [SoundImplementation.lookup, sounds other same, SoundImplementation.lookup]
      rw [info]
      exact here other source ((sources other same).symm.trans bound)

theorem rendered_iff_of_only (here : Rendered gain slow s) (only : Only sound s t) :
    Rendered gain slow t ↔ Shows gain slow sound t :=
  rendered_iff_shows here only.sounds only.sources

theorem shows_of_unbound (unbound : s.mBindLookup sound = none) : Shows gain slow sound s := by
  intro source bound
  rw [unbound] at bound
  cases bound

/-- A setter that writes both copies. -/
theorem shows_setter (sound : String) (change : SoundInfo φ → SoundInfo φ)
    (write : Source φ → Source φ) (params : Params φ → Params φ) (here : Rendered gain slow s)
    (writes : ∀ source, (write source).params = params source.params) :
    Shows gain slow sound ((s.settings (.edit sound change)).source sound write) ↔
      (s.isBound sound → params (rendered gain slow (s.lookup sound)) =
        rendered gain slow (change (s.lookup sound))) := by
  have info : ((s.settings (.edit sound change)).source sound write).lookup sound =
      change (s.lookup sound) := lookup_settings_self
  unfold Shows
  rw [info, mBindLookup_source_self, mBindLookup_settings, isBound]
  -- without a source only the settings are written
  cases bound : s.mBindLookup sound with
  | none => simp
  | some source =>
    have before := here sound source bound
    rw [Option.map_some, Option.isSome_some, ← before, ← writes]
    constructor
    · intro all _
      exact all _ rfl
    · intro same other found
      obtain rfl := Option.some.inj found
      exact same rfl

/-- What a binding shows that has just been made. -/
theorem shows_bind (started : s.isStarted = true) :
    Shows gain slow sound (s.bind loads sound) ↔
      (loads (s.lookup sound).filename = .loaded → Neutral gain slow (s.lookup sound)) := by
  have info : rendered gain slow ((s.bind loads sound).lookup sound) =
      rendered gain slow (s.lookup sound) := by
    rw [← rendered_settings, settings_bind loads started, rendered_settings]
  unfold Shows
  rw [info]
  -- a source that has just been bound has gain and pitch 1
  by_cases loaded : loads (s.lookup sound).filename = .loaded
  · obtain ⟨source, bound, params, -⟩ := mBindLookup_bind_of_loaded started loaded
    constructor
    · intro all _
      have same := params.symm.trans (all source bound)
      rw [boundParams, rendered, Params.mk.injEq] at same
      exact ⟨same.2.2.1.symm, same.2.2.2.symm⟩
    · intro neutral other found
      obtain ⟨one, pitch⟩ := neutral loaded
      obtain rfl := Option.some.inj (bound.symm.trans found)
      rw [params, boundParams, rendered, one, pitch]
  · have free := mBindLookup_bind_of_not_loaded started loaded
    constructor
    · intro _ there
      exact absurd there loaded
    · intro _ source bound
      rw [free] at bound
      cases bound

/-- Where the parameters stay and the settings they depend on, nothing is to be shown. -/
theorem shows_congr
    (params : (t.mBindLookup sound).map Source.params = (s.mBindLookup sound).map Source.params)
    (info : rendered gain slow (t.lookup sound) = rendered gain slow (s.lookup sound)) :
    Shows gain slow sound t ↔ Shows gain slow sound s := by
  -- what a source shows depends on its parameters and on the settings only
  have asParams (u : OpenAL φ μ ι) : Shows gain slow sound u ↔
      ∀ params, (u.mBindLookup sound).map Source.params = some params →
        params = rendered gain slow (u.lookup sound) := by
    simp only [Shows, Option.map_eq_some_iff]
    constructor
    · rintro all params ⟨source, bound, rfl⟩
      exact all source bound
    · intro all source bound
      exact all source.params ⟨source, bound, rfl⟩
  rw [asParams, asParams, params, info]

/-- A call for the play state of a source. -/
theorem shows_source {write : Source φ → Source φ}
    (kept : ∀ source, (write source).params = source.params) (here : Shows gain slow sound s) :
    Shows gain slow sound (s.source sound write) := by
  have params : ((s.source sound write).mBindLookup sound).map Source.params =
      (s.mBindLookup sound).map Source.params := by
    rw [mBindLookup_source_self, Option.map_map]
    exact congrArg (fun f => (s.mBindLookup sound).map f) (funext kept)
  exact (shows_congr params rfl).mpr here

/-- A change of settings that no parameter depends on. -/
theorem shows_edit {change : SoundInfo φ → SoundInfo φ}
    (kept : ∀ info, rendered gain slow (change info) = rendered gain slow info)
    (here : Shows gain slow sound s) :
    Shows gain slow sound (s.settings (.edit sound change)) := by
  intro source bound
  rw [lookup_settings_self, kept]
  exact here source bound

theorem shows_play {looping : Int} :
    Shows gain slow sound (s.play sound looping) ↔ Shows gain slow sound s :=
  shows_congr params_play (by rw [lookup_play])

/-! ## The calls -/

theorem rendered_trigger {looping : Int} (started : s.isStarted = true)
    (here : Rendered gain slow s) :
    Rendered gain slow (s.trigger loads sound looping) ↔
      (s.isBound sound = false → loads (s.lookup sound).filename = .loaded →
        Neutral gain slow (s.lookup sound)) := by
  rw [rendered_iff_of_only here (only_trigger loads sound looping s)]
  -- only a sound that is not bound is loaded
  cases bound : s.isBound sound with
  | true =>
    rw [trigger_of_bound bound, shows_play]
    have shows : Shows gain slow sound (s.settings (.trigger sound looping)) :=
      shows_edit (fun _ => rfl) (here sound)
    simp [shows]
  | false =>
    have shows : Shows gain slow sound (s.trigger loads sound looping) ↔
        Shows gain slow sound (bind loads sound (s.settings (.trigger sound looping))) := by
      rw [trigger_of_unbound bound]
      split
      · exact shows_play
      · exact Iff.rfl
    have began : (s.settings (.trigger sound looping)).isStarted = true := started
    rw [shows, shows_bind began, lookup_settings_trigger]
    simp [Neutral]

theorem rendered_configure {description : SoundInfo φ} (started : s.isStarted = true)
    (here : Rendered gain slow s) :
    Rendered gain slow (s.configure loads sound description) ↔
      (loads description.filename = .loaded → Neutral gain slow description) := by
  obtain ⟨t, same⟩ : ∃ t, t = (s.unbind sound).settings (.store sound description) := ⟨_, rfl⟩
  have stored : Only sound s t := by
    rw [same]
    exact (only_unbind sound s).trans (only_edit sound _ _)
  have began : t.isStarted = true := stored.isStarted.trans started
  have whole : s.configure loads sound description = bind loads sound t := by
    rw [configure_of_started started, same]
  -- the description that is stored is the one that is bound
  have info : t.lookup sound =
      { description with
        triggerOnNextBind := ((s.unbind sound).lookup sound).triggerOnNextBind } := by
    rw [same]
    exact SoundImplementation.lookup_edit_self
  rw [whole, rendered_iff_of_only here (stored.trans (only_bind loads sound t)), shows_bind began,
    info]
  rfl

theorem rendered_remove (started : s.isStarted = true) (here : Rendered gain slow s) :
    Rendered gain slow (s.remove sound) := by
  have only := only_unbind sound s
  have free : ((s.unbind sound).settings (.erase sound)).mBindLookup sound = none :=
    mBindLookup_unbind started
  rw [remove_of_started started]
  have sounds (other : String) (elsewhere : other ≠ sound) :
      ((s.unbind sound).settings (.erase sound)).mSounds.find other = s.mSounds.find other :=
    (SortedMap.find_erase_of_ne _ elsewhere).trans (only.sounds other elsewhere)
  exact (rendered_iff_shows (t := (s.unbind sound).settings (.erase sound)) here sounds
    only.sources).mpr (shows_of_unbound free)

theorem rendered_setAmbient {ambient : Bool} (here : Rendered gain slow s) :
    Rendered gain slow (s.setAmbient sound ambient) ↔
      (s.isBound sound → ambient = false →
        (s.lookup sound).ambient = false ∨ (s.lookup sound).position = (0, 0, 0)) := by
  rw [rendered_iff_of_only here (only_setAmbient sound ambient s)]
  have written := shows_setter sound (fun info : SoundInfo φ => { info with ambient := ambient })
    (fun source : Source φ =>
      if ambient then
        { source with params := { source.params with relative := true, position := (0, 0, 0) } }
      else { source with params := { source.params with relative := false } })
    (fun params : Params φ =>
      if ambient then { params with relative := true, position := (0, 0, 0) }
      else { params with relative := false })
    here (by
      intro source
      cases ambient with
      | true => rfl
      | false => rfl)
  refine written.trans (imp_congr_right fun _ => ?_)
  -- the position is lost while a sound is ambient, and not written back
  cases ambient with
  | true => simp [rendered]
  | false =>
    cases before : (s.lookup sound).ambient with
    | true => simp [rendered, before, eq_comm]
    | false => simp [rendered, before]

theorem rendered_setPosition {position : φ × φ × φ} (here : Rendered gain slow s) :
    Rendered gain slow (s.setPosition sound position) := by
  rw [rendered_iff_of_only here (only_setPosition sound position s)]
  intro source bound
  rw [mBindLookup_setPosition, Option.map_eq_some_iff] at bound
  obtain ⟨before, there, rfl⟩ := bound
  have shown := here sound before there
  rw [lookup_setPosition]
  cases ambient : (s.lookup sound).ambient with
  | true => simp [shown, rendered, ambient]
  | false => simp [shown, rendered, ambient]

theorem rendered_setPitchBend {amount : φ} (here : Rendered gain slow s) :
    Rendered gain slow (s.setPitchBend slow sound amount) := by
  have only : Only sound s (s.setPitchBend slow sound amount) :=
    (only_edit sound _ s).trans (only_source sound _ _)
  rw [rendered_iff_of_only here only]
  have written := shows_setter sound (fun info => { info with pitchbend := amount })
    (fun source => { source with params := { source.params with pitch := pitchOf slow amount } })
    (fun params => { params with pitch := pitchOf slow amount }) here fun _ => rfl
  exact written.mpr fun _ => rfl

/-- Only when the gain is the volume. -/
theorem rendered_setVolume {amount : φ} (here : Rendered gain slow s) :
    Rendered gain slow (s.setVolume sound amount) ↔
      (s.isBound sound → gain amount (s.lookup sound).cutoff = amount) := by
  have only : Only sound s (s.setVolume sound amount) :=
    (only_edit sound _ s).trans (only_source sound _ _)
  rw [rendered_iff_of_only here only]
  have written := shows_setter sound (fun info => { info with volume := amount })
    (fun source => { source with params := { source.params with gain := amount } })
    (fun params => { params with gain := amount }) here fun _ => rfl
  refine written.trans (imp_congr_right fun _ => ?_)
  rw [eq_comm]
  simp [rendered]

theorem rendered_setCutoff {amount : φ} (here : Rendered gain slow s) :
    Rendered gain slow (s.setCutoff sound amount) ↔
      (s.isBound sound → gain (s.lookup sound).volume amount = amount) := by
  have only : Only sound s (s.setCutoff sound amount) :=
    (only_edit sound _ s).trans (only_source sound _ _)
  rw [rendered_iff_of_only here only]
  have written := shows_setter sound (fun info => { info with cutoff := amount })
    (fun source => { source with params := { source.params with gain := amount } })
    (fun params => { params with gain := amount }) here fun _ => rfl
  refine written.trans (imp_congr_right fun _ => ?_)
  rw [eq_comm]
  simp [rendered]

/-- One step from a state in which all sources show the settings. -/
theorem rendered_step {o : Op φ μ ι} (started : s.isStarted = true) (here : Rendered gain slow s)
    (stepped : step slow s o = some t) : Rendered gain slow t ↔ Applied gain slow s o := by
  -- calls that change play states only
  have played {write : Source φ → Source φ} (sound : String)
      (kept : ∀ source, (write source).params = source.params) :
      Rendered gain slow (s.source sound write) :=
    (rendered_iff_of_only here (only_source sound write s)).mpr (shows_source kept (here sound))
  cases o with
  | bind loads sound =>
    obtain rfl := Option.some.inj stepped
    exact (rendered_iff_of_only here (only_bind loads sound s)).trans (shows_bind started)
  | unbind sound =>
    obtain rfl := Option.some.inj stepped
    have shows : Shows gain slow sound (s.unbind sound) :=
      shows_of_unbound (mBindLookup_unbind started)
    exact iff_of_true ((rendered_iff_of_only here (only_unbind sound s)).mpr shows) trivial
  | finish sound =>
    obtain rfl := Option.some.inj stepped
    exact iff_of_true (played sound Source.params_finish) trivial
  | call loads call =>
    obtain rfl := Option.some.inj stepped
    cases call with
    | configureAPI sai => exact iff_of_true here trivial
    | configure sound description => exact rendered_configure started here
    | remove sound => exact iff_of_true (rendered_remove started here) trivial
    | trigger sound repeats => exact rendered_trigger started here
    | stop sound =>
      have shows : Shows gain slow sound (s.settings (.stop sound)) :=
        shows_edit (fun _ => rfl) (here sound)
      have stopped := shows_source Source.params_stop shows
      exact iff_of_true ((rendered_iff_of_only here (only_stop sound s)).mpr stopped) trivial
    | pause sound => exact iff_of_true (played sound Source.params_pause) trivial
    | unpause sound => exact iff_of_true (played sound Source.params_resume) trivial
    | setRetriggerable sound onOff =>
      have shows : Shows gain slow sound (s.settings (.setRetriggerable sound onOff)) :=
        shows_edit (fun _ => rfl) (here sound)
      exact iff_of_true ((rendered_iff_of_only here (only_edit sound _ s)).mpr shows) trivial
    | setAmbient sound ambient => exact rendered_setAmbient here
    | setPitchBend sound amount => exact iff_of_true (rendered_setPitchBend here) trivial
    | setVolume sound amount => exact rendered_setVolume here
    | setCutoff sound amount => exact rendered_setCutoff here
    | setPosition sound position => exact iff_of_true (rendered_setPosition here) trivial
    | setListenerPosition mat => exact iff_of_true here trivial

/-! ## Runs -/

theorem isStarted_step {o : Op φ μ ι} (begun : s.isStarted = true)
    (stepped : step slow s o = some t) : t.isStarted = true := by
  cases o with
  | call loads call =>
    obtain rfl := Option.some.inj stepped
    exact (frame_call slow loads s call).1.trans begun
  | bind loads sound =>
    obtain rfl := Option.some.inj stepped
    exact (only_bind loads sound s).isStarted.trans begun
  | unbind sound =>
    obtain rfl := Option.some.inj stepped
    exact (only_unbind sound s).isStarted.trans begun
  | finish sound =>
    obtain rfl := Option.some.inj stepped
    exact begun

theorem runs (slow : φ) (s : OpenAL φ μ ι) (os : List (Op φ μ ι)) :
    ∃ t, run (step slow) s os = some t := by
  induction os generalizing s with
  | nil => exact ⟨s, rfl⟩
  | cons o os ih =>
    obtain ⟨t, stepped⟩ : ∃ t, step slow s o = some t := by
      cases o with
      | _ => exact ⟨_, rfl⟩
    obtain ⟨u, rest⟩ := ih t
    exact ⟨u, run_cons_eq_some.mpr ⟨t, stepped, rest⟩⟩

/-- The sources show the settings in all states of a run just when every binding finds neutral
volume, cutoff and pitch bend, the gain is the amount that is set last, and no sound at another
place than the origin becomes positional again while it is bound. -/
theorem rendered_always_iff (gain : φ → φ → φ) (slow : φ) (base : SoundImplementation φ μ ι)
    (os : List (Op φ μ ι)) :
    (∀ front u, front <+: os → run (step slow) (started base) front = some u →
      Rendered gain slow u) ↔ Meets (step slow) (Applied gain slow) (started base) os := by
  obtain ⟨t, reached⟩ := runs slow (started base) os
  apply run_always_iff_meets (fun s => s.isStarted = true) _ _ _ rfl _ reached
  · intro s o t begun here stepped
    exact ⟨rendered_step begun here stepped, fun _ => isStarted_step begun stepped⟩
  · intro sound source bound
    cases bound

end Steps

/-! ## A muted sound -/

/-- A sound that is muted when it is configured. -/
def mutedSound : SoundInfo ℚ := { SoundInfo.new with filename := "hum.wav", volume := 0 }

def mutedCalls : List (Op ℚ Unit Unit) :=
  [.call (fun _ => .loaded) (.configure "hum" mutedSound)]

def mutedTwice : List (Op ℚ Unit Unit) :=
  mutedCalls ++ [.call (fun _ => .loaded) (.setVolume "hum" 0)]

/-- The settings of a sound do not decide on the gain of its source: one that is configured as
muted is heard until the same volume is set again. -/
theorem gain_of_last_setter :
    ¬ ∃ render : SoundInfo ℚ → Params ℚ, ∀ (os : List (Op ℚ Unit Unit)) (u : OpenAL ℚ Unit Unit),
      run (step (1 / 1000)) (started ⟨"OpenAL", (), SortedMap.empty, ()⟩) os = some u →
        ∀ sound source, u.mBindLookup sound = some source →
          source.params = render (u.lookup sound) := by
  rintro ⟨render, determined⟩
  have shown (os : List (Op ℚ Unit Unit)) (params : Params ℚ) (info : SoundInfo ℚ)
      (ran : (run (step (1 / 1000)) (started ⟨"OpenAL", (), SortedMap.empty, ()⟩) os).map
        (fun u => ((u.mBindLookup "hum").map Source.params, u.lookup "hum")) =
          some (some params, info)) : params = render info := by
    obtain ⟨u, reached, seen⟩ := Option.map_eq_some_iff.mp ran
    obtain ⟨mapped, rfl⟩ := Prod.mk.inj seen
    obtain ⟨source, bound, rfl⟩ := Option.map_eq_some_iff.mp mapped
    exact determined os u reached "hum" source bound
  have heard := shown mutedCalls ⟨false, (0, 0, 0), 1, 1⟩ mutedSound (by decide +kernel)
  have muted := shown mutedTwice ⟨false, (0, 0, 0), 0, 1⟩ mutedSound (by decide +kernel)
  have same : (1 : ℚ) = 0 := congrArg Params.gain (heard.trans muted.symm)
  exact absurd same (by decide)

end OpenAL

end VRJuggler.Snx
