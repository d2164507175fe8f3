import Mathlib.Algebra.BigOperators.Group.List.Basic
import Mathlib.Algebra.Order.Ring.Rat
import Mathlib.Data.List.Induction
import Mathlib.Tactic.NormNum
import Mathlib.Tactic.Ring
import VRJuggler.Base.CircularBuffer
import VRJuggler.Base.Run

/-!
# Short-term averages

`vpr::SampleLimitedStatCollector` keeps the last samples in a circular buffer, with their total.
The average divides the total by the size of the buffer, or by the time since the sample at its
last place, which is the oldest one in one of the places only.
-/
namespace VRJuggler.Vpr

/-! ## Numbers -/

/-- In microseconds. -/
abbrev Interval := BitVec 64

def Interval.secf (interval : Interval) : ℚ := (interval.toNat : ℚ) / 1000000

/-- The result of a division of numbers of type `double`, taken as exact. -/
inductive Double where
  | number (value : ℚ)
  | infinite (positive : Bool)
  | nan
  deriving DecidableEq

namespace Double

def divide (a b : ℚ) : Double :=
  if b ≠ 0 then .number (a / b)
  else if a = 0 then .nan
  else .infinite (0 < a)

/-- `operator>`. -/
def exceeds : Double → Double → Bool
  | .nan, _ => false
  | _, .nan => false
  | .number a, .number b => b < a
  | .number _, .infinite positive => !positive
  | .infinite positive, .number _ => positive
  | .infinite positive, .infinite positive' => positive && !positive'

end Double

/-! ## The collector -/

structure SampleLimitedStatCollector where
  mCurTotal : ℚ
  mSampleCount : BitVec 32
  mSTASampleLimit : Nat
  mMaxSTA : Double
  mRunningSTATotal : ℚ
  mInitialSampleTime : BitVec 64
  mPrevSampleTime1 : Interval
  mPrevSampleTime2 : Interval
  mPrevSample1 : ℚ
  mPrevSample2 : ℚ
  mCurSampleIndex : Nat
  mSampleBuffer : List (ℚ × Interval)

/-- A sample, and what the clock shows at the readings while it is added. -/
structure Sample where
  value : ℚ
  cur_time : Interval
  initial : BitVec 64
  sta_time : Interval

namespace SampleLimitedStatCollector

variable (TimeBased : Bool) (s : SampleLimitedStatCollector)

def reset : SampleLimitedStatCollector :=
  { s with
    mCurTotal := 0
    mSampleCount := 0
    mMaxSTA := .number 0
    mRunningSTATotal := 0
    mPrevSample1 := 0
    mPrevSample2 := 0
    mCurSampleIndex := 0
    mSampleBuffer := List.replicate s.mSTASampleLimit (0, 0) }

def create (sampleLimit : Nat) : SampleLimitedStatCollector :=
  reset {
    mCurTotal := 0
    mSampleCount := 0
    mSTASampleLimit := sampleLimit
    mMaxSTA := .number 0
    mRunningSTATotal := 0
    mInitialSampleTime := 0
    mPrevSampleTime1 := 0
    mPrevSampleTime2 := 0
    mPrevSample1 := 0
    mPrevSample2 := 0
    mCurSampleIndex := 0
    mSampleBuffer := [] }

/-- `cur_time` is the time of the call. -/
def getSTA (cur_time : Interval) : Double :=
  match s.mSampleBuffer.getLast? with
  | none => .number 0
  | some back =>
    if TimeBased then .divide s.mRunningSTATotal (Interval.secf (cur_time - back.2))
    else .divide s.mRunningSTATotal s.mSampleBuffer.length

/-- Undefined where the index is outside the buffer. -/
def addSample (x : Sample) : Option SampleLimitedStatCollector :=
  let mSampleCount := s.mSampleCount + 1
  let cur_time : Interval := if TimeBased then x.cur_time else 0
  s.mSampleBuffer[s.mCurSampleIndex]?.map fun old =>
    let t : SampleLimitedStatCollector :=
      { s with
        mCurTotal := s.mCurTotal + x.value
        mSampleCount := mSampleCount
        mInitialSampleTime :=
          if TimeBased = true ∧ mSampleCount = 1 then x.initial else s.mInitialSampleTime
        mPrevSampleTime1 := if TimeBased then s.mPrevSampleTime2 else s.mPrevSampleTime1
        mPrevSampleTime2 := if TimeBased then cur_time else s.mPrevSampleTime2
        mPrevSample1 := s.mPrevSample2
        mPrevSample2 := x.value
        mRunningSTATotal := s.mRunningSTATotal + x.value - old.1
        mSampleBuffer := s.mSampleBuffer.set s.mCurSampleIndex (x.value, cur_time)
        mCurSampleIndex := nextPlace s.mSTASampleLimit s.mCurSampleIndex }
    let sta_value := t.getSTA TimeBased x.sta_time
    { t with mMaxSTA := if sta_value.exceeds t.mMaxSTA then sta_value else t.mMaxSTA }

inductive Op where
  | addSample (x : Sample)
  | reset

def step (s : SampleLimitedStatCollector) : Op → Option SampleLimitedStatCollector
  | .addSample x => s.addSample TimeBased x
  | .reset => some s.reset

/-! ## What should hold -/

/-- The samples since the last reset, with their times. -/
def samples (TimeBased : Bool) (ops : List Op) : List (ℚ × Interval) :=
  ops.foldl (fun added op => match op with
    | .addSample x => added ++ [(x.value, if TimeBased then x.cur_time else 0)]
    | .reset => []) []

/-- The last samples that are within the limit. -/
def window (sampleLimit : Nat) (added : List (ℚ × Interval)) : List (ℚ × Interval) :=
  added.drop (added.length - sampleLimit)

def total (sampleLimit : Nat) (added : List (ℚ × Interval)) : ℚ :=
  ((window sampleLimit added).map Prod.fst).sum

/-- The total and the average are those of the window, and are empty after a reset. -/
structure Averages (sampleLimit : Nat) (added : List (ℚ × Interval)) (cur_time : Interval) :
    Prop where
  running : s.mRunningSTATotal = total sampleLimit added
  average : ∀ oldest, (window sampleLimit added).head? = some oldest →
    s.getSTA TimeBased cur_time = .divide (total sampleLimit added)
      (if TimeBased then Interval.secf (cur_time - oldest.2)
      else ((window sampleLimit added).length : ℚ))
  emptied : s.reset = { create sampleLimit with
    mInitialSampleTime := s.mInitialSampleTime
    mPrevSampleTime1 := s.mPrevSampleTime1
    mPrevSampleTime2 := s.mPrevSampleTime2 }

/-! ## When it holds -/

/-- The time of the sample at the last place of the buffer, which is added in every round. -/
def lastPlaceTime (sampleLimit : Nat) (added : List (ℚ × Interval)) : Interval :=
  ((added.take (added.length / sampleLimit * sampleLimit)).getLast?.getD (0, 0)).2

/-- The window is full, or the time at the last place of the buffer is that of the oldest sample.
Otherwise the total is zero. -/
def Precise (sampleLimit : Nat) (added : List (ℚ × Interval)) (cur_time : Interval) : Prop :=
  ∀ oldest, (window sampleLimit added).head? = some oldest →
    if TimeBased then
      lastPlaceTime sampleLimit added = oldest.2 ∨ (total sampleLimit added = 0 ∧
        cur_time ≠ lastPlaceTime sampleLimit added ∧ cur_time ≠ oldest.2)
    else sampleLimit ≤ added.length ∨ total sampleLimit added = 0

/-! ## Divisions -/

theorem Double.divide_eq_iff {a b c : ℚ} :
    Double.divide a b = .divide a c ↔ b = c ∨ (a = 0 ∧ b ≠ 0 ∧ c ≠ 0) := by
  by_cases left : b = 0
  · by_cases right : c = 0
    · simp [left, right]
    · by_cases zero : a = 0
      · simp [Double.divide, left, right, zero, Ne.symm right]
      · simp [Double.divide, left, right, zero, Ne.symm right]
  · by_cases right : c = 0
    · by_cases zero : a = 0
      · simp [Double.divide, left, right, zero]
      · simp [Double.divide, left, right, zero]
    · simp only [Double.divide, ne_eq, left, right, not_false_eq_true, if_true,
        Double.number.injEq, and_true]
      rw [div_eq_div_iff left right]
      constructor
      · intro equal
        by_cases zero : a = 0
        · exact .inr zero
        · exact .inl (mul_left_cancel₀ zero equal).symm
      · rintro (rfl | rfl)
        · rfl
        · rw [zero_mul, zero_mul]

theorem secf_inj {t u : Interval} : t.secf = u.secf ↔ t = u := by
  rw [Interval.secf, Interval.secf, div_left_inj' (by norm_num), Nat.cast_inj, BitVec.toNat_inj]

theorem secf_sub_inj {now t u : Interval} :
    Interval.secf (now - t) = Interval.secf (now - u) ↔ t = u := by
  rw [secf_inj]
  constructor
  · intro same
    bv_omega
  · rintro rfl
    rfl

theorem secf_sub_ne_zero {now t : Interval} : Interval.secf (now - t) ≠ 0 ↔ now ≠ t := by
  have zero : (0 : ℚ) = Interval.secf (now - now) := by
    rw [BitVec.sub_self]
    simp [Interval.secf]
  rw [zero, ne_eq, secf_sub_inj, eq_comm]

/-! ## The last samples -/

section Buffer

variable {TimeBased : Bool} {sampleLimit : Nat} {added : List (ℚ × Interval)}
  {s : SampleLimitedStatCollector} {cur_time : Interval}

/-- The places that no sample was written to count nothing. -/
theorem total_eq : total sampleLimit added =
    ((lastOf ((0 : ℚ), (0 : Interval)) sampleLimit added).map Prod.fst).sum := by
  rw [total, window]
  rcases Nat.le_total sampleLimit added.length with full | room
  · rw [lastOf_of_full full]
  · rw [lastOf_of_not_full room, Nat.sub_eq_zero_of_le room, List.drop_zero, List.map_append,
      List.sum_append, List.map_replicate, List.sum_replicate, nsmul_zero, zero_add]

/-- The buffer has the last samples, and the running total is theirs. -/
structure Holds (sampleLimit : Nat) (added : List (ℚ × Interval))
    (s : SampleLimitedStatCollector) : Prop where
  limit : s.mSTASampleLimit = sampleLimit
  buffer : Circular (0, 0) sampleLimit added s.mSampleBuffer s.mCurSampleIndex
  running : s.mRunningSTATotal = total sampleLimit added

theorem holds_reset (positive : 0 < sampleLimit) (limit : s.mSTASampleLimit = sampleLimit) :
    Holds sampleLimit [] s.reset where
  limit := limit
  buffer := by
    rw [reset, limit]
    exact .start positive
  running := by
    rw [total, window, List.drop_nil]
    rfl

theorem addSample_spec {old : ℚ × Interval} (x : Sample)
    (here : s.mSampleBuffer[s.mCurSampleIndex]? = some old) :
    ∃ t, s.addSample TimeBased x = some t ∧ t.mSTASampleLimit = s.mSTASampleLimit ∧
      t.mRunningSTATotal = s.mRunningSTATotal + x.value - old.1 ∧
      t.mCurSampleIndex = nextPlace s.mSTASampleLimit s.mCurSampleIndex ∧
      t.mSampleBuffer =
        s.mSampleBuffer.set s.mCurSampleIndex (x.value, if TimeBased then x.cur_time else 0) := by
  rw [addSample, here]
  exact ⟨_, rfl, rfl, rfl, rfl, rfl⟩

/-- A sample comes in, and the oldest one leaves the total. -/
theorem holds_addSample (holds : Holds sampleLimit added s) (x : Sample) :
    ∃ t, s.addSample TimeBased x = some t ∧
      Holds sampleLimit (added ++ [(x.value, if TimeBased then x.cur_time else 0)]) t := by
  have bound := holds.buffer.inside
  have positive : 0 < sampleLimit := Nat.lt_of_le_of_lt (Nat.zero_le _) bound
  have oldest := holds.buffer.oldest
  obtain ⟨old, here⟩ : ∃ old, s.mSampleBuffer[s.mCurSampleIndex]? = some old := by
    rw [← Option.isSome_iff_exists, List.getElem?_eq_getElem]
    · rfl
    · rw [holds.buffer.length_eq]
      exact bound
  rw [here] at oldest
  obtain ⟨rest, parts⟩ := List.head?_eq_some_iff.mp oldest.symm
  obtain ⟨t, added', limit, running, index, buffer⟩ := addSample_spec x here
  refine ⟨t, added', limit.trans holds.limit, ?_, ?_⟩
  · rw [buffer, index, holds.limit]
    exact holds.buffer.push
  · rw [running, holds.running, total_eq, total_eq, lastOf_append positive, parts]
    simp only [List.tail_cons, List.map_append, List.sum_append, List.map_cons, List.sum_cons,
      List.map_nil, List.sum_nil]
    ring

theorem holds_run (positive : 0 < sampleLimit) (ops : List Op) :
    ∃ s, run (step TimeBased) (create sampleLimit) ops = some s ∧
      Holds sampleLimit (samples TimeBased ops) s := by
  induction ops using List.reverseRecOn with
  | nil => exact ⟨_, rfl, holds_reset positive rfl⟩
  | append_singleton ops op ih =>
    obtain ⟨s, reached, holds⟩ := ih
    rw [run_append, reached, Option.bind_some, samples, List.foldl_append]
    cases op with
    | addSample x =>
      obtain ⟨t, here, after⟩ := holds_addSample holds x
      exact ⟨t, by rw [run_cons, step, here]; rfl, after⟩
    | reset => exact ⟨s.reset, rfl, holds_reset positive holds.limit⟩

/-! ## The average -/

/-- The average divides by what the claim divides by, or divides zero. -/
theorem average_iff (holds : Holds sampleLimit added s) {oldest : ℚ × Interval}
    (first : (window sampleLimit added).head? = some oldest) :
    s.getSTA TimeBased cur_time = .divide (total sampleLimit added)
      (if TimeBased then Interval.secf (cur_time - oldest.2)
      else ((window sampleLimit added).length : ℚ)) ↔
    if TimeBased then
      lastPlaceTime sampleLimit added = oldest.2 ∨ (total sampleLimit added = 0 ∧
        cur_time ≠ lastPlaceTime sampleLimit added ∧ cur_time ≠ oldest.2)
    else sampleLimit ≤ added.length ∨ total sampleLimit added = 0 := by
  have bound := holds.buffer.inside
  have back := holds.buffer.back
  rw [getSTA, back]
  dsimp only
  rw [holds.running, holds.buffer.length_eq]
  cases TimeBased with
  | true =>
    simp only [if_true]
    rw [Double.divide_eq_iff, secf_sub_inj, secf_sub_ne_zero, secf_sub_ne_zero]
    rfl
  | false =>
    have size : (window sampleLimit added).length = min sampleLimit added.length := by
      rw [window, List.length_drop]
      omega
    have some' : 0 < (window sampleLimit added).length := by
      obtain ⟨rest, parts⟩ := List.head?_eq_some_iff.mp first
      rw [parts]
      exact Nat.succ_pos _
    simp only [if_false, Bool.false_eq_true]
    rw [Double.divide_eq_iff, Nat.cast_inj, size]
    have left : (sampleLimit : ℚ) ≠ 0 := by
      rw [Nat.cast_ne_zero]
      omega
    have right : ((min sampleLimit added.length : Nat) : ℚ) ≠ 0 := by
      rw [Nat.cast_ne_zero]
      omega
    rw [and_iff_left ⟨left, right⟩]
    exact or_congr_left (by omega)

end Buffer

/-- After every sequence of samples and resets the total is that of the window, and the average
is that of the window just when the window is full, or when the last place of the buffer has the
oldest sample. -/
theorem averages_iff (TimeBased : Bool) (sampleLimit : Nat) (positive : 0 < sampleLimit)
    (ops : List Op) :
    ∃ s, run (step TimeBased) (create sampleLimit) ops = some s ∧ ∀ cur_time,
      (Averages TimeBased s sampleLimit (samples TimeBased ops) cur_time ↔
        Precise TimeBased sampleLimit (samples TimeBased ops) cur_time) := by
  obtain ⟨s, reached, holds⟩ := holds_run positive ops
  refine ⟨s, reached, fun cur_time => ?_⟩
  constructor
  · intro averages oldest first
    exact (average_iff holds first).mp (averages.average oldest first)
  · intro precise
    refine ⟨holds.running, fun oldest first => (average_iff holds first).mpr (precise oldest first),
      ?_⟩
    have limit := holds.limit
    subst limit
    rfl

theorem averages_iff_one : ∃ s, run (step true) (create 1) [.addSample ⟨1, 0, 0, 0⟩] = some s ∧
    ∀ cur_time, (Averages true s 1 (samples true [.addSample ⟨1, 0, 0, 0⟩]) cur_time ↔
      Precise true 1 (samples true [.addSample ⟨1, 0, 0, 0⟩]) cur_time) :=
  averages_iff true 1 (by decide) _

/-- One sample in a buffer of two: its average is half of it. -/
theorem average_of_one_halved : ¬ ∀ (TimeBased : Bool) (sampleLimit : Nat) (ops : List Op)
    (cur_time : Interval), 0 < sampleLimit →
      ∃ s, run (step TimeBased) (create sampleLimit) ops = some s ∧
        Averages TimeBased s sampleLimit (samples TimeBased ops) cur_time := by
  intro all
  obtain ⟨s, reached, averages⟩ := all false 2 [.addSample ⟨1, 0, 0, 0⟩] 0 (by decide)
  have average := averages.average (1, 0) rfl
  obtain ⟨t, again, holds⟩ := @holds_run false 2 (by decide) [.addSample ⟨1, 0, 0, 0⟩]
  obtain rfl := Option.some.inj (again.symm.trans reached)
  have precise := (average_iff holds rfl).mp average
  simp [total, window, samples] at precise

end SampleLimitedStatCollector

end VRJuggler.Vpr
