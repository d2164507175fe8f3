import VRJuggler.Base.Sums
import VRJuggler.Vpr.RWMutex

/-!
# Who holds the reader/writer lock

In every run of any number of threads a writer is alone with the lock and `refCount` counts its
holders. A lock that nobody holds leaves no thread asleep without one that was woken to retry.
-/
namespace VRJuggler.Vpr

variable {ι : Type} [DecidableEq ι] [Fintype ι] {s : LockSystem ι} {t : ι}

/-! ## What the lock is for -/

namespace LockSystem

/-- A writer has its one lock alone. -/
def Exclusive (s : LockSystem ι) : Prop :=
  ∀ t, 0 < (s.threads t).writes → (s.threads t).writes = 1 ∧
    ∀ u, (s.threads u).reads = 0 ∧ (u ≠ t → (s.threads u).writes = 0)

/-- The sum of numbers that go with the threads. -/
def total (s : LockSystem ι) (f : LockThread → Nat) : Nat := ∑ t, f (s.threads t)

/-- `refCount` is -1 when a writer has the lock, and else the number of read locks. -/
def CountsHolders (s : LockSystem ι) : Prop :=
  (s.mutex.refCount = -1 ↔ ∃ t, 0 < (s.threads t).writes) ∧
    ((∀ t, (s.threads t).writes = 0) → s.mutex.refCount = s.total LockThread.reads)

def Free (s : LockSystem ι) : Prop := ∀ t, ¬ s.Holds t

/-- Some thread sleeps. -/
def Sleeping (s : LockSystem ι) : Prop :=
  ∃ t, t ∈ s.mutex.waitingReaders ∨ t ∈ s.mutex.waitingWriters

/-- Some thread was woken to retry. -/
def Retrying (s : LockSystem ι) : Prop := ∃ t, s.WokenReader t ∨ s.WokenWriter t

end LockSystem

/-! ## Counting -/

def LockThread.at (place : Place) (thread : LockThread) : Nat :=
  if thread.place = place then 1 else 0

namespace LockSystem

omit [Fintype ι] in
@[simp] theorem threads_move (m : RWMutex ι) (thread : LockThread) (u : ι) :
    (s.move t m thread).threads u = if u = t then thread else s.threads u :=
  Function.update_apply ..

omit [Fintype ι] in
@[simp] theorem mutex_move (m : RWMutex ι) (thread : LockThread) :
    (s.move t m thread).mutex = m := rfl

omit [Fintype ι] in
@[simp] theorem thrown_move (m : RWMutex ι) (thread : LockThread) :
    (s.move t m thread).thrown = s.thrown := rfl

omit [Fintype ι] in
/-- A writer other than the thread that goes on is woken as before, if no more writers sleep. -/
theorem WokenWriter.move {u : ι} (woken : s.WokenWriter u) {m : RWMutex ι} (thread : LockThread)
    (other : u ≠ t) (sleepers : m.waitingWriters ⊆ s.mutex.waitingWriters) :
    (s.move t m thread).WokenWriter u := by
  obtain ⟨place, awake⟩ := woken
  refine ⟨?_, fun asleep => awake (sleepers asleep)⟩
  rw [threads_move, if_neg other]
  exact place

/-- Only the part of the thread that goes on changes in a sum. -/
theorem total_move (m : RWMutex ι) (thread : LockThread) (f : LockThread → Nat) :
    (s.move t m thread).total f + f (s.threads t) = s.total f + f thread :=
  sum_update_add s.threads t thread fun _ => f

omit [DecidableEq ι] in
theorem total_eq_zero {f : LockThread → Nat} : s.total f = 0 ↔ ∀ t, f (s.threads t) = 0 := by
  simp [total]

omit [DecidableEq ι] in
theorem le_total (f : LockThread → Nat) (t : ι) : f (s.threads t) ≤ s.total f :=
  Finset.single_le_sum (f := fun t => f (s.threads t)) (fun _ _ => Nat.zero_le _)
    (Finset.mem_univ t)

/-- Two threads have no more than all together. -/
theorem add_le_total (f : LockThread → Nat) {t u : ι} (other : u ≠ t) :
    f (s.threads t) + f (s.threads u) ≤ s.total f := by
  have pair := Finset.sum_le_sum_of_subset (f := fun t => f (s.threads t))
    (Finset.subset_univ ({t, u} : Finset ι))
  rwa [Finset.sum_pair (Ne.symm other)] at pair

end LockSystem

/-! ## The invariant -/

/-- Either one write lock is held and nothing else, or only read locks are. -/
def Held (refCount : Int) (reads writes : Nat) : Prop :=
  (refCount = -1 ∧ writes = 1 ∧ reads = 0) ∨ (refCount = reads ∧ writes = 0)

open LockSystem LockThread

/-- The counts of the lock are those of the threads. -/
structure Counted (s : LockSystem ι) : Prop where
  intact : s.thrown = none
  readers : s.mutex.numWaitingReaders = s.total (LockThread.at .readWait)
  writers : s.mutex.numWaitingWriters = s.total (LockThread.at .writeWait)
  readersSleep : ∀ u ∈ s.mutex.waitingReaders, (s.threads u).place = .readWait
  writersSleep : ∀ u ∈ s.mutex.waitingWriters, (s.threads u).place = .writeWait
  held : Held s.mutex.refCount (s.total reads) (s.total writes)

/-- Writers that wait for a free lock are not all asleep. -/
def WriterWoken (s : LockSystem ι) : Prop :=
  s.mutex.refCount = 0 → 0 < s.mutex.numWaitingWriters → ∃ u, s.WokenWriter u

/-- Nor does a reader sleep on a free lock when nobody will try. -/
def ReaderWoken (s : LockSystem ι) : Prop :=
  s.mutex.refCount = 0 → s.mutex.waitingReaders.Nonempty → s.Retrying

structure Kept (s : LockSystem ι) : Prop extends Counted s where
  writerWoken : WriterWoken s
  readerWoken : ReaderWoken s

/-- The sums after one thread went on. -/
theorem counted_move {m : RWMutex ι} {thread : LockThread} (intact : s.thrown = none)
    (readers : m.numWaitingReaders + LockThread.at .readWait (s.threads t) =
      s.total (LockThread.at .readWait) + LockThread.at .readWait thread)
    (writers : m.numWaitingWriters + LockThread.at .writeWait (s.threads t) =
      s.total (LockThread.at .writeWait) + LockThread.at .writeWait thread)
    (readersSleep : ∀ u ∈ m.waitingReaders,
      (if u = t then thread else s.threads u).place = .readWait)
    (writersSleep : ∀ u ∈ m.waitingWriters,
      (if u = t then thread else s.threads u).place = .writeWait)
    (held : ∀ r w : Nat, r + (s.threads t).reads = s.total reads + thread.reads →
      w + (s.threads t).writes = s.total writes + thread.writes → Held m.refCount r w) :
    Counted (s.move t m thread) where
  intact := intact
  readers := by
    have moved := total_move (s := s) (t := t) m thread (LockThread.at .readWait)
    simp only [mutex_move]
    omega
  writers := by
    have moved := total_move (s := s) (t := t) m thread (LockThread.at .writeWait)
    simp only [mutex_move]
    omega
  readersSleep := by
    intro u member
    rw [threads_move]
    exact readersSleep u member
  writersSleep := by
    intro u member
    rw [threads_move]
    exact writersSleep u member
  held := held _ _ (total_move m thread reads) (total_move m thread writes)

section Outside

variable (counted : Counted s) (outside : (s.threads t).place = .outside)

omit [DecidableEq ι] in
include counted outside in
/-- Who sleeps is not the thread that goes on. -/
theorem readersSleep_of_outside : ∀ u ∈ s.mutex.waitingReaders,
    u ≠ t ∧ (s.threads u).place = .readWait := by
  intro u member
  have place := counted.readersSleep u member
  refine ⟨?_, place⟩
  rintro rfl
  simp [outside] at place

omit [DecidableEq ι] in
include counted outside in
theorem writersSleep_of_outside : ∀ u ∈ s.mutex.waitingWriters,
    u ≠ t ∧ (s.threads u).place = .writeWait := by
  intro u member
  have place := counted.writersSleep u member
  refine ⟨?_, place⟩
  rintro rfl
  simp [outside] at place

omit [DecidableEq ι] [Fintype ι] in
include outside in
theorem other_of_waiting {u : ι} {place : Place} (waiting : (s.threads u).place = place)
    (inside : place ≠ .outside) : u ≠ t := by
  rintro rfl
  exact inside (waiting.symm.trans outside)

include counted outside in
/-- The loop of `acquireRead`, by a thread that does not wait. -/
theorem kept_readLoop (woken : WriterWoken s) :
    Kept (s.afterRead t (s.mutex.readLoop t)) := by
  have readers := counted.readers
  have writers := counted.writers
  have held := counted.held
  have asleep := readersSleep_of_outside counted outside
  have writersAsleep := writersSleep_of_outside counted outside
  by_cases blocked : s.mutex.refCount < 0 ∨ s.mutex.numWaitingWriters > 0
  · simp only [afterRead, RWMutex.readLoop, if_pos blocked]
    have writer : s.mutex.refCount = 0 → ∃ u, u ≠ t ∧ s.WokenWriter u := by
      intro free
      obtain ⟨u, waits⟩ := woken free (by omega)
      exact ⟨u, other_of_waiting outside waits.1 nofun, waits⟩
    refine ⟨counted_move counted.intact ?_ ?_ ?_ ?_ ?_, ?_, ?_⟩
    · simp [LockThread.at, outside, readers]
    · simp [LockThread.at, outside, writers]
    · grind
    · grind
    · grind
    -- the thread sleeps because of a writer, and one of these is woken
    · intro free _
      obtain ⟨u, other, waits⟩ := writer free
      exact ⟨u, waits.move _ other subset_rfl⟩
    · intro free _
      obtain ⟨u, other, waits⟩ := writer free
      exact ⟨u, .inr (waits.move _ other subset_rfl)⟩
  · simp only [afterRead, RWMutex.readLoop, if_neg blocked]
    have positive : 0 ≤ s.mutex.refCount := by omega
    refine ⟨counted_move counted.intact ?_ ?_ ?_ ?_ ?_, ?_, ?_⟩
    · simp [LockThread.at, outside, readers]
    · simp [LockThread.at, outside, writers]
    · grind
    · grind
    · grind [Held]
    · intro free
      simp at free
      omega
    · intro free
      simp at free
      omega

include counted outside in
/-- The loop of `acquireWrite`, by a thread that does not wait. A thread sleeps only when the
lock is not free. -/
theorem kept_writeLoop : Kept (s.afterWrite t (s.mutex.writeLoop t)) := by
  have readers := counted.readers
  have writers := counted.writers
  have held := counted.held
  have asleep := readersSleep_of_outside counted outside
  have writersAsleep := writersSleep_of_outside counted outside
  by_cases blocked : s.mutex.refCount ≠ 0
  · simp only [afterWrite, RWMutex.writeLoop, if_pos blocked]
    refine ⟨counted_move counted.intact ?_ ?_ ?_ ?_ ?_, ?_, ?_⟩
    · simp [LockThread.at, outside, readers]
    · simp [LockThread.at, outside, writers]
    · grind
    · grind
    · grind
    · exact fun free => absurd free blocked
    · exact fun free => absurd free blocked
  · simp only [afterWrite, RWMutex.writeLoop, if_neg blocked]
    refine ⟨counted_move counted.intact ?_ ?_ ?_ ?_ ?_, nofun, nofun⟩
    · simp [LockThread.at, outside, readers]
    · simp [LockThread.at, outside, writers]
    · grind
    · grind
    · grind [Held]

end Outside

/-- Where all threads are as before, only the lock that is held matters. -/
theorem kept_afterTry {result : RWMutex ι × Bool} {thread : LockThread} (kept : Kept s)
    (outside : (s.threads t).place = .outside) (same : result.2 = false → result.1 = s.mutex)
    (taken : result.2 = true → result.1 = { s.mutex with refCount := result.1.refCount } ∧
      result.1.refCount ≠ 0 ∧ thread.place = .outside ∧
      ∀ r w : Nat, r + (s.threads t).reads = s.total reads + thread.reads →
        w + (s.threads t).writes = s.total writes + thread.writes → Held result.1.refCount r w) :
    Kept (s.afterTry t result thread) := by
  obtain ⟨m, locked⟩ := result
  cases locked with
  | false =>
    obtain rfl : m = s.mutex := same rfl
    exact kept
  | true =>
    obtain ⟨frame, busy, place, held⟩ := taken rfl
    have readers := kept.readers
    have writers := kept.writers
    have asleep := readersSleep_of_outside kept.toCounted outside
    have writersAsleep := writersSleep_of_outside kept.toCounted outside
    dsimp only at frame busy held
    refine ⟨counted_move kept.intact ?_ ?_ ?_ ?_ held, fun free => absurd free busy,
      fun free => absurd free busy⟩
    · rw [frame]
      simp [LockThread.at, outside, place, readers]
    · rw [frame]
      simp [LockThread.at, outside, place, writers]
    · rw [frame]
      grind
    · rw [frame]
      grind

/-! ## Releasing -/

omit [DecidableEq ι] in
/-- A count of waiting writers that is not zero is that of a thread. -/
theorem exists_writer (counted : Counted s) (waiting : 0 < s.mutex.numWaitingWriters) :
    ∃ u, (s.threads u).place = .writeWait := by
  by_contra nobody
  have none' : s.total (LockThread.at .writeWait) = 0 :=
    total_eq_zero.mpr fun u => if_neg fun place => nobody ⟨u, place⟩
  have writers := counted.writers
  omega

omit [Fintype ι] in
theorem not_mem_of_signal {sleepers rest : Finset ι} {woken : ι}
    (signalled : signal sleepers woken = some rest) :
    rest ⊆ sleepers ∧ (sleepers = ∅ ∨ woken ∈ sleepers ∧ woken ∉ rest) := by
  unfold signal at signalled
  split at signalled
  case isTrue nobody =>
    obtain rfl := Option.some.inj signalled
    exact ⟨Finset.empty_subset _, .inl nobody⟩
  case isFalse =>
    split at signalled
    case isTrue member =>
      obtain rfl := Option.some.inj signalled
      exact ⟨Finset.erase_subset _ _, .inr ⟨member, Finset.notMem_erase _ _⟩⟩
    case isFalse => cases signalled

/-- Writers first, then all readers: whoever sleeps behind it has somebody who was woken. -/
theorem kept_wakeWaiting {m : RWMutex ι} {woken : ι} (counted : Counted s)
    (wakes : s.mutex.wakeWaiting woken = some m) : Kept { s with mutex := m } := by
  unfold RWMutex.wakeWaiting at wakes
  split at wakes
  case isTrue waiting =>
    obtain ⟨rest, signalled, rfl⟩ := Option.map_eq_some_iff.mp wakes
    obtain ⟨fewer, chosen⟩ := not_mem_of_signal signalled
    -- either nobody sleeps, so that a writer that waits is awake, or one was chosen
    have writer : ∃ u, (s.threads u).place = .writeWait ∧ u ∉ rest := by
      rcases chosen with nobody | ⟨member, awake⟩
      · obtain ⟨u, place⟩ := exists_writer counted waiting
        rw [nobody, Finset.subset_empty] at fewer
        exact ⟨u, place, by simp [fewer]⟩
      · exact ⟨woken, counted.writersSleep woken member, awake⟩
    refine ⟨{ counted with writersSleep := ?_ }, ?_, ?_⟩
    · intro u member
      exact counted.writersSleep u (fewer member)
    · exact fun _ _ => writer
    · intro _ _
      obtain ⟨u, waits⟩ := writer
      exact ⟨u, .inr waits⟩
  case isFalse quiet =>
    split at wakes
    case isTrue =>
      obtain rfl := Option.some.inj wakes
      refine ⟨{ counted with readersSleep := ?_ }, ?_, ?_⟩
      · simp
      · exact fun _ waiting => absurd waiting quiet
      · exact fun _ asleep => absurd asleep Finset.not_nonempty_empty
    case isFalse nobody =>
      obtain rfl := Option.some.inj wakes
      refine ⟨counted, fun _ waiting => absurd waiting quiet, ?_⟩
      rintro _ ⟨u, asleep⟩
      have place := counted.readersSleep u asleep
      have counts := le_total (s := s) (LockThread.at .readWait) u
      have readers := counted.readers
      rw [LockThread.at, if_pos place] at counts
      omega

/-- The count that a thread leaves when it gives up a lock that it holds. -/
theorem releaseCount_of_holds (counted : Counted s) (outside : (s.threads t).place = .outside)
    (holds : s.Holds t) : ∃ m, s.mutex.releaseCount = .ok m ∧
      Counted (s.move t m <|
        if 0 < (s.threads t).writes then
          { s.threads t with writes := (s.threads t).writes - 1 }
        else { s.threads t with reads := (s.threads t).reads - 1 }) := by
  have readers := counted.readers
  have writers := counted.writers
  have asleep := readersSleep_of_outside counted outside
  have writersAsleep := writersSleep_of_outside counted outside
  have ownReads := le_total (s := s) reads t
  have ownWrites := le_total (s := s) writes t
  rcases counted.held with ⟨written, one, nothing⟩ | ⟨read, nothing⟩
  · have writes : 0 < (s.threads t).writes := by
      rcases holds with some' | some'
      · omega
      · exact some'
    refine ⟨{ s.mutex with refCount := 0 }, ?_, ?_⟩
    · rw [RWMutex.releaseCount, if_neg (by omega), if_pos written]
    · rw [if_pos writes]
      refine counted_move counted.intact ?_ ?_ ?_ ?_ ?_
      · simp [LockThread.at, readers]
      · simp [LockThread.at, writers]
      · grind
      · grind
      · grind [Held]
  · have reads : 0 < (s.threads t).reads := by
      rcases holds with some' | some'
      · exact some'
      · omega
    refine ⟨{ s.mutex with refCount := s.mutex.refCount - 1 }, ?_, ?_⟩
    · rw [RWMutex.releaseCount, if_pos (by omega)]
    · rw [if_neg (by omega)]
      refine counted_move counted.intact ?_ ?_ ?_ ?_ ?_
      · simp [LockThread.at, readers]
      · simp [LockThread.at, writers]
      · grind
      · grind
      · grind [Held]

/-! ## Runs -/

/-- A woken reader whose count is taken back is as one that starts. -/
theorem counted_retryRead (kept : Kept s) (woken : s.WokenReader t) :
    let m := { s.mutex with numWaitingReaders := s.mutex.numWaitingReaders - 1 }
    let back := s.move t m { s.threads t with place := .outside }
    Counted back ∧ WriterWoken back ∧
      s.afterRead t (s.mutex.retryRead t) = back.afterRead t (back.mutex.readLoop t) := by
  have readers := kept.readers
  have writers := kept.writers
  have readersSleep := kept.readersSleep
  have writersSleep := kept.writersSleep
  have held := kept.held
  obtain ⟨place, awake⟩ := woken
  refine ⟨counted_move kept.intact ?_ ?_ ?_ ?_ ?_, ?_, ?_⟩
  · simp [LockThread.at, place, readers]
  · simp [LockThread.at, place, writers]
  · grind
  · grind
  · grind
  · intro free waiting
    obtain ⟨u, waits⟩ := kept.writerWoken free waiting
    have other : u ≠ t := by
      rintro rfl
      cases place.symm.trans waits.1
    exact ⟨u, waits.move _ other subset_rfl⟩
  · simp only [afterRead, RWMutex.retryRead, LockSystem.move, Function.update_idem,
      Function.update_self]
    rfl

theorem counted_retryWrite (kept : Kept s) (woken : s.WokenWriter t) :
    let m := { s.mutex with numWaitingWriters := s.mutex.numWaitingWriters - 1 }
    let back := s.move t m { s.threads t with place := .outside }
    Counted back ∧ s.afterWrite t (s.mutex.retryWrite t) =
      back.afterWrite t (back.mutex.writeLoop t) := by
  have readers := kept.readers
  have writers := kept.writers
  have readersSleep := kept.readersSleep
  have writersSleep := kept.writersSleep
  have held := kept.held
  obtain ⟨place, awake⟩ := woken
  refine ⟨counted_move kept.intact ?_ ?_ ?_ ?_ ?_, ?_⟩
  · simp [LockThread.at, place, readers]
  · simp [LockThread.at, place, writers]
  · grind
  · grind
  · grind
  · simp only [afterWrite, RWMutex.retryWrite, LockSystem.move, Function.update_idem,
      Function.update_self]
    rfl

/-- What one section preserves. -/
theorem kept_step (s : LockSystem ι) (op : LockOp ι) (s' : LockSystem ι) (kept : Kept s)
    (stepped : s.step op = some s') : Kept s' := by
  cases op with
  | acquireRead t =>
    simp only [LockSystem.step, Option.ite_none_right_eq_some] at stepped
    obtain ⟨awake, ⟨⟩⟩ := stepped
    exact kept_readLoop kept.toCounted awake.2 kept.writerWoken
  | acquireWrite t =>
    simp only [LockSystem.step, Option.ite_none_right_eq_some] at stepped
    obtain ⟨awake, ⟨⟩⟩ := stepped
    exact kept_writeLoop kept.toCounted awake.2
  | tryAcquireRead t =>
    simp only [LockSystem.step, Option.ite_none_right_eq_some] at stepped
    obtain ⟨awake, ⟨⟩⟩ := stepped
    have held := kept.held
    refine kept_afterTry kept awake.2 ?_ ?_
    · grind [RWMutex.tryAcquireRead]
    · grind [RWMutex.tryAcquireRead, Held, Awake]
  | tryAcquireWrite t =>
    simp only [LockSystem.step, Option.ite_none_right_eq_some] at stepped
    obtain ⟨awake, ⟨⟩⟩ := stepped
    have held := kept.held
    refine kept_afterTry kept awake.2 ?_ ?_
    · grind [RWMutex.tryAcquireWrite]
    · grind [RWMutex.tryAcquireWrite, Held, Awake]
  | release t woken =>
    simp only [LockSystem.step, Option.ite_none_right_eq_some] at stepped
    obtain ⟨⟨awake, holds⟩, stepped⟩ := stepped
    obtain ⟨m, released, counted⟩ := releaseCount_of_holds kept.toCounted awake.2 holds
    simp only [RWMutex.release, released] at stepped
    cases wakes : m.wakeWaiting woken with
    | none => simp [wakes] at stepped
    | some m' =>
      simp only [wakes, Option.map_some, Option.some.injEq] at stepped
      subst stepped
      exact kept_wakeWaiting counted wakes
  | retryRead t =>
    simp only [LockSystem.step, Option.ite_none_right_eq_some] at stepped
    obtain ⟨⟨_, woken⟩, ⟨⟩⟩ := stepped
    obtain ⟨counted, writer, again⟩ := counted_retryRead kept woken
    rw [again]
    exact kept_readLoop counted (by simp) writer
  | retryWrite t =>
    simp only [LockSystem.step, Option.ite_none_right_eq_some] at stepped
    obtain ⟨⟨_, woken⟩, ⟨⟩⟩ := stepped
    obtain ⟨counted, again⟩ := counted_retryWrite kept woken
    rw [again]
    exact kept_writeLoop counted (by simp)

omit [DecidableEq ι] in
theorem kept_start : Kept ({} : LockSystem ι) where
  intact := rfl
  readers := by simp [total, LockThread.at]
  writers := by simp [total, LockThread.at]
  readersSleep := by simp
  writersSleep := by simp
  held := by simp [Held, total]
  writerWoken := by simp [WriterWoken]
  readerWoken := by simp [ReaderWoken]

/-! ## What holds in every reachable state -/

theorem Kept.exclusive (kept : Kept s) : s.Exclusive := by
  intro t writes
  have own := le_total (s := s) LockThread.writes t
  obtain ⟨-, one, nobody⟩ : s.mutex.refCount = -1 ∧ s.total LockThread.writes = 1 ∧
      s.total reads = 0 := kept.held.resolve_right (by omega)
  refine ⟨by omega, fun u => ⟨total_eq_zero.mp nobody u, fun other => ?_⟩⟩
  have two := add_le_total (s := s) LockThread.writes other
  omega

omit [DecidableEq ι] in
theorem Kept.countsHolders (kept : Kept s) : s.CountsHolders := by
  have held := kept.held
  have nobody := total_eq_zero (s := s) (f := LockThread.writes)
  refine ⟨⟨fun written => ?_, ?_⟩, fun none' => ?_⟩
  · by_contra none'
    push Not at none'
    have zero := nobody.mpr fun t => Nat.le_zero.mp (none' t)
    rcases held with writer | readers <;> omega
  · rintro ⟨t, writes⟩
    have own := le_total (s := s) LockThread.writes t
    rcases held with writer | readers <;> omega
  · have zero := nobody.mpr none'
    rcases held with writer | readers <;> omega

omit [DecidableEq ι] in
theorem Kept.retrying (kept : Kept s) (free : s.Free) (asleep : s.Sleeping) : s.Retrying := by
  have zero : s.mutex.refCount = 0 := by
    have reads : s.total reads = 0 := total_eq_zero.mpr fun t => by
      have none' := free t
      simp only [Holds] at none'
      omega
    have writes : s.total LockThread.writes = 0 := total_eq_zero.mpr fun t => by
      have none' := free t
      simp only [Holds] at none'
      omega
    have held := kept.held
    rcases held with writer | readers <;> omega
  obtain ⟨t, reader | writer⟩ := asleep
  · exact kept.readerWoken zero ⟨t, reader⟩
  · -- a writer that sleeps is counted, so that the count is not zero
    have counts := le_total (s := s) (LockThread.at .writeWait) t
    have writers := kept.writers
    rw [LockThread.at, if_pos (kept.writersSleep t writer)] at counts
    obtain ⟨u, woken⟩ := kept.writerWoken zero (by omega)
    exact ⟨u, .inr woken⟩

/-- Writers are alone, the count is that of the holders, and a free lock on which a thread
sleeps has a thread that was woken to retry. -/
theorem lock_safe (ops : List (LockOp ι)) (s : LockSystem ι)
    (reached : run LockSystem.step {} ops = some s) :
    s.thrown = none ∧ s.Exclusive ∧ s.CountsHolders ∧ (s.Free → s.Sleeping → s.Retrying) := by
  have kept : Kept s := run_invariant Kept kept_step kept_start reached
  exact ⟨kept.intact, kept.exclusive, kept.countsHolders, kept.retrying⟩

/-- A reader sleeps behind a writer, and only the writer was woken. -/
theorem lock_safe_of_three : ∃ s : LockSystem (Fin 3),
    run LockSystem.step {} [.acquireRead 0, .acquireWrite 1, .acquireRead 2, .release 0 1] =
      some s ∧ s.WokenWriter 1 ∧ 2 ∈ s.mutex.waitingReaders ∧
      s.Exclusive ∧ s.CountsHolders ∧ s.Retrying := by
  have ⟨s, reached, woken, asleep, nobody⟩ : ∃ s : LockSystem (Fin 3),
      run LockSystem.step {} [.acquireRead 0, .acquireWrite 1, .acquireRead 2, .release 0 1] =
        some s ∧ s.WokenWriter 1 ∧ 2 ∈ s.mutex.waitingReaders ∧ ∀ t, ¬ s.Holds t :=
    ⟨_, rfl, by decide, by decide, by decide⟩
  obtain ⟨-, exclusive, counts, alive⟩ := lock_safe _ s reached
  exact ⟨s, reached, woken, asleep, exclusive, counts, alive nobody ⟨2, .inl asleep⟩⟩

end VRJuggler.Vpr
