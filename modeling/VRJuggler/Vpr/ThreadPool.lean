import Mathlib.Algebra.BigOperators.Group.Finset.Basic
import Mathlib.Algebra.BigOperators.Group.Multiset.Basic
import Mathlib.Algebra.Order.BigOperators.Group.Finset
import Mathlib.Algebra.Order.Ring.Nat
import Mathlib.Tactic.Abel
import VRJuggler.Base.LinkedList
import VRJuggler.Base.Run
import VRJuggler.Base.Sums

/-!
# The thread pool

Threads that are ready to work are linked to a list, whose length a semaphore counts. The master
takes one from the list, gives it a function and releases the semaphore on which it sleeps. A lock
is held while any thread works, and the master waits for it.

A step is a section of a lock or an operation on a semaphore. The pool is followed from the end of
its constructor.
-/
namespace VRJuggler.Vpr

/-- What a thread of the pool does next. -/
inductive LoopPlace (F : Type) where
  /-- The section that lets `addThread` end. -/
  | starting
  /-- The section that puts it on the list. -/
  | free
  /-- To tell the master that it is on the list. -/
  | listed
  /-- To acquire the semaphore that it sleeps on. -/
  | sleeping
  /-- The section before the work. -/
  | woken
  /-- To call the function. -/
  | counted
  /-- To return from it. -/
  | running (functor : F)
  /-- The section after the work. -/
  | finished

structure OneThread (ι F : Type) where
  next : Option ι := none
  functor : Option F := none
  threadWait : Nat := 0
  place : LoopPlace F := .starting

/-- Where the master is in `startFunc`. -/
inductive Master (ι F : Type) where
  | outside
  /-- In `getThread`, when at least one thread is ready. -/
  | getting (func : F)
  | gotten (func : F) (theThread : ι)

/-- The pool and its master. The functions that were given, called and have returned are kept. -/
structure ThreadPool (ι F : Type) where
  mReadyThreads : Nat := 0
  mListHead : Option ι := none
  mWorkingCount : Int := 0
  mFinishedLock : Bool := false
  threads : ι → OneThread ι F := fun _ => {}
  master : Master ι F := .outside
  given : List F := []
  called : List (ι × F) := []
  returned : List (ι × F) := []

inductive PoolOp (ι F : Type) where
  | startFunc (func : F)
  | getThread
  | wakeUp
  | wait
  | thread (t : ι)

namespace ThreadPool

variable {ι F : Type} [DecidableEq ι] (s : ThreadPool ι F)

/-- One thread goes on. -/
def move (t : ι) (one : OneThread ι F) : ThreadPool ι F :=
  { s with threads := Function.update s.threads t one }

omit [DecidableEq ι] in
/-- `startFunc` up to where a thread is ready; until then the master is blocked. -/
def startFunc (func : F) : Option (ThreadPool ι F) :=
  match s.master with
  | .outside =>
    if 0 < s.mReadyThreads then
      some { s with mReadyThreads := s.mReadyThreads - 1, master := .getting func }
    else none
  | _ => none

omit [DecidableEq ι] in
/-- The section of the list in `getThread`. A null pointer has no next thread. -/
def getThread : Option (ThreadPool ι F) :=
  match s.master with
  | .getting func =>
    s.mListHead.map fun theThread =>
      { s with mListHead := (s.threads theThread).next, master := .gotten func theThread }
  | _ => none

/-- The rest of `startFunc`. -/
def wakeUp : Option (ThreadPool ι F) :=
  match s.master with
  | .gotten func theThread =>
    let one := s.threads theThread
    some { s.move theThread
        { one with functor := some func, threadWait := one.threadWait + 1 } with
      master := .outside
      given := s.given ++ [func] }
  | _ => none

omit [DecidableEq ι] in
/-- The lock is acquired and released. -/
def wait : Option (ThreadPool ι F) :=
  match s.master with
  | .outside => if s.mFinishedLock = true then none else some s
  | _ => none

/-- The section of the list in `threadSleep`. -/
def putOnList (t : ι) (one : OneThread ι F) : ThreadPool ι F :=
  { s.move t { one with next := s.mListHead, place := .listed } with mListHead := some t }

/-- The section before the work, in which the first thread waits for the lock. -/
def enterWork (t : ι) (one : OneThread ι F) : Option (ThreadPool ι F) :=
  -- the lock is taken under the lock of the count
  if s.mWorkingCount = 0 ∧ s.mFinishedLock = true then none
  else
    some { s.move t { one with place := .counted } with
      mFinishedLock := if s.mWorkingCount = 0 then true else s.mFinishedLock
      mWorkingCount := s.mWorkingCount + 1 }

/-- The section after the work. Not the thread that took the lock releases it, but the last. -/
def exitWork (t : ι) (one : OneThread ι F) : ThreadPool ι F :=
  { s.move t { one with place := .free } with
    mWorkingCount := s.mWorkingCount - 1
    mFinishedLock := if s.mWorkingCount - 1 = 0 then false else s.mFinishedLock }

/-- The next step of `threadLoop` in one of the threads. -/
def threadLoop (t : ι) : Option (ThreadPool ι F) :=
  let one := s.threads t
  match one.place with
  | .starting => some (s.move t { one with place := .free })
  | .free => some (s.putOnList t one)
  | .listed =>
    some { s.move t { one with place := .sleeping } with mReadyThreads := s.mReadyThreads + 1 }
  | .sleeping =>
    -- a thread sleeps until the master tells its semaphore
    if 0 < one.threadWait then
      some (s.move t { one with threadWait := one.threadWait - 1, place := .woken })
    else none
  | .woken => s.enterWork t one
  | .counted =>
    -- an empty function cannot be called
    one.functor.map fun functor =>
      { s.move t { one with place := .running functor } with called := s.called ++ [(t, functor)] }
  | .running functor =>
    some { s.move t { one with place := .finished } with returned := s.returned ++ [(t, functor)] }
  | .finished => some (s.exitWork t one)

def step : PoolOp ι F → Option (ThreadPool ι F)
  | .startFunc func => s.startFunc func
  | .getThread => s.getThread
  | .wakeUp => s.wakeUp
  | .wait => s.wait
  | .thread t => s.threadLoop t

end ThreadPool

/-! ## What holds of a pool -/

namespace OneThread

variable {ι F : Type} (one : OneThread ι F)

/-- The function that was given to the thread and is not called yet. -/
def awaits : Multiset F :=
  match one.place with
  | .listed | .sleeping => if one.threadWait = 0 then 0 else Multiset.ofList one.functor.toList
  | .woken | .counted => Multiset.ofList one.functor.toList
  | _ => 0

/-- The function that the thread is in. -/
def runs : Multiset F :=
  match one.place with
  | .running functor => {functor}
  | _ => 0

/-- 1 between the section before the work and that after it. -/
def working : Nat :=
  match one.place with
  | .counted | .running _ | .finished => 1
  | _ => 0

/-- 1 when the thread is on the list and the master was not told. -/
def untold : Nat :=
  match one.place with
  | .listed => 1
  | _ => 0

/-- The thread is on the list, or the master took it from there and has not woken it. -/
def Ready : Prop :=
  match one.place with
  | .listed | .sleeping => one.threadWait = 0
  | _ => False

/-- The thread was given a function and has not counted itself. -/
def Uncounted : Prop :=
  match one.place with
  | .woken => True
  | _ => 0 < one.threadWait

/-- An upper bound for the steps that the thread makes on its own. -/
def steps : Nat :=
  8 * one.threadWait +
    match one.place with
    | .woken => 6
    | .counted => 5
    | .running _ => 4
    | .starting | .finished => 3
    | .free => 2
    | .listed => 1
    | .sleeping => 0

/-- What is given to a thread is given to one that listens, and with a function. -/
def Fine : Prop :=
  match one.place with
  | .listed | .sleeping => one.threadWait ≤ 1 ∧ (one.threadWait = 1 → one.functor.isSome)
  | .woken | .counted => one.threadWait = 0 ∧ one.functor.isSome
  | _ => one.threadWait = 0

end OneThread

namespace ThreadPool

variable {ι F : Type} (s : ThreadPool ι F)

/-- 1 when the master knows of a thread on the list that it has not taken. -/
def claimed : Nat :=
  match s.master with
  | .getting _ => 1
  | _ => 0

/-- The thread was taken from the list and not woken. -/
def Taken (t : ι) : Prop :=
  match s.master with
  | .gotten _ theThread => t = theThread
  | _ => False

/-- Every function that was given has returned as often as it was given. -/
def AllReturned : Prop := (s.returned.map Prod.snd).Perm s.given

variable [Fintype ι]

/-- The threads on the list are those that are ready and that the master has not taken. As many
of them as the master was not told of, and the one it knows of, are not counted. -/
structure FreeList (l : List ι) : Prop where
  linked : Linked (fun t => (s.threads t).next) s.mListHead l
  nodup : l.Nodup
  members : ∀ t, t ∈ l ↔ (s.threads t).Ready ∧ ¬ s.Taken t
  length : l.length = s.mReadyThreads + ∑ t, (s.threads t).untold + s.claimed

/-- The list and the count of ready threads agree, and each function that was given is called
once: it waits in one thread, runs in one, or has returned. -/
structure InOrder : Prop where
  free : ∃ l, s.FreeList l
  once : (s.given : Multiset F) =
    Multiset.ofList (s.called.map Prod.snd) + ∑ t, (s.threads t).awaits
  called : (s.called : Multiset (ι × F)) =
    Multiset.ofList s.returned + ∑ t, (s.threads t).runs.map fun functor => (t, functor)

/-- When the master does nothing more, the threads come to rest, and then every function that was
given has returned. -/
def Served [DecidableEq ι] : Prop :=
  ∀ (ts : List ι) u, run step s (ts.map .thread) = some u →
    ts.length ≤ ∑ t, (s.threads t).steps ∧ ((∀ t, step u (.thread t) = none) → u.AllReturned)

omit [Fintype ι] in
/-- The master waits only when every thread that was given a function has counted itself. -/
def AllCounted (s : ThreadPool ι F) : PoolOp ι F → Prop
  | .wait => ∀ t, ¬ (s.threads t).Uncounted
  | _ => True

end ThreadPool

/-! ## Steps -/

namespace ThreadPool

variable {ι F : Type} {s u : ThreadPool ι F} {t : ι} {one : OneThread ι F} {l : List ι}

theorem FreeList.keep [Fintype ι] (free : s.FreeList l) (head : u.mListHead = s.mListHead)
    (next : ∀ t, (u.threads t).next = (s.threads t).next)
    (same : ∀ t, (u.threads t).Ready ∧ ¬ u.Taken t ↔ (s.threads t).Ready ∧ ¬ s.Taken t)
    (count : u.mReadyThreads + ∑ t, (u.threads t).untold + u.claimed =
      s.mReadyThreads + ∑ t, (s.threads t).untold + s.claimed) : u.FreeList l where
  linked := by
    rw [head]
    exact free.linked.congr fun t _ => next t
  nodup := free.nodup
  members t := (free.members t).trans (same t).symm
  length := free.length.trans count.symm

/-- What the steps keep. -/
structure Consistent [Fintype ι] (s : ThreadPool ι F) : Prop extends InOrder s where
  fine : ∀ t, (s.threads t).Fine
  taken : ∀ t, s.Taken t → (s.threads t).Ready
  working : s.mWorkingCount = ∑ t, (s.threads t).working
  lock : s.mFinishedLock = true ↔ s.mWorkingCount ≠ 0

variable [Fintype ι] [DecidableEq ι]

/-- The list when a thread goes on that is not put on it. -/
theorem FreeList.thread (free : s.FreeList l) (moved : u.threads = Function.update s.threads t one)
    (master : u.master = s.master) (head : u.mListHead = s.mListHead)
    (next : one.next = (s.threads t).next) (ready : one.Ready ↔ (s.threads t).Ready)
    (count : u.mReadyThreads + one.untold = s.mReadyThreads + (s.threads t).untold) :
    u.FreeList l := by
  have taken (v : ι) : u.Taken v ↔ s.Taken v := by rw [Taken, Taken, master]
  have claimed : u.claimed = s.claimed := by rw [claimed, claimed, master]
  have sums := sum_update_add s.threads t one fun _ o => o.untold
  rw [← moved] at sums
  refine free.keep head (fun v => ?_) (fun v => ?_) (by omega)
  · rw [moved, Function.update_apply]
    split
    next same => rw [next, same]
    next => rfl
  · rw [taken, moved, Function.update_apply]
    split
    next same => rw [ready, same]
    next => exact Iff.rfl

/-- A step of one thread, or of the master with one. -/
theorem Consistent.thread (kept : s.Consistent)
    (moved : u.threads = Function.update s.threads t one) (free : ∃ l, u.FreeList l)
    (once : u.given + (Multiset.ofList (s.called.map Prod.snd) + (s.threads t).awaits) =
      s.given + (Multiset.ofList (u.called.map Prod.snd) + one.awaits))
    (called : (u.called : Multiset (ι × F)) + s.returned +
        (s.threads t).runs.map (fun functor => (t, functor)) =
      (s.called : Multiset (ι × F)) + u.returned + one.runs.map fun functor => (t, functor))
    (fine : one.Fine) (taken : ∀ v, u.Taken v → s.Taken v)
    (ready : u.Taken t → (s.threads t).Ready → one.Ready)
    (working : u.mWorkingCount + (s.threads t).working = s.mWorkingCount + one.working)
    (lock : u.mFinishedLock = true ↔ u.mWorkingCount ≠ 0) : u.Consistent where
  free := free
  once := by
    -- only what this thread awaits changes in the sum
    have sums := sum_update_add s.threads t one fun _ o => o.awaits
    rw [← moved] at sums
    refine add_right_cancel
      (b := Multiset.ofList (s.called.map Prod.snd) + (s.threads t).awaits) ?_
    rw [once, kept.once, add_comm (Multiset.ofList (u.called.map Prod.snd)) one.awaits,
      ← add_assoc, add_assoc _ _ one.awaits, ← sums]
    abel
  called := by
    have sums := sum_update_add s.threads t one fun v o => o.runs.map fun functor => (v, functor)
    rw [← moved] at sums
    refine add_right_cancel
      (b := s.returned + (s.threads t).runs.map fun functor => (t, functor)) ?_
    rw [← add_assoc, called, kept.called, add_right_comm (s.returned : Multiset (ι × F)),
      add_assoc, ← sums]
    abel
  fine := by
    intro v
    rw [moved, Function.update_apply]
    split
    next => exact fine
    next => exact kept.fine v
  taken := by
    intro v here
    rw [moved, Function.update_apply]
    split
    next same => exact ready (same ▸ here) (same ▸ kept.taken v (taken v here))
    next => exact kept.taken v (taken v here)
  working := by
    have sums := sum_update_add s.threads t one fun _ o => o.working
    rw [← moved] at sums
    have before := kept.working
    omega
  lock := lock

section Loop

variable (kept : s.Consistent)
include kept

theorem Consistent.start (place : (s.threads t).place = .starting) :
    (s.move t { s.threads t with place := .free }).Consistent := by
  obtain ⟨l, free⟩ := kept.free
  have fine := kept.fine t
  have same : (s.move t { s.threads t with place := .free }).FreeList l :=
    free.thread rfl rfl rfl rfl (by simp [OneThread.Ready, place])
      (by simp [OneThread.untold, place, move])
  refine kept.thread rfl ⟨l, same⟩ ?_ ?_ ?_ (fun _ taken => taken) ?_ ?_
    kept.lock
  · simp [OneThread.awaits, place, move]
  · simp [OneThread.runs, place, move]
  · simpa [OneThread.Fine, place] using fine
  · simp [OneThread.Ready, place]
  · simp [OneThread.working, place, move]

/-- The thread becomes the head of the list, on which it was not. -/
theorem Consistent.putOnList (place : (s.threads t).place = .free) :
    (s.putOnList t (s.threads t)).Consistent := by
  obtain ⟨l, free⟩ := kept.free
  have fine : (s.threads t).threadWait = 0 := by
    have fine := kept.fine t
    rwa [OneThread.Fine, place] at fine
  have unready : ¬ (s.threads t).Ready := by simp [OneThread.Ready, place]
  have absent : t ∉ l := fun member => unready ((free.members t).mp member).1
  have untaken : ¬ s.Taken t := fun taken => unready (kept.taken t taken)
  have pushed : (s.putOnList t (s.threads t)).FreeList (t :: l) := by
    refine ⟨free.linked.push ?_ fun v member => ?_, free.nodup.cons absent, fun v => ?_, ?_⟩
    · simp [ThreadPool.putOnList, move]
    · have other : v ≠ t := fun same => absent (same ▸ member)
      simp [ThreadPool.putOnList, move, other]
    · show _ ↔ (Function.update s.threads t _ v).Ready ∧ ¬ s.Taken v
      rw [List.mem_cons, free.members v, Function.update_apply]
      split
      next same =>
        subst same
        simp [OneThread.Ready, fine, untaken]
      next other => simp [other]
    · -- the master is not told of it yet
      have sums (one : OneThread ι F) (listed : one.untold = 1) :
          ∑ v, (Function.update s.threads t one v).untold = ∑ v, (s.threads v).untold + 1 := by
        have sums := sum_update_add s.threads t one fun _ o => o.untold
        have zero : (s.threads t).untold = 0 := by simp [OneThread.untold, place]
        omega
      have length := free.length
      show (t :: l).length = s.mReadyThreads + ∑ v, (Function.update s.threads t _ v).untold +
        s.claimed
      rw [List.length_cons, sums _ rfl]
      omega
  refine kept.thread rfl ⟨t :: l, pushed⟩ ?_ ?_ ?_ (fun _ taken => taken) ?_ ?_
    kept.lock
  · simp [OneThread.awaits, place, fine, ThreadPool.putOnList, move]
  · simp [OneThread.runs, place, ThreadPool.putOnList, move]
  · simp [OneThread.Fine, fine]
  · simp [OneThread.Ready, fine]
  · simp [OneThread.working, place, ThreadPool.putOnList, move]

theorem Consistent.tell (place : (s.threads t).place = .listed) :
    ({ s.move t { s.threads t with place := .sleeping } with
      mReadyThreads := s.mReadyThreads + 1 } : ThreadPool ι F).Consistent := by
  obtain ⟨l, free⟩ := kept.free
  have fine := kept.fine t
  refine kept.thread rfl
    ⟨l, free.thread rfl rfl rfl rfl ?_ ?_⟩ ?_ ?_ ?_ (fun _ taken => taken) ?_ ?_
    kept.lock
  · simp [OneThread.Ready, place]
  · simp [OneThread.untold, place]
  · simp [OneThread.awaits, place, move]
  · simp [OneThread.runs, place, move]
  · simpa [OneThread.Fine, place] using fine
  · simp [OneThread.Ready, place]
  · simp [OneThread.working, place, move]

/-- A thread that was woken has a function and was not on the list any more. -/
theorem Consistent.wake (place : (s.threads t).place = .sleeping)
    (woken : 0 < (s.threads t).threadWait) :
    (s.move t { s.threads t with
      threadWait := (s.threads t).threadWait - 1, place := .woken }).Consistent := by
  obtain ⟨l, free⟩ := kept.free
  have fine := kept.fine t
  rw [OneThread.Fine, place] at fine
  -- the master tells a thread no more than once before it is on the list again
  have once : (s.threads t).threadWait = 1 := by
    dsimp only at fine
    omega
  refine kept.thread rfl
    ⟨l, free.thread rfl rfl rfl rfl ?_ ?_⟩ ?_ ?_ ?_ (fun _ taken => taken) ?_ ?_
    kept.lock
  · simp [OneThread.Ready, place, once]
  · simp [OneThread.untold, place, move]
  · simp [OneThread.awaits, place, once, move]
  · simp [OneThread.runs, place, move]
  · simp [OneThread.Fine, once, fine.2 once]
  · simp [OneThread.Ready, place, once]
  · simp [OneThread.working, place, move]

theorem Consistent.enterWork (place : (s.threads t).place = .woken)
    (entered : s.enterWork t (s.threads t) = some u) : u.Consistent := by
  obtain ⟨l, free⟩ := kept.free
  have fine := kept.fine t
  unfold ThreadPool.enterWork at entered
  split at entered
  next => exact nomatch entered
  next =>
    obtain rfl := Option.some.inj entered
    have working := kept.working
    refine kept.thread rfl
      ⟨l, free.thread rfl rfl rfl rfl ?_ ?_⟩ ?_ ?_ ?_ (fun _ taken => taken) ?_ ?_ ?_
    · simp [OneThread.Ready, place]
    · simp [OneThread.untold, place, move]
    · simp [OneThread.awaits, place, move]
    · simp [OneThread.runs, place, move]
    · simpa [OneThread.Fine, place] using fine
    · simp [OneThread.Ready, place]
    · simp [OneThread.working, place]
    · -- the lock was taken by a thread before, or is taken now
      have lock := kept.lock
      have positive : s.mWorkingCount + 1 ≠ 0 := by omega
      show (if s.mWorkingCount = 0 then true else s.mFinishedLock) = true ↔ _
      split
      next => exact iff_of_true rfl positive
      next some' => exact iff_of_true (lock.mpr some') positive

theorem Consistent.call (place : (s.threads t).place = .counted) {functor : F}
    (given : (s.threads t).functor = some functor) :
    ({ s.move t { s.threads t with place := .running functor } with
      called := s.called ++ [(t, functor)] } : ThreadPool ι F).Consistent := by
  obtain ⟨l, free⟩ := kept.free
  have fine := kept.fine t
  rw [OneThread.Fine, place] at fine
  refine kept.thread rfl
    ⟨l, free.thread rfl rfl rfl rfl ?_ ?_⟩ ?_ ?_ ?_ (fun _ taken => taken) ?_ ?_
    kept.lock
  · simp [OneThread.Ready, place]
  · simp [OneThread.untold, place, move]
  · simp [OneThread.awaits, place, given, move, ← Multiset.coe_add]
  · simp [OneThread.runs, place, move, ← Multiset.coe_add, add_right_comm]
  · simpa [OneThread.Fine] using fine.1
  · simp [OneThread.Ready, place]
  · simp [OneThread.working, place, move]

theorem Consistent.return (functor : F) (place : (s.threads t).place = .running functor) :
    ({ s.move t { s.threads t with place := .finished } with
      returned := s.returned ++ [(t, functor)] } : ThreadPool ι F).Consistent := by
  obtain ⟨l, free⟩ := kept.free
  have fine := kept.fine t
  refine kept.thread rfl
    ⟨l, free.thread rfl rfl rfl rfl ?_ ?_⟩ ?_ ?_ ?_ (fun _ taken => taken) ?_ ?_
    kept.lock
  · simp [OneThread.Ready, place]
  · simp [OneThread.untold, place, move]
  · simp [OneThread.awaits, place, move]
  · simp [OneThread.runs, place, move, ← Multiset.coe_add, add_assoc]
  · simpa [OneThread.Fine, place] using fine
  · simp [OneThread.Ready, place]
  · simp [OneThread.working, place, move]

/-- The last thread that works releases the lock. -/
theorem Consistent.exitWork (place : (s.threads t).place = .finished) :
    (s.exitWork t (s.threads t)).Consistent := by
  obtain ⟨l, free⟩ := kept.free
  have fine := kept.fine t
  have works : (s.threads t).working = 1 := by simp [OneThread.working, place]
  refine kept.thread rfl
    ⟨l, free.thread rfl rfl rfl rfl ?_ ?_⟩ ?_ ?_ ?_ (fun _ taken => taken) ?_ ?_ ?_
  · simp [OneThread.Ready, place]
  · simp [OneThread.untold, place, ThreadPool.exitWork, move]
  · simp [OneThread.awaits, place, ThreadPool.exitWork, move]
  · simp [OneThread.runs, place, ThreadPool.exitWork, move]
  · simpa [OneThread.Fine, place] using fine
  · simp [OneThread.Ready, place]
  · simp [OneThread.working, place, ThreadPool.exitWork]
  · have atLeast : (s.threads t).working ≤ ∑ v, (s.threads v).working :=
      Finset.single_le_sum (f := fun v => (s.threads v).working) (fun _ _ => Nat.zero_le _)
        (Finset.mem_univ t)
    -- a thread that works has the lock
    have locked : s.mFinishedLock = true := kept.lock.mpr (by have := kept.working; omega)
    simp [ThreadPool.exitWork, locked]

/-- A thread that goes on in its loop. -/
theorem Consistent.threadLoop (stepped : s.threadLoop t = some u) : u.Consistent := by
  unfold ThreadPool.threadLoop at stepped
  dsimp only at stepped
  split at stepped
  next place => exact Option.some.inj stepped ▸ kept.start place
  next place => exact Option.some.inj stepped ▸ kept.putOnList place
  next place => exact Option.some.inj stepped ▸ kept.tell place
  next place =>
    split at stepped
    next woken => exact Option.some.inj stepped ▸ kept.wake place woken
    next => exact nomatch stepped
  next place => exact kept.enterWork place stepped
  next place =>
    obtain ⟨functor, given, rfl⟩ := Option.map_eq_some_iff.mp stepped
    exact kept.call place given
  next functor place => exact Option.some.inj stepped ▸ kept.return functor place
  next place => exact Option.some.inj stepped ▸ kept.exitWork place

end Loop

section Master

variable (kept : s.Consistent)
include kept

omit [DecidableEq ι] in
theorem Consistent.startFunc {func : F} (stepped : s.startFunc func = some u) :
    u.Consistent := by
  obtain ⟨l, free⟩ := kept.free
  unfold ThreadPool.startFunc at stepped
  split at stepped
  next outside =>
    split at stepped
    next ready =>
      obtain rfl := Option.some.inj stepped
      -- the thread that the semaphore stood for is the one that the master knows of
      have known : FreeList { s with
          mReadyThreads := s.mReadyThreads - 1, master := .getting func } l := by
        refine free.keep rfl (fun _ => rfl) (fun v => ?_) ?_
        · simp [Taken, outside]
        · simp only [claimed, outside]
          omega
      exact ⟨⟨⟨l, known⟩, kept.once, kept.called⟩, kept.fine, fun v taken => taken.elim,
        kept.working, kept.lock⟩
    next => exact nomatch stepped
  next => exact nomatch stepped

omit [DecidableEq ι] in
theorem Consistent.getThread (stepped : s.getThread = some u) : u.Consistent := by
  obtain ⟨l, free⟩ := kept.free
  unfold ThreadPool.getThread at stepped
  split at stepped
  next func getting =>
    obtain ⟨theThread, head, rfl⟩ := Option.map_eq_some_iff.mp stepped
    have linked := free.linked
    rw [head] at linked
    obtain ⟨rest, rfl, later⟩ := linked.pop
    obtain ⟨absent, nodup⟩ := List.nodup_cons.mp free.nodup
    -- the master has no other thread at the same time
    have untaken (v : ι) : ¬ s.Taken v := by simp [Taken, getting]
    have popped : FreeList { s with
        mListHead := (s.threads theThread).next, master := .gotten func theThread } rest := by
      refine ⟨later, nodup, fun v => ?_, ?_⟩
      · have members := free.members v
        show v ∈ rest ↔ (s.threads v).Ready ∧ ¬ v = theThread
        by_cases same : v = theThread
        · subst same
          simp [absent]
        · simpa [same, untaken v] using members
      · have length := free.length
        simp only [claimed, getting, List.length_cons] at length ⊢
        omega
    refine ⟨⟨⟨rest, popped⟩, kept.once, kept.called⟩, kept.fine, ?_, kept.working, kept.lock⟩
    -- the head of the list was ready
    rintro v rfl
    exact ((free.members v).mp (List.mem_cons_self ..)).1
  next => exact nomatch stepped

omit kept [DecidableEq ι] [Fintype ι] in
/-- A ready thread when it is woken. -/
theorem woken_spec {one woken : OneThread ι F} (ready : one.Ready) (func : F)
    (wakes : woken = { one with functor := some func, threadWait := one.threadWait + 1 }) :
    ¬ woken.Ready ∧ woken.Fine ∧ woken.untold = one.untold ∧ woken.working = one.working ∧
      woken.runs = one.runs ∧ woken.awaits = one.awaits + {func} ∧ woken.next = one.next := by
  subst wakes
  unfold OneThread.Ready at ready
  unfold OneThread.Ready OneThread.Fine OneThread.untold OneThread.working OneThread.runs
    OneThread.awaits
  split at ready
  next place => simp [place, ready]
  next place => simp [place, ready]
  next => exact ready.elim

/-- The thread was ready and has a function now. -/
theorem Consistent.wakeUp (stepped : s.wakeUp = some u) : u.Consistent := by
  obtain ⟨l, free⟩ := kept.free
  unfold ThreadPool.wakeUp at stepped
  split at stepped
  next func t gotten =>
    obtain rfl := Option.some.inj stepped
    have taken (v : ι) : s.Taken v ↔ v = t := by rw [Taken, gotten]
    have ready : (s.threads t).Ready := kept.taken t ((taken t).mpr rfl)
    obtain ⟨unready, fine, untold, working, runs, awaits, next⟩ := woken_spec ready func rfl
    have sums := sum_update_of_eq (f := s.threads) (i := t) (g := fun _ o => o.untold) untold
    have woken : FreeList { s.move t { s.threads t with
        functor := some func, threadWait := (s.threads t).threadWait + 1 } with
        master := .outside, given := s.given ++ [func] } l := by
      refine free.keep rfl (fun v => ?_) (fun v => ?_) ?_
      · show (Function.update s.threads t _ v).next = _
        rw [Function.update_apply]
        split
        next same => rw [next, same]
        next => rfl
      · -- neither before nor after it is on the list
        show (Function.update s.threads t _ v).Ready ∧ ¬ False ↔ _
        rw [Function.update_apply, taken]
        split
        next same => simp [same, unready]
        next other => simp [other]
      · show _ + ∑ v, (Function.update s.threads t _ v).untold + 0 = _ + _ + s.claimed
        rw [sums, claimed, gotten]
        rfl
    refine kept.thread rfl ⟨l, woken⟩ ?_ ?_ fine (fun v taken => taken.elim)
      (fun taken => taken.elim) ?_ kept.lock
    · rw [awaits, ← Multiset.coe_add, Multiset.coe_singleton, move]
      abel
    · rw [runs, move]
    · rw [working, move]
  next => exact nomatch stepped

end Master

/-! ## Runs -/

omit [DecidableEq ι] in
/-- The pool at the end of its constructor. -/
theorem consistent_start : ({} : ThreadPool ι F).Consistent where
  free := by
    refine ⟨[], rfl, List.nodup_nil, fun t => ?_, ?_⟩
    · simp [OneThread.Ready]
    · simp [OneThread.untold, claimed]
  once := by simp [OneThread.awaits]
  called := by simp [OneThread.runs]
  fine _ := rfl
  taken _ taken := taken.elim
  working := by simp [OneThread.working]
  lock := by simp

omit [Fintype ι] [DecidableEq ι] in
theorem eq_of_wait (waits : s.wait = some u) : u = s ∧ s.mFinishedLock ≠ true := by
  unfold ThreadPool.wait at waits
  split at waits
  next =>
    split at waits
    next => exact nomatch waits
    next unlocked => exact ⟨(Option.some.inj waits).symm, unlocked⟩
  next => exact nomatch waits

theorem Consistent.step {op : PoolOp ι F} (kept : s.Consistent) (stepped : s.step op = some u) :
    u.Consistent := by
  cases op with
  | startFunc func => exact kept.startFunc stepped
  | getThread => exact kept.getThread stepped
  | wakeUp => exact kept.wakeUp stepped
  | wait => exact (eq_of_wait stepped).1 ▸ kept
  | thread t => exact kept.threadLoop stepped

omit [DecidableEq ι] in
/-- While no thread works, a function has returned unless it waits in a thread. -/
theorem Consistent.allReturned_iff (kept : s.Consistent)
    (idle : ∀ t, (s.threads t).working = 0) :
    s.AllReturned ↔ ∀ t, (s.threads t).awaits = 0 := by
  -- no thread is in a function
  have quiet (t : ι) : (s.threads t).runs = 0 := by
    have idle := idle t
    unfold OneThread.working at idle
    unfold OneThread.runs
    split
    next functor place => simp [place] at idle
    next => rfl
  have called : (s.called : Multiset (ι × F)) = s.returned := by
    rw [kept.called]
    simp [quiet]
  have once := kept.once
  rw [← Multiset.map_coe, called, Multiset.map_coe] at once
  rw [AllReturned, ← Multiset.coe_eq_coe, once, left_eq_add]
  simp

omit [DecidableEq ι] in
/-- When the master gets the lock, the functions that have not returned wait in threads that have
not counted themselves. -/
theorem Consistent.wait_iff (kept : s.Consistent) (waits : s.wait = some u) :
    s.AllReturned ↔ s.AllCounted .wait := by
  -- without the lock no thread works
  have unlocked := (eq_of_wait waits).2
  have zero : ∑ t, (s.threads t).working = 0 := by
    have working := kept.working
    have none' := not_not.mp (mt kept.lock.mpr unlocked)
    omega
  have idle : ∀ t, (s.threads t).working = 0 := by simpa using zero
  rw [kept.allReturned_iff idle]
  refine forall_congr' fun t => ?_
  have fine := kept.fine t
  have idle := idle t
  unfold OneThread.working at idle
  unfold OneThread.Fine at fine
  unfold OneThread.awaits OneThread.Uncounted
  cases place : (s.threads t).place with
  | starting | free => simp_all
  | listed | sleeping =>
    simp only [place] at fine ⊢
    rcases Nat.eq_zero_or_pos (s.threads t).threadWait with asleep | woken
    · simp [asleep]
    · -- it was woken with a function
      obtain ⟨functor, some'⟩ := Option.isSome_iff_exists.mp (fine.2 (by omega))
      simp [woken, Nat.ne_of_gt woken, some']
  | woken =>
    simp only [place] at fine ⊢
    obtain ⟨functor, some'⟩ := Option.isSome_iff_exists.mp fine.2
    simp [some']
  | counted | running functor | finished => simp [place] at idle

/-- A thread cannot go on without end. -/
theorem steps_threadLoop (stepped : s.threadLoop t = some u) :
    ∑ v, (u.threads v).steps + 1 ≤ ∑ v, (s.threads v).steps := by
  -- each place has fewer steps ahead than the one before
  have fewer : ∃ one : OneThread ι F, u.threads = Function.update s.threads t one ∧
      one.steps + 1 ≤ (s.threads t).steps := by
    unfold ThreadPool.threadLoop ThreadPool.enterWork at stepped
    dsimp only at stepped
    split at stepped
    next place =>
      exact Option.some.inj stepped ▸ ⟨_, rfl, by simp [OneThread.steps, place]⟩
    next place =>
      exact Option.some.inj stepped ▸ ⟨_, rfl, by simp [OneThread.steps, place]⟩
    next place =>
      exact Option.some.inj stepped ▸ ⟨_, rfl, by simp [OneThread.steps, place]⟩
    next place =>
      split at stepped
      next woken =>
        refine Option.some.inj stepped ▸ ⟨_, rfl, ?_⟩
        -- being told counts for eight steps, of which six are left
        simp only [OneThread.steps, place]
        omega
      next => exact nomatch stepped
    next place =>
      split at stepped
      next => exact nomatch stepped
      next => exact Option.some.inj stepped ▸ ⟨_, rfl, by simp [OneThread.steps, place]⟩
    next place =>
      obtain ⟨functor, given, rfl⟩ := Option.map_eq_some_iff.mp stepped
      exact ⟨_, rfl, by simp [OneThread.steps, place]⟩
    next functor place =>
      exact Option.some.inj stepped ▸ ⟨_, rfl, by simp [OneThread.steps, place]⟩
    next place =>
      exact Option.some.inj stepped ▸ ⟨_, rfl, by simp [OneThread.steps, place]⟩
  obtain ⟨one, moved, less⟩ := fewer
  have sums := sum_update_add s.threads t one fun _ o => o.steps
  rw [← moved] at sums
  omega

/-- When no thread can go on, all of them sleep. -/
theorem Consistent.allReturned_of_rest (kept : s.Consistent)
    (rest : ∀ t, s.threadLoop t = none) : s.AllReturned := by
  have asleep (t : ι) : (s.threads t).working = 0 ∧
      ((s.threads t).awaits = 0 ∨ (s.threads t).place = .woken) := by
    have rest := rest t
    have fine := kept.fine t
    unfold ThreadPool.threadLoop at rest
    unfold OneThread.Fine at fine
    unfold OneThread.working OneThread.awaits
    cases place : (s.threads t).place with
    | starting | free | listed | running functor | finished => simp [place] at rest
    | sleeping =>
      have unwoken : (s.threads t).threadWait = 0 := by simpa [place] using rest
      simp [unwoken]
    | woken => exact ⟨rfl, .inr rfl⟩
    | counted =>
      -- it was given a function, and can call it
      simp only [place, Option.map_eq_none_iff] at rest fine
      exact absurd rest (Option.ne_none_iff_isSome.mpr fine.2)
  refine (kept.allReturned_iff fun t => (asleep t).1).mpr fun t => ?_
  refine (asleep t).2.resolve_right fun woken => ?_
  -- a thread that was woken gets the lock when no thread works
  have none' : s.mWorkingCount = 0 := by
    rw [kept.working]
    simp [asleep]
  have unlocked : s.mFinishedLock ≠ true := fun locked => kept.lock.mp locked none'
  have rest := rest t
  simp [ThreadPool.threadLoop, woken, ThreadPool.enterWork, unlocked] at rest

/-- From a consistent state the threads come to rest, with all functions returned. -/
theorem Consistent.served (kept : s.Consistent) : s.Served := by
  intro ts u reached
  induction ts generalizing s with
  | nil =>
    obtain rfl := Option.some.inj reached
    exact ⟨Nat.zero_le _, kept.allReturned_of_rest⟩
  | cons t ts ih =>
    obtain ⟨v, first, later⟩ := run_cons_eq_some.mp reached
    have fewer := steps_threadLoop first
    obtain ⟨bound, rest⟩ := ih (kept.threadLoop first) later
    refine ⟨?_, rest⟩
    rw [List.length_cons]
    omega

/-- In every run of a pool with any number of threads, the list and the count of ready threads
agree and each function that is given is called once and returns; and whenever `wait` returns,
all functions given before have returned, exactly when in each of its calls every thread that was
given a function has counted itself. -/
theorem wait_returns_iff_counted (ops : List (PoolOp ι F)) :
    (∀ front s, front <+: ops → run step ({} : ThreadPool ι F) front = some s →
        s.InOrder ∧ s.Served ∧
          ∀ u, front ++ [.wait] <+: ops → s.step .wait = some u → s.AllReturned) ↔
      Meets step AllCounted ({} : ThreadPool ι F) ops := by
  have always {front : List (PoolOp ι F)} {s : ThreadPool ι F}
      (reached : run step {} front = some s) : s.Consistent :=
    run_invariant Consistent (fun _ _ _ kept stepped => kept.step stepped) consistent_start reached
  rw [meets_iff_forall]
  constructor
  · intro all front op s u part reached stepped
    -- the condition is about the calls of wait only
    cases op with
    | wait =>
      have before := (all front s ((List.prefix_append ..).trans part) reached).2.2
      exact ((always reached).wait_iff stepped).mp (before u part stepped)
    | startFunc func => trivial
    | getThread => trivial
    | wakeUp => trivial
    | thread t => trivial
  · intro counted front s _ reached
    have kept := always reached
    refine ⟨kept.toInOrder, kept.served, fun u part stepped => ?_⟩
    exact (kept.wait_iff stepped).mpr (counted front .wait s u part reached stepped)

/-- The only thread is given a function, and the master waits before it runs. -/
def tooEarly : List (PoolOp Unit Unit) :=
  [.thread (), .thread (), .thread (), .startFunc (), .getThread, .wakeUp]

/-- `wait` returns at once, and the function was not even called. -/
theorem wait_returns_too_early :
    ∃ s ∈ run step ({} : ThreadPool Unit Unit) tooEarly,
      (s.step .wait).isSome ∧ s.given = [()] ∧ s.called = [] ∧ ¬ s.AllReturned := by
  unfold AllReturned
  decide

end ThreadPool

end VRJuggler.Vpr
