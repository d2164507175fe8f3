import Mathlib.Algebra.BigOperators.Group.Finset.Basic
import Mathlib.Algebra.BigOperators.Pi
import Mathlib.Algebra.Order.BigOperators.Group.Finset
import Mathlib.Algebra.Order.Ring.Nat
import Mathlib.Data.Fintype.Basic
import VRJuggler.Base.Run

/-!
# The reader/writer lock

`RWMutex` keeps a count of its holders under a state lock and two condition variables on which
readers and writers wait. A step of the system is one section of one thread, from where it gets
the state lock to where it releases it or waits; who holds the lock is followed beside it.

The counts of waiting threads go down only when a woken thread runs again. So a count that is
not zero says that a thread waits, asleep or woken, and whoever goes to sleep while the lock is
free leaves a woken writer behind.
-/
namespace VRJuggler.Vpr

/-- A condition variable is the set of the threads that sleep on it. -/
structure RWMutex (ι : Type) where
  waitingReaders : Finset ι := ∅
  numWaitingReaders : Int := 0
  waitingWriters : Finset ι := ∅
  numWaitingWriters : Int := 0
  refCount : Int := 0

variable {ι : Type} [DecidableEq ι]

/-- `signal` wakes a thread that sleeps, if there is one. -/
def signal (sleepers : Finset ι) (woken : ι) : Option (Finset ι) :=
  if sleepers = ∅ then some ∅
  else if woken ∈ sleepers then some (sleepers.erase woken)
  else none

namespace RWMutex

variable (m : RWMutex ι) (t : ι)

/-- The loop of `acquireRead` up to the end of the section, and if it has the lock then. -/
def readLoop : RWMutex ι × Bool :=
  if m.refCount < 0 ∨ m.numWaitingWriters > 0 then
    ({ m with
        numWaitingReaders := m.numWaitingReaders + 1
        waitingReaders := insert t m.waitingReaders }, false)
  else ({ m with refCount := m.refCount + 1 }, true)

def acquireRead : RWMutex ι × Bool := m.readLoop t

/-- `acquireRead` from where its wait returns. -/
def retryRead : RWMutex ι × Bool :=
  { m with numWaitingReaders := m.numWaitingReaders - 1 }.readLoop t

/-- The loop of `acquireWrite` up to the end of the section. -/
def writeLoop : RWMutex ι × Bool :=
  if m.refCount ≠ 0 then
    ({ m with
        numWaitingWriters := m.numWaitingWriters + 1
        waitingWriters := insert t m.waitingWriters }, false)
  else ({ m with refCount := -1 }, true)

def acquireWrite : RWMutex ι × Bool := m.writeLoop t

/-- `acquireWrite` from where its wait returns. -/
def retryWrite : RWMutex ι × Bool :=
  { m with numWaitingWriters := m.numWaitingWriters - 1 }.writeLoop t

omit [DecidableEq ι] in
def tryAcquireRead : RWMutex ι × Bool :=
  if ¬ (m.refCount = -1 ∨ m.numWaitingWriters > 0) then
    ({ m with refCount := m.refCount + 1 }, true)
  else (m, false)

omit [DecidableEq ι] in
def tryAcquireWrite : RWMutex ι × Bool :=
  if m.refCount = 0 then ({ m with refCount := -1 }, true) else (m, false)

omit [DecidableEq ι] in
/-- The count without the lock that is released, or the message of the `LockException`. -/
def releaseCount : Except String (RWMutex ι) :=
  if m.refCount > 0 then .ok { m with refCount := m.refCount - 1 }
  else if m.refCount = -1 then .ok { m with refCount := 0 }
  else .error "Should not have a refCount of 0!"

/-- Writers have preference. `woken` is the writer that is woken if one is. -/
def wakeWaiting (woken : ι) : Option (RWMutex ι) :=
  if m.numWaitingWriters > 0 then
    (signal m.waitingWriters woken).map fun sleepers => { m with waitingWriters := sleepers }
  else if m.numWaitingReaders > 0 then some { m with waitingReaders := ∅ }
  else some m

def release (woken : ι) : Option (Except String (RWMutex ι)) :=
  match m.releaseCount with
  | .error thrown => some (.error thrown)
  | .ok m => (m.wakeWaiting woken).map .ok

end RWMutex

/-! ## The threads -/

/-- Where a thread is between two sections. -/
inductive Place where
  | outside
  | readWait
  | writeWait
  deriving DecidableEq

/-- A thread, with the numbers of the locks that it holds. -/
structure LockThread where
  place : Place := .outside
  reads : Nat := 0
  writes : Nat := 0

/-- The threads around one lock. An exception leaves its section with the state lock. -/
structure LockSystem (ι : Type) where
  mutex : RWMutex ι := {}
  threads : ι → LockThread := fun _ => {}
  thrown : Option String := none

/-- A section of a thread. -/
inductive LockOp (ι : Type) where
  | acquireRead (t : ι)
  | acquireWrite (t : ι)
  | tryAcquireRead (t : ι)
  | tryAcquireWrite (t : ι)
  | release (t woken : ι)
  | retryRead (t : ι)
  | retryWrite (t : ι)

namespace LockSystem

variable (s : LockSystem ι) (t : ι)

/-- One thread goes on, and the lock with it. -/
def move (m : RWMutex ι) (thread : LockThread) : LockSystem ι :=
  { s with mutex := m, threads := Function.update s.threads t thread }

/-- After a section of `acquireRead` the thread has a lock more, or waits. -/
def afterRead (result : RWMutex ι × Bool) : LockSystem ι :=
  let thread := s.threads t
  s.move t result.1 <|
    if result.2 then { thread with place := .outside, reads := thread.reads + 1 }
    else { thread with place := .readWait }

def afterWrite (result : RWMutex ι × Bool) : LockSystem ι :=
  let thread := s.threads t
  s.move t result.1 <|
    if result.2 then { thread with place := .outside, writes := thread.writes + 1 }
    else { thread with place := .writeWait }

/-- A thread that tried has a lock more, or is where it was. -/
def afterTry (result : RWMutex ι × Bool) (thread : LockThread) : LockSystem ι :=
  if result.2 then s.move t result.1 thread else { s with mutex := result.1 }

omit [DecidableEq ι] in
/-- The thread can start a section of its own. -/
def Awake : Prop := s.thrown = none ∧ (s.threads t).place = .outside

omit [DecidableEq ι] in
instance : Decidable (s.Awake t) := inferInstanceAs (Decidable (_ ∧ _))

omit [DecidableEq ι] in
def Holds : Prop := 0 < (s.threads t).reads ∨ 0 < (s.threads t).writes

omit [DecidableEq ι] in
instance : Decidable (s.Holds t) := inferInstanceAs (Decidable (_ ∨ _))

/-- A reader that was woken to retry. -/
def WokenReader : Prop :=
  (s.threads t).place = .readWait ∧ t ∉ s.mutex.waitingReaders

instance : Decidable (s.WokenReader t) := inferInstanceAs (Decidable (_ ∧ _))

/-- A writer that was woken to retry. -/
def WokenWriter : Prop :=
  (s.threads t).place = .writeWait ∧ t ∉ s.mutex.waitingWriters

instance : Decidable (s.WokenWriter t) := inferInstanceAs (Decidable (_ ∧ _))

def step : LockOp ι → Option (LockSystem ι)
  | .acquireRead t =>
    if s.Awake t then some (s.afterRead t (s.mutex.acquireRead t)) else none
  | .acquireWrite t =>
    if s.Awake t then some (s.afterWrite t (s.mutex.acquireWrite t)) else none
  | .tryAcquireRead t =>
    let thread := s.threads t
    if s.Awake t then
      some (s.afterTry t s.mutex.tryAcquireRead { thread with reads := thread.reads + 1 })
    else none
  | .tryAcquireWrite t =>
    let thread := s.threads t
    if s.Awake t then
      some (s.afterTry t s.mutex.tryAcquireWrite { thread with writes := thread.writes + 1 })
    else none
  | .release t woken =>
    let thread := s.threads t
    -- a thread releases locks that it holds
    if s.Awake t ∧ s.Holds t then
      match s.mutex.release woken with
      | none => none
      | some (.error thrown) => some { s with thrown := some thrown }
      | some (.ok m) =>
        some (s.move t m <|
          if 0 < thread.writes then { thread with writes := thread.writes - 1 }
          else { thread with reads := thread.reads - 1 })
    else none
  | .retryRead t =>
    if s.thrown = none ∧ s.WokenReader t then some (s.afterRead t (s.mutex.retryRead t))
    else none
  | .retryWrite t =>
    if s.thrown = none ∧ s.WokenWriter t then some (s.afterWrite t (s.mutex.retryWrite t))
    else none

end LockSystem

end VRJuggler.Vpr
