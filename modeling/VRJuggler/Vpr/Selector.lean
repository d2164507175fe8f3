import Mathlib.Data.Finset.Card
import Mathlib.Data.Int.Interval
import VRJuggler.Base.Lists
import VRJuggler.Base.Sums
import VRJuggler.Vpr.StatCollector

/-!
# The selector

`SelectorImplBSD` asks `select(2)` for events of a set of handles, and a file handle asks it about
itself. What the operating system reports is given: that `select` fails, or for each handle and
kind of event if there is one. From each set that is passed, `select` removes the handles that
have no event, and it counts what is left in all three.
-/
namespace VRJuggler.Vpr

/-! ## Time -/

/-- In whole milliseconds. -/
def Interval.msec (interval : Interval) : Interval := interval / 1000

def Interval.NoWait : Interval := 0

def Interval.NoTimeout : Interval := 0xffffffff

structure Timeval where
  tv_sec : Int
  tv_usec : Int
  deriving DecidableEq

/-- The `timeout_obj` of the three functions. -/
def timeout_obj (timeout : Interval) : Timeval :=
  if timeout = .NoWait then { tv_sec := 0, tv_usec := 0 }
  else if timeout.msec ≥ 1000 then
    { tv_sec := (timeout.msec / 1000).toNat, tv_usec := ((timeout.msec % 1000) * 1000000).toNat }
  else { tv_sec := 0, tv_usec := (timeout.msec * 1000).toNat }

/-- A null pointer stands for no timeout. -/
def passed (timeout : Interval) : Option Timeval :=
  if timeout ≠ .NoTimeout then some (timeout_obj timeout) else none

/-! ## Events -/

inductive EventType where
  | Read
  | Write
  | Except
  deriving DecidableEq

def EventType.mask : EventType → UInt16
  | .Read => 1
  | .Write => 2
  | .Except => 4

/-- What the operating system reports, or the text of its error. -/
abbrev Answer := Except String (EventType → Int → Bool)

def Answer.reported (answer : Answer) (event : EventType) (fd : Int) : Bool :=
  match answer with
  | .ok reported => reported event fd
  | .error _ => false

/-! ## Sets of descriptors -/

def FD_SETSIZE : Int := 1024

/-- Beyond its size there is no bit in the set. -/
def FD_SET (fd : Int) (fds : Finset Int) : Option (Finset Int) :=
  if 0 ≤ fd ∧ fd < FD_SETSIZE then some (insert fd fds) else none

def FD_ISSET (fd : Int) (fds : Finset Int) : Option Bool :=
  if 0 ≤ fd ∧ fd < FD_SETSIZE then some (fd ∈ fds) else none

/-- What `select(2)` leaves of a set. -/
def left (answer : EventType → Int → Bool) (nfds : Int) (event : EventType) (fds : Finset Int) :
    Finset Int :=
  fds.filter fun fd => fd < nfds ∧ answer event fd = true

/-! ## The selector -/

structure BSDPollDesc where
  fd : Int
  in_flags : UInt16
  out_flags : UInt16 := 0
  deriving DecidableEq

def BSDPollDesc.requests (d : BSDPollDesc) (event : EventType) : Bool :=
  d.in_flags &&& event.mask ≠ 0

def BSDPollDesc.setIf (d : BSDPollDesc) (event : EventType) (fds : Finset Int) :
    Option (Finset Int) :=
  if d.requests event then FD_SET d.fd fds else some fds

/-- No handle is in the selector twice. -/
structure SelectorImplBSD where
  mPollDescs : List BSDPollDesc := []
  distinct : (mPollDescs.map BSDPollDesc.fd).Nodup := by decide

/-- The three sets, and the greatest descriptor. -/
structure FdSets where
  read_set : Finset Int := ∅
  write_set : Finset Int := ∅
  exception_set : Finset Int := ∅
  last_fd : Int := -1

/-- What `select` throws. -/
inductive SelectException where
  | IOException (message : String)
  | TimeoutException (message : String)
  deriving DecidableEq

structure Selected where
  mPollDescs : List BSDPollDesc
  numWithEvents : UInt16
  timeout : Option Timeval
  thrown : Option SelectException := none

namespace SelectorImplBSD

variable (s : SelectorImplBSD)

def containsHandle (handle : Int) : Bool := s.mPollDescs.any fun d => d.fd = handle

def addHandle (handle : Int) (mask : UInt16) : SelectorImplBSD × Bool :=
  if there : s.containsHandle handle then (s, false)
  else
    ({ mPollDescs := s.mPollDescs ++ [{ fd := handle, in_flags := mask }]
       distinct := by
         have absent : handle ∉ s.mPollDescs.map BSDPollDesc.fd := by
           simpa [containsHandle] using there
         rw [List.map_append, List.nodup_append]
         refine ⟨s.distinct, List.nodup_singleton _, ?_⟩
         rintro fd member other same rfl
         rw [List.mem_singleton.mp same] at member
         exact absent member }, true)

def removeHandle (handle : Int) : SelectorImplBSD × Bool :=
  if s.containsHandle handle then
    ({ mPollDescs := s.mPollDescs.eraseP fun d => d.fd = handle
       distinct := s.distinct.sublist (List.eraseP_sublist.map _) }, true)
  else (s, false)

def setIn (handle : Int) (mask : UInt16) : SelectorImplBSD × Bool :=
  if s.containsHandle handle then
    ({ mPollDescs := s.mPollDescs.map fun d =>
         if d.fd = handle then { d with in_flags := mask } else d
       distinct := by
         have same : (s.mPollDescs.map fun d =>
             if d.fd = handle then { d with in_flags := mask } else d).map BSDPollDesc.fd =
             s.mPollDescs.map BSDPollDesc.fd := by
           rw [List.map_map]
           refine List.map_congr_left fun d _ => ?_
           rw [Function.comp_apply]
           split <;> rfl
         rw [same]
         exact s.distinct }, true)
  else (s, false)

def getIn (handle : Int) : UInt16 :=
  ((s.mPollDescs.find? fun d => d.fd = handle).map BSDPollDesc.in_flags).getD 0

def getOut (handle : Int) : UInt16 :=
  ((s.mPollDescs.find? fun d => d.fd = handle).map BSDPollDesc.out_flags).getD 0

/-- The first loop of `select`: the handle is put into the sets of its events. -/
def request (sets : FdSets) (d : BSDPollDesc) : Option FdSets := do
  let read_set ← d.setIf .Read sets.read_set
  let write_set ← d.setIf .Write sets.write_set
  let exception_set ← d.setIf .Except sets.exception_set
  some {
    read_set, write_set, exception_set
    last_fd := if sets.last_fd < d.fd then d.fd else sets.last_fd }

/-- The last loop of `select`. -/
def collect (sets : FdSets) (d : BSDPollDesc) : Option BSDPollDesc := do
  let read ← FD_ISSET d.fd sets.read_set
  let write ← FD_ISSET d.fd sets.write_set
  let except ← FD_ISSET d.fd sets.exception_set
  some { d with
    out_flags := 0 ||| (if read then EventType.Read.mask else 0) |||
      (if write then EventType.Write.mask else 0) |||
      (if except then EventType.Except.mask else 0) }

def select (timeout : Interval) (answer : Answer) : Option Selected := do
  let cleared := s.mPollDescs.map fun d => { d with out_flags := 0 }
  let sets ← s.mPollDescs.foldlM request {}
  match answer with
  | .error error =>
    some { mPollDescs := cleared, numWithEvents := 0, timeout := passed timeout,
           thrown := some (.IOException ("SelectorImplBSD::select: Error selecting: " ++ error)) }
  | .ok reported =>
    let nfds := sets.last_fd + 1
    let ready : FdSets := { sets with
      read_set := left reported nfds .Read sets.read_set
      write_set := left reported nfds .Write sets.write_set
      exception_set := left reported nfds .Except sets.exception_set }
    let num_events := ready.read_set.card + ready.write_set.card + ready.exception_set.card
    -- no event is a timeout
    if num_events = 0 then
      some { mPollDescs := cleared, numWithEvents := 0, timeout := passed timeout,
             thrown := some (.TimeoutException "Timeout occured while selecting.") }
    else
      let mPollDescs ← cleared.mapM (collect ready)
      some { mPollDescs, numWithEvents := UInt16.ofNat num_events, timeout := passed timeout }

end SelectorImplBSD

/-! ## The file handle -/

/-- The timeout that was passed to `select(2)` if that was called, and what is returned, or the
message of the `IOException`. -/
structure Tested where
  timeout : Option (Option Timeval) := none
  result : Except String Bool

namespace FileHandleImplUNIX

variable (mFdesc : Int) (timeout : Interval) (answer : Answer)

/-- `isReadable` and `isWriteable` differ in the event and in a message. -/
def isReady (event : EventType) (failure : String) : Option Tested :=
  if mFdesc = -1 then some { result := .error "Invalid file handle." }
  else do
    let fds ← FD_SET mFdesc ∅
    match answer with
    | .error _ => some { timeout := some (passed timeout), result := .error failure }
    | .ok reported =>
      let ready := left reported (mFdesc + 1) event fds
      let num_events := ready.card
      -- with no event the set is empty, so the answer is that nothing is ready
      if num_events = 0 then
        let still ← FD_ISSET mFdesc ready
        some { timeout := some (passed timeout), result := .ok still }
      else some { timeout := some (passed timeout), result := .ok true }

def isReadable : Option Tested :=
  isReady mFdesc timeout answer .Read "Error while testing if file handle is readable."

def isWriteable : Option Tested :=
  isReady mFdesc timeout answer .Write "Error while testing if file handle is writeable."

end FileHandleImplUNIX

/-! ## What is documented -/

/-- The timeout in whole milliseconds; a timeval has less than a second of microseconds. -/
def Denotes (given : Option Timeval) (timeout : Interval) : Prop :=
  if timeout = .NoTimeout then given = none
  else ∃ tv ∈ given, 0 ≤ tv.tv_usec ∧ tv.tv_usec < 1000000 ∧
    tv.tv_sec * 1000000 + tv.tv_usec = 1000 * (timeout.toNat / 1000)

/-- The requested events that were reported. -/
def BSDPollDesc.events (d : BSDPollDesc) (answer : Answer) : List EventType :=
  [.Read, .Write, .Except].filter fun event => d.requests event && answer.reported event d.fd

def flags (events : List EventType) : UInt16 :=
  events.foldl (fun flags event => flags ||| event.mask) 0

namespace SelectorImplBSD

/-- `select` passes the timeout, and gives each handle its events and the number of the handles
that have any. -/
def Contract (s : SelectorImplBSD) (timeout : Interval) (answer : Answer) : Prop :=
  ∃ selected, s.select timeout answer = some selected ∧ Denotes selected.timeout timeout ∧
    selected.mPollDescs =
      s.mPollDescs.map (fun d => { d with out_flags := flags (d.events answer) }) ∧
    selected.numWithEvents.toNat = selected.mPollDescs.countP fun d => d.out_flags ≠ 0

/-- The handles that are put into a set or looked for in one have their place in it. -/
def Fits (s : SelectorImplBSD) (answer : Answer) : Prop :=
  ∀ d ∈ s.mPollDescs,
    (∃ event, d.requests event = true) ∨ (∃ other ∈ s.mPollDescs, other.events answer ≠ []) →
      0 ≤ d.fd ∧ d.fd < FD_SETSIZE

/-- No handle has two events. -/
def OneEach (s : SelectorImplBSD) (answer : Answer) : Prop :=
  ∀ d ∈ s.mPollDescs, (d.events answer).length ≤ 1

end SelectorImplBSD

/-- The test passes the timeout, if it comes to that. -/
def Tests (tested : Option Tested) (timeout : Interval) : Prop :=
  ∃ test, tested = some test ∧ ∀ given ∈ test.timeout, Denotes given timeout

/-- Not more than a second, or whole seconds. -/
def Interval.Splits (timeout : Interval) : Prop :=
  timeout = .NoTimeout ∨ timeout.msec.toNat < 1000 ∨ timeout.msec.toNat % 1000 = 0

/-! ## The timeout -/

theorem toNat_msec (timeout : Interval) : timeout.msec.toNat = timeout.toNat / 1000 := by
  rw [Interval.msec, BitVec.toNat_udiv]
  rfl

/-- The rest of the milliseconds is multiplied with a million where it should be a thousand. -/
theorem timeout_obj_eq (timeout : Interval) : timeout_obj timeout =
    if timeout.toNat / 1000 ≥ 1000 then
      { tv_sec := ↑(timeout.toNat / 1000 / 1000)
        tv_usec := ↑(timeout.toNat / 1000 % 1000 * 1000000) }
    else { tv_sec := 0, tv_usec := ↑(timeout.toNat / 1000 * 1000) } := by
  have long : timeout.msec ≥ 1000 ↔ timeout.toNat / 1000 ≥ 1000 := by
    rw [ge_iff_le, BitVec.le_def, toNat_msec]
    rfl
  have seconds : (timeout.msec / 1000).toNat = timeout.toNat / 1000 / 1000 := by
    rw [BitVec.toNat_udiv, toNat_msec]
    rfl
  -- the product does not overflow, as the rest is below a thousand
  have rest : ((timeout.msec % 1000) * 1000000).toNat = timeout.toNat / 1000 % 1000 * 1000000 := by
    rw [BitVec.toNat_mul, BitVec.toNat_umod, toNat_msec]
    exact Nat.mod_eq_of_lt (by show _ % 1000 * 1000000 < _; omega)
  unfold timeout_obj
  split
  next zero =>
    rw [zero]
    rfl
  next =>
    simp only [long, seconds, rest]
    split
    next => rfl
    next short =>
      have micro : (timeout.msec * 1000).toNat = timeout.toNat / 1000 * 1000 := by
        rw [BitVec.toNat_mul, toNat_msec]
        exact Nat.mod_eq_of_lt (by show _ * 1000 < _; omega)
      rw [micro]

theorem denotes_iff (timeout : Interval) :
    Denotes (passed timeout) timeout ↔ timeout.Splits := by
  unfold Denotes passed Interval.Splits
  by_cases none' : timeout = .NoTimeout
  · simp [none']
  · simp only [none', if_false, ne_eq, not_false_eq_true, if_true, Option.mem_def, false_or,
      Option.some.injEq, exists_eq_left', timeout_obj_eq, toNat_msec]
    split
    next =>
      dsimp only
      omega
    next =>
      dsimp only
      omega

/-! ## The sets -/

def FdSets.of (sets : FdSets) : EventType → Finset Int
  | .Read => sets.read_set
  | .Write => sets.write_set
  | .Except => sets.exception_set

/-- A descriptor in the sets of its events. -/
def FdSets.put (sets : FdSets) (d : BSDPollDesc) : FdSets where
  read_set := if d.requests .Read then insert d.fd sets.read_set else sets.read_set
  write_set := if d.requests .Write then insert d.fd sets.write_set else sets.write_set
  exception_set := if d.requests .Except then insert d.fd sets.exception_set else sets.exception_set
  last_fd := if sets.last_fd < d.fd then d.fd else sets.last_fd

/-- The handles that ask for an event. -/
def asking (descs : List BSDPollDesc) (event : EventType) : Finset Int :=
  ((descs.filter fun d => d.requests event).map BSDPollDesc.fd).toFinset

namespace SelectorImplBSD

variable {s : SelectorImplBSD} {d : BSDPollDesc} {sets out : FdSets} {descs : List BSDPollDesc}

/-- The descriptor has its place in a set, if it is put into one. -/
def Placed (d : BSDPollDesc) : Prop :=
  (d.requests .Read || d.requests .Write || d.requests .Except) = true →
    0 ≤ d.fd ∧ d.fd < FD_SETSIZE

instance : DecidablePred Placed := fun _ => inferInstanceAs (Decidable (_ → _))

theorem request_eq (sets : FdSets) (d : BSDPollDesc) :
    request sets d = if Placed d then some (sets.put d) else none := by
  by_cases inside : 0 ≤ d.fd ∧ d.fd < FD_SETSIZE
  · have put (fds : Finset Int) : FD_SET d.fd fds = some (insert d.fd fds) := if_pos inside
    have placed : Placed d := fun _ => inside
    rw [if_pos placed]
    unfold request FdSets.put BSDPollDesc.setIf
    rw [put, put, put]
    cases d.requests .Read <;> cases d.requests .Write <;> cases d.requests .Except <;> rfl
  · have put (fds : Finset Int) : FD_SET d.fd fds = none := if_neg inside
    -- without a place in a set, only a handle that asks for nothing is accepted
    by_cases asks : (d.requests .Read || d.requests .Write || d.requests .Except) = true
    · have misplaced : ¬ Placed d := fun placed => inside (placed asks)
      rw [if_neg misplaced]
      unfold request BSDPollDesc.setIf
      rw [put, put, put]
      revert asks
      cases d.requests .Read <;> cases d.requests .Write <;> cases d.requests .Except <;> simp
    · have placed : Placed d := fun asked => absurd asked asks
      rw [if_pos placed]
      simp only [Bool.or_eq_true, not_or, Bool.not_eq_true] at asks
      simp [request, FdSets.put, BSDPollDesc.setIf, asks]

theorem of_foldl_put (event : EventType) :
    (descs.foldl FdSets.put sets).of event = sets.of event ∪ asking descs event := by
  induction descs generalizing sets with
  | nil => simp [asking]
  | cons d descs ih =>
    -- the handle is in the set of the event when it asks for it
    have here : (sets.put d).of event =
        if d.requests event then insert d.fd (sets.of event) else sets.of event := by
      cases event <;> rfl
    rw [List.foldl_cons, ih, here]
    unfold asking
    rw [List.filter_cons]
    split
    next => simp [Finset.insert_union]
    next => rfl

theorem le_last_fd : (∀ d ∈ descs, d.fd ≤ (descs.foldl FdSets.put sets).last_fd) ∧
    sets.last_fd ≤ (descs.foldl FdSets.put sets).last_fd := by
  induction descs generalizing sets with
  | nil => simp
  | cons d descs ih =>
    obtain ⟨others, before⟩ := @ih (sets.put d)
    have here : d.fd ≤ (sets.put d).last_fd ∧ sets.last_fd ≤ (sets.put d).last_fd := by
      simp only [FdSets.put]
      split <;> omega
    rw [List.forall_mem_cons]
    exact ⟨⟨here.1.trans before, others⟩, here.2.trans before⟩

/-- What `select(2)` leaves of the handles that ask for an event. -/
theorem left_asking {reported : EventType → Int → Bool} {nfds : Int} {event : EventType}
    (below : ∀ d ∈ descs, d.fd < nfds) : left reported nfds event (asking descs event) =
      ((descs.filter fun d => d.requests event && reported event d.fd).map
        BSDPollDesc.fd).toFinset := by
  ext fd
  simp only [left, asking, Finset.mem_filter, List.mem_toFinset, List.mem_map, List.mem_filter,
    Bool.and_eq_true]
  constructor
  · rintro ⟨⟨d, ⟨member, asks⟩, rfl⟩, -, event'⟩
    exact ⟨d, ⟨member, asks, event'⟩, rfl⟩
  · rintro ⟨d, ⟨member, asks, event'⟩, rfl⟩
    exact ⟨⟨d, ⟨member, asks⟩, rfl⟩, below d member, event'⟩

theorem card_left (distinct : (descs.map BSDPollDesc.fd).Nodup)
    {reported : EventType → Int → Bool} {nfds : Int} {event : EventType}
    (below : ∀ d ∈ descs, d.fd < nfds) : (left reported nfds event (asking descs event)).card =
      descs.countP fun d => d.requests event && reported event d.fd := by
  rw [left_asking below, List.toFinset_card_of_nodup, List.length_map,
    List.countP_eq_length_filter]
  exact distinct.sublist (List.filter_sublist.map _)

/-- A handle is left in the set of an event when it asked for it and the event was reported. -/
theorem mem_left (distinct : (descs.map BSDPollDesc.fd).Nodup)
    {reported : EventType → Int → Bool} {nfds : Int} {event : EventType}
    (below : ∀ d ∈ descs, d.fd < nfds) (member : d ∈ descs) :
    d.fd ∈ left reported nfds event (asking descs event) ↔
      (d.requests event && reported event d.fd) = true := by
  rw [left_asking below]
  simp only [List.mem_toFinset, List.mem_map, List.mem_filter]
  constructor
  · rintro ⟨other, ⟨otherMember, event'⟩, same⟩
    -- no other handle has this descriptor
    rwa [List.inj_on_of_nodup_map distinct otherMember member same] at event'
  · intro event'
    exact ⟨d, ⟨member, event'⟩, rfl⟩

theorem flags_filter (p : EventType → Bool) : flags ([.Read, .Write, .Except].filter p) =
    0 ||| (if p .Read then EventType.Read.mask else 0) |||
      (if p .Write then EventType.Write.mask else 0) |||
      (if p .Except then EventType.Except.mask else 0) := by
  cases read : p .Read <;> cases write : p .Write <;> cases except : p .Except <;>
    simp [List.filter, read, write, except, flags, EventType.mask]

theorem flags_ne_zero_iff (answer : Answer) :
    flags (d.events answer) ≠ 0 ↔ d.events answer ≠ [] := by
  unfold BSDPollDesc.events
  generalize (fun event => d.requests event && answer.reported event d.fd) = p
  cases read : p .Read <;> cases write : p .Write <;> cases except : p .Except <;>
    simp [List.filter, read, write, except, flags, EventType.mask]

/-- The number that `select(2)` returns counts the events, not the handles. -/
theorem sum_length_events (reported : EventType → Int → Bool) (descs : List BSDPollDesc) :
    (descs.map fun d => (d.events (.ok reported)).length).sum =
      descs.countP (fun d => d.requests .Read && reported .Read d.fd) +
      descs.countP (fun d => d.requests .Write && reported .Write d.fd) +
      descs.countP fun d => d.requests .Except && reported .Except d.fd := by
  induction descs with
  | nil => rfl
  | cons d descs ih =>
    -- one handle has one for each of its events
    have here : (d.events (.ok reported)).length =
        (if d.requests .Read && reported .Read d.fd then 1 else 0) +
          (if d.requests .Write && reported .Write d.fd then 1 else 0) +
          if d.requests .Except && reported .Except d.fd then 1 else 0 := by
      simp only [BSDPollDesc.events, ← List.countP_eq_length_filter, List.countP_cons,
        List.countP_nil, Answer.reported]
      omega
    rw [List.map_cons, List.sum_cons, ih, here, List.countP_cons, List.countP_cons,
      List.countP_cons]
    omega

/-- As many handles as events, exactly when none has two. -/
theorem oneEach_iff (answer : Answer) :
    (s.mPollDescs.map fun d => (d.events answer).length).sum =
        s.mPollDescs.countP (fun d => flags (d.events answer) ≠ 0) ↔ s.OneEach answer := by
  have counted : (List.map (fun d => if flags (d.events answer) ≠ 0 then 1 else 0)
      s.mPollDescs).sum = _ :=
    sum_map_ite_const (fun d : BSDPollDesc => flags (d.events answer) ≠ 0) 1
  rw [Nat.mul_one] at counted
  rw [← counted, sum_map_eq_iff]
  · refine forall_congr' fun d => forall_congr' fun _ => ?_
    simp only [flags_ne_zero_iff]
    cases d.events answer with
    | nil => simp
    | cons event events => simp
  · intro d _
    simp only [flags_ne_zero_iff]
    cases d.events answer with
    | nil => simp
    | cons event events => simp

/-- In an answer without events for the handles, `select` throws. -/
theorem contract_iff_of_quiet {timeout : Interval} {answer : Answer} {thrown : SelectException}
    (quiet : ∀ d ∈ s.mPollDescs, d.events answer = [])
    (selects : s.select timeout answer = some {
      mPollDescs := s.mPollDescs.map fun d => { d with out_flags := 0 }
      numWithEvents := 0
      timeout := passed timeout
      thrown := some thrown }) :
    s.Contract timeout answer ↔ Denotes (passed timeout) timeout := by
  have cleared : s.mPollDescs.map (fun d => { d with out_flags := flags (d.events answer) }) =
      s.mPollDescs.map fun d => { d with out_flags := 0 } := by
    refine List.map_congr_left fun d member => ?_
    rw [quiet d member]
    rfl
  unfold Contract
  rw [selects, cleared]
  constructor
  · rintro ⟨selected, here, denotes, -⟩
    obtain rfl := Option.some.inj here
    exact denotes
  · intro denotes
    refine ⟨_, rfl, denotes, rfl, ?_⟩
    rw [List.countP_map]
    simp [Function.comp_def]

/-- Distinct descriptors with a place in a set are not more than it has. -/
theorem length_le (inside : ∀ d ∈ s.mPollDescs, 0 ≤ d.fd ∧ d.fd < FD_SETSIZE) :
    s.mPollDescs.length ≤ 1024 := by
  have part : (s.mPollDescs.map BSDPollDesc.fd).toFinset ⊆ Finset.Ico 0 FD_SETSIZE := by
    intro fd member
    obtain ⟨d, there, rfl⟩ := List.mem_map.mp (List.mem_toFinset.mp member)
    exact Finset.mem_Ico.mpr (inside d there)
  -- different descriptors are different elements of the interval
  have card := Finset.card_le_card part
  have size : (Finset.Ico 0 FD_SETSIZE).card = 1024 := Int.card_Ico 0 FD_SETSIZE
  rwa [List.toFinset_card_of_nodup s.distinct, List.length_map, size] at card

/-- The last loop gives a handle its events. -/
theorem collect_eq {reported : EventType → Int → Bool} {ready : FdSets}
    (holds : ∀ event, d.fd ∈ ready.of event ↔
      (d.requests event && reported event d.fd) = true) :
    collect ready { d with out_flags := 0 } =
      if 0 ≤ d.fd ∧ d.fd < FD_SETSIZE then
        some { d with out_flags := flags (d.events (.ok reported)) } else none := by
  unfold collect FD_ISSET
  by_cases inside : 0 ≤ d.fd ∧ d.fd < FD_SETSIZE
  · have read := holds .Read
    have write := holds .Write
    have except := holds .Except
    simp only [FdSets.of] at read write except
    simp only [if_pos inside, BSDPollDesc.events, flags_filter, Answer.reported, read, write,
      except]
    simp
  · simp [inside]

theorem asks_iff : (∃ event, d.requests event = true) ↔
    (d.requests .Read || d.requests .Write || d.requests .Except) = true := by
  simp only [Bool.or_eq_true]
  constructor
  · rintro ⟨event, asked⟩
    cases event with
    | Read => exact .inl (.inl asked)
    | Write => exact .inl (.inr asked)
    | Except => exact .inr asked
  · rintro ((asked | asked) | asked) <;> exact ⟨_, asked⟩

/-- Without events, handles need a place for what they request only. -/
theorem fits_iff_of_quiet {answer : Answer} (quiet : ∀ d ∈ s.mPollDescs, d.events answer = []) :
    s.Fits answer ↔ ∀ d ∈ s.mPollDescs, Placed d := by
  refine forall_congr' fun d => forall_congr' fun _ => ?_
  have nobody : ¬ ∃ other ∈ s.mPollDescs, other.events answer ≠ [] := by
    rintro ⟨other, member, some'⟩
    exact some' (quiet other member)
  rw [or_iff_left nobody, asks_iff, Placed]

/-- The sets when every handle that asks has its place, and then what `select(2)` returns. -/
theorem foldlM_request (placed : ∀ d ∈ s.mPollDescs, Placed d) :
    ∃ sets, s.mPollDescs.foldlM request {} = some sets ∧
      (∀ event, sets.of event = asking s.mPollDescs event) ∧
      ∀ d ∈ s.mPollDescs, d.fd < sets.last_fd + 1 := by
  have folded : s.mPollDescs.foldlM request {} = _ := foldlM_guard request_eq {}
  rw [if_pos placed] at folded
  -- the sets begin empty
  refine ⟨_, folded, fun event => ?_, fun d member => ?_⟩
  · rw [of_foldl_put]
    cases event <;> exact Finset.empty_union _
  · exact Int.lt_add_one_of_le (le_last_fd.1 d member)

/-- `select` when the operating system answers. -/
theorem select_ok (timeout : Interval) (reported : EventType → Int → Bool)
    (placed : ∀ d ∈ s.mPollDescs, Placed d) {num_events : Nat}
    (events : num_events = (s.mPollDescs.map fun d => (d.events (.ok reported)).length).sum) :
    s.select timeout (.ok reported) =
      if num_events = 0 then
        some {
          mPollDescs := s.mPollDescs.map fun d => { d with out_flags := 0 }
          numWithEvents := 0
          timeout := passed timeout
          thrown := some (.TimeoutException "Timeout occured while selecting.") }
      else if ∀ d ∈ s.mPollDescs, 0 ≤ d.fd ∧ d.fd < FD_SETSIZE then
        some {
          mPollDescs := s.mPollDescs.map fun d =>
            { d with out_flags := flags (d.events (.ok reported)) }
          numWithEvents := UInt16.ofNat num_events
          timeout := passed timeout }
      else none := by
  obtain ⟨sets, folded, asked, below⟩ := foldlM_request placed
  have read : sets.read_set = _ := asked .Read
  have write : sets.write_set = _ := asked .Write
  have except : sets.exception_set = _ := asked .Except
  -- each handle is looked for in what is left of the sets
  have collected : ∀ d ∈ s.mPollDescs, collect { sets with
      read_set := left reported (sets.last_fd + 1) .Read sets.read_set
      write_set := left reported (sets.last_fd + 1) .Write sets.write_set
      exception_set := left reported (sets.last_fd + 1) .Except sets.exception_set }
        { d with out_flags := 0 } =
      if 0 ≤ d.fd ∧ d.fd < FD_SETSIZE then
        some { d with out_flags := flags (d.events (.ok reported)) } else none := by
    intro d member
    refine collect_eq fun event => ?_
    rw [← mem_left s.distinct below member, ← asked event]
    cases event <;> exact Iff.rfl
  have all := mapM_guard collected
  unfold select
  rw [folded]
  simp only [Option.bind_eq_bind, Option.bind_some, List.mapM_map]
  rw [read, write, except, card_left s.distinct below, card_left s.distinct below,
    card_left s.distinct below, ← sum_length_events, ← events]
  split
  next => rfl
  next =>
    rw [read, write, except] at all
    simp only [Function.comp_def, all]
    split
    next => rfl
    next => rfl

theorem sum_events_eq_zero (answer : Answer) :
    (s.mPollDescs.map fun d => (d.events answer).length).sum = 0 ↔
      ∀ d ∈ s.mPollDescs, d.events answer = [] := by
  simp [List.sum_eq_zero_iff_forall_eq_nat]

/-- The number of events fits into 16 bits. -/
theorem toNat_sum_events (answer : Answer)
    (inside : ∀ d ∈ s.mPollDescs, 0 ≤ d.fd ∧ d.fd < FD_SETSIZE) :
    (UInt16.ofNat (s.mPollDescs.map fun d => (d.events answer).length).sum).toNat =
      (s.mPollDescs.map fun d => (d.events answer).length).sum := by
  have most : ∀ n ∈ s.mPollDescs.map fun d => (d.events answer).length, n ≤ 3 := by
    intro n member
    obtain ⟨d, -, rfl⟩ := List.mem_map.mp member
    exact List.length_filter_le ..
  -- three events for each of at most 1024 handles
  have bound := List.sum_le_card_nsmul _ 3 most
  have length := s.length_le inside
  rw [List.length_map, Nat.nsmul_eq_mul] at bound
  rw [UInt16.toNat_ofNat']
  exact Nat.mod_eq_of_lt (by omega)

/-- In an answer with events, all handles are looked for in the sets that are left. -/
theorem contract_iff_of_events {timeout : Interval} {reported : EventType → Int → Bool}
    (placed : ∀ d ∈ s.mPollDescs, Placed d)
    (some' : ¬ ∀ d ∈ s.mPollDescs, d.events (.ok reported) = []) :
    s.Contract timeout (.ok reported) ↔
      timeout.Splits ∧ s.Fits (.ok reported) ∧ s.OneEach (.ok reported) := by
  have selects := select_ok timeout reported placed rfl
  rw [if_neg (mt (sum_events_eq_zero (.ok reported)).mp some')] at selects
  by_cases inside : ∀ d ∈ s.mPollDescs, 0 ≤ d.fd ∧ d.fd < FD_SETSIZE
  · rw [if_pos inside] at selects
    have fits : s.Fits (.ok reported) := fun d member _ => inside d member
    have counted : (s.mPollDescs.map fun d => ({ d with
        out_flags := flags (d.events (.ok reported)) } : BSDPollDesc)).countP
          (fun d => d.out_flags ≠ 0) =
        s.mPollDescs.countP fun d => flags (d.events (.ok reported)) ≠ 0 := by
      rw [List.countP_map]
      rfl
    rw [← denotes_iff, ← oneEach_iff, ← counted, ← toNat_sum_events _ inside]
    unfold Contract
    rw [selects]
    constructor
    · rintro ⟨selected, here, denotes, -, number⟩
      obtain rfl := Option.some.inj here
      exact ⟨denotes, fits, number⟩
    · rintro ⟨denotes, -, number⟩
      exact ⟨_, rfl, denotes, rfl, number⟩
  · -- a handle without a place is looked for in the sets
    rw [if_neg inside] at selects
    have misfit : ¬ s.Fits (.ok reported) := by
      intro fits
      push Not at some'
      exact inside fun d member => fits d member (.inr some')
    exact iff_of_false (fun ⟨_, here, _⟩ => nomatch selects.symm.trans here)
      fun all => misfit all.2.1

theorem contract_iff (timeout : Interval) (answer : Answer) :
    s.Contract timeout answer ↔ timeout.Splits ∧ s.Fits answer ∧ s.OneEach answer := by
  by_cases placed : ∀ d ∈ s.mPollDescs, Placed d
  · by_cases quiet : ∀ d ∈ s.mPollDescs, d.events answer = []
    · have oneEach : s.OneEach answer := fun d member => by simp [quiet d member]
      -- a failure and a timeout leave the handles without events
      have throws : ∃ thrown, s.select timeout answer = some {
          mPollDescs := s.mPollDescs.map fun d => { d with out_flags := 0 }
          numWithEvents := 0
          timeout := passed timeout
          thrown := some thrown } := by
        cases answer with
        | error error =>
          obtain ⟨sets, folded, -, -⟩ := foldlM_request placed
          unfold select
          rw [folded]
          exact ⟨_, rfl⟩
        | ok reported =>
          have selects := select_ok timeout reported placed rfl
          rw [if_pos ((sum_events_eq_zero (.ok reported)).mpr quiet)] at selects
          exact ⟨_, selects⟩
      obtain ⟨thrown, selects⟩ := throws
      rw [contract_iff_of_quiet quiet selects, denotes_iff, fits_iff_of_quiet quiet]
      exact ⟨fun splits => ⟨splits, placed, oneEach⟩, fun all => all.1⟩
    · cases answer with
      | error error => exact absurd (fun d _ => by simp [BSDPollDesc.events, Answer.reported]) quiet
      | ok reported => exact contract_iff_of_events placed quiet
  · have undefined : s.select timeout answer = none := by
      have sets : s.mPollDescs.foldlM request {} = _ := foldlM_guard request_eq {}
      rw [if_neg placed] at sets
      unfold select
      rw [sets]
      rfl
    -- a handle that asks has no place, so the first loop is undefined
    have misfit : ¬ s.Fits answer := fun fits =>
      placed fun d member asks => fits d member (.inl (asks_iff.mpr asks))
    exact iff_of_false (fun ⟨_, here, _⟩ => nomatch undefined.symm.trans here)
      fun all => misfit all.2.1

end SelectorImplBSD

/-! ## The tests of a handle -/

namespace FileHandleImplUNIX

/-- Both tests pass the timeout as `select` does. -/
theorem tests_iff (mFdesc : Int) (timeout : Interval) (answer : Answer) (event : EventType)
    (failure : String) : Tests (isReady mFdesc timeout answer event failure) timeout ↔
      mFdesc = -1 ∨ (timeout.Splits ∧ 0 ≤ mFdesc ∧ mFdesc < FD_SETSIZE) := by
  unfold Tests isReady
  by_cases invalid : mFdesc = -1
  · simp [invalid]
  · by_cases inside : 0 ≤ mFdesc ∧ mFdesc < FD_SETSIZE
    · rw [← denotes_iff]
      cases answer with
      | error error => simp [invalid, FD_SET, inside]
      | ok reported =>
        simp only [invalid, if_false, FD_SET, if_pos inside, FD_ISSET, Option.bind_eq_bind,
          Option.bind_some]
        split <;> simp [inside]
    · simp [invalid, FD_SET, inside]

end FileHandleImplUNIX

/-- `select` and both tests of a file handle do what is documented exactly when the timeout has no
milliseconds beside seconds, no handle has two events, and the descriptors have their place in the
sets. -/
theorem select_contract_iff (s : SelectorImplBSD) (mFdesc : Int) (timeout : Interval)
    (answer : Answer) :
    s.Contract timeout answer ∧
        Tests (FileHandleImplUNIX.isReadable mFdesc timeout answer) timeout ∧
        Tests (FileHandleImplUNIX.isWriteable mFdesc timeout answer) timeout ↔
      timeout.Splits ∧ s.OneEach answer ∧ s.Fits answer ∧
        (mFdesc = -1 ∨ (0 ≤ mFdesc ∧ mFdesc < FD_SETSIZE)) := by
  unfold FileHandleImplUNIX.isReadable FileHandleImplUNIX.isWriteable
  rw [s.contract_iff, FileHandleImplUNIX.tests_iff, FileHandleImplUNIX.tests_iff]
  tauto

/-- A socket that can be read and written. -/
def readableAndWritable : SelectorImplBSD := ((SelectorImplBSD.addHandle {} 3) 3).1

/-- With a timeout of a second and a half, 500 seconds of microseconds are passed beside the one
second, and the one handle that is ready is counted twice. -/
theorem select_counts_twice :
    ∃ selected ∈ readableAndWritable.select 1500000 (.ok fun _ fd => fd = 3),
      selected.numWithEvents = 2 ∧ selected.mPollDescs.countP (fun d => d.out_flags ≠ 0) = 1 ∧
        selected.timeout = some { tv_sec := 1, tv_usec := 500000000 } := by
  decide

end VRJuggler.Vpr
