import Mathlib.Algebra.Group.Nat.Defs
import Mathlib.Data.Fintype.Basic
import Mathlib.Logic.Function.Basic
import VRJuggler.Base.Run

/-!
# Data that messages share

The body of a message is a buffer that it may share: with the application that sent it
without copying, with other messages, and with a reader that takes it over. A read that stops
inside a message erases what it has read from the buffer itself. So the bytes of a socket are
read in order as long as no such read meets a buffer that somebody else holds. A read never
goes on to the next message.
-/
namespace VRJuggler.Sim

/-- A message with a reference to its data; `body` records what the data was when the message
was made. -/
structure DataMessage (σ ρ : Type) where
  mMsg : ρ
  body : List UInt8
  mDestSock : σ
  deriving DecidableEq

/-- `Message::getSize`, with 32 bits. -/
def dataSize (data : List UInt8) : Nat := data.length % 2 ^ 32

/-- `Message::resize`: the number of bytes left, and the buffer. -/
def resize (data : List UInt8) (bytesRead : Nat) : Nat × List UInt8 :=
  let resize_amount := dataSize data - bytesRead
  if 0 < resize_amount ∧ resize_amount ≠ dataSize data then
    (resize_amount, data.drop bytesRead)
  else (resize_amount, data)

/-- The buffers that are in use, which of them an application holds, the messages on the
network and those that have arrived. `received` and `arrived` record the bytes that were read
from each socket and the bodies that arrived there. -/
structure DataSockets (σ ρ : Type) where
  used : ρ → Bool
  data : ρ → List UInt8
  held : ρ → Bool
  inFlight : List (DataMessage σ ρ)
  mArrivedQueue : σ → List (DataMessage σ ρ)
  received : σ → List UInt8
  arrived : σ → List (List UInt8)

/-- `newData` and `release` are what an application does with a buffer; `write` and
`writeData` are the two forms of `write_i`, `read` and `readData` those of `read_i`. The lengths
of `write` and `read` have 32 bits. Any message on the network may arrive next. -/
inductive DataOp (σ ρ : Type) where
  | newData (r : ρ) (data : List UInt8)
  | release (r : ρ)
  | write (dest : σ) (r : ρ) (buffer : List UInt8)
  | writeData (dest : σ) (r : ρ)
  | arrive (k : Nat)
  | read (i : σ) (length : Nat)
  | readData (i : σ)

namespace DataSockets

variable {σ ρ : Type}

def start : DataSockets σ ρ where
  used := fun _ => false
  data := fun _ => []
  held := fun _ => false
  inFlight := []
  mArrivedQueue := fun _ => []
  received := fun _ => []
  arrived := fun _ => []

/-- How many bytes a read of `length` bytes takes from the first message. -/
def copyLen (length : Nat) (data : List UInt8) : Nat :=
  if dataSize data < length then dataSize data else length

/-- The bytes that `read_i` and `recvfrom` put into a buffer of that length. -/
def readBytes (s : DataSockets σ ρ) (i : σ) (length : Nat) : List UInt8 :=
  match s.mArrivedQueue i with
  | [] => []
  | message :: _ => (s.data message.mMsg).take (copyLen length (s.data message.mMsg))

variable [DecidableEq σ] [DecidableEq ρ]

/-- A buffer that was not in use. -/
def allocate (s : DataSockets σ ρ) (r : ρ) (data : List UInt8) : DataSockets σ ρ :=
  { s with used := Function.update s.used r true, data := Function.update s.data r data }

/-- `SocketImplSIM::read_i` and `SocketDatagramImplSIM::recvfrom`. -/
def read (s : DataSockets σ ρ) (i : σ) (length : Nat) : DataSockets σ ρ :=
  match s.mArrivedQueue i with
  | [] => s
  | message :: rest =>
    let data := s.data message.mMsg
    let (resize_amount, data') := resize data (copyLen length data)
    { s with
      data := Function.update s.data message.mMsg data'
      mArrivedQueue := Function.update s.mArrivedQueue i
        (if resize_amount = 0 then rest else message :: rest)
      received := Function.update s.received i (s.received i ++ s.readBytes i length) }

/-- The form of `read_i` that hands the buffer of the first message over to the caller. -/
def readData (s : DataSockets σ ρ) (i : σ) : DataSockets σ ρ :=
  match s.mArrivedQueue i with
  | [] => s
  | message :: rest =>
    { s with
      held := Function.update s.held message.mMsg true
      mArrivedQueue := Function.update s.mArrivedQueue i rest
      received := Function.update s.received i (s.received i ++ s.data message.mMsg) }

/-- `addArrivedMessage` at the destination of the message. -/
def arrive (s : DataSockets σ ρ) (k : Nat) : Option (DataSockets σ ρ) :=
  s.inFlight[k]?.map fun message =>
    { s with
      inFlight := s.inFlight.eraseIdx k
      mArrivedQueue := Function.update s.mArrivedQueue message.mDestSock
        (s.mArrivedQueue message.mDestSock ++ [message])
      arrived := Function.update s.arrived message.mDestSock
        (s.arrived message.mDestSock ++ [message.body]) }

def step (s : DataSockets σ ρ) : DataOp σ ρ → Option (DataSockets σ ρ)
  | .newData r data =>
    if s.used r then none
    else some { s.allocate r data with held := Function.update s.held r true }
  | .release r => some { s with held := Function.update s.held r false }
  | .write dest r buffer =>
    if s.used r = false ∧ buffer.length < 2 ^ 32 then
      some { s.allocate r buffer with inFlight := s.inFlight ++ [⟨r, buffer, dest⟩] }
    else none
  | .writeData dest r =>
    if s.held r then some { s with inFlight := s.inFlight ++ [⟨r, s.data r, dest⟩] } else none
  | .arrive k => s.arrive k
  | .read i length => if length < 2 ^ 32 then some (s.read i length) else none
  | .readData i => some (s.readData i)

/-- The arrived messages apart from the first one of socket `i`. -/
def behind (s : DataSockets σ ρ) (i : σ) : σ → List (DataMessage σ ρ) :=
  Function.update s.mArrivedQueue i (s.mArrivedQueue i).tail

/-- Somebody else than the first message of socket `i` holds the buffer. -/
def Shared (s : DataSockets σ ρ) (i : σ) (r : ρ) : Prop :=
  s.held r = true ∨ (∃ m ∈ s.inFlight, m.mMsg = r) ∨ ∃ j, ∃ m ∈ s.behind i j, m.mMsg = r

/-- A read that stops inside a message finds its data with nobody else, and a buffer that is
sent has a size of 32 bits. -/
def Separate (s : DataSockets σ ρ) : DataOp σ ρ → Prop
  | .read i length => ∀ m ∈ (s.mArrivedQueue i).head?, 0 < length →
      length < (s.data m.mMsg).length → ¬ s.Shared i m.mMsg
  | .writeData _ r => (s.data r).length < 2 ^ 32
  | _ => True

instance [Fintype σ] (s : DataSockets σ ρ) (i : σ) (r : ρ) : Decidable (s.Shared i r) :=
  inferInstanceAs (Decidable (s.held r = true ∨ (∃ m ∈ s.inFlight, m.mMsg = r) ∨
    ∃ j, ∃ m ∈ s.behind i j, m.mMsg = r))

instance [Fintype σ] (s : DataSockets σ ρ) : ∀ op, Decidable (s.Separate op)
  | .read i length => inferInstanceAs (Decidable (∀ m ∈ (s.mArrivedQueue i).head?, 0 < length →
      length < (s.data m.mMsg).length → ¬ s.Shared i m.mMsg))
  | .writeData _ r => inferInstanceAs (Decidable ((s.data r).length < 2 ^ 32))
  | .newData _ _ | .release _ | .write _ _ _ | .arrive _ | .readData _ => isTrue trivial

/-! ### What a read does -/

omit [DecidableEq σ] [DecidableEq ρ] in
theorem readBytes_of_small {s : DataSockets σ ρ} {i : σ} {message : DataMessage σ ρ}
    {rest : List (DataMessage σ ρ)} (front : s.mArrivedQueue i = message :: rest)
    (small : (s.data message.mMsg).length < 2 ^ 32) (length : Nat) :
    s.readBytes i length = (s.data message.mMsg).take length := by
  rw [readBytes, front]
  simp only [copyLen, dataSize, Nat.mod_eq_of_lt small]
  split
  next shorter => rw [List.take_length, List.take_of_length_le (Nat.le_of_lt shorter)]
  next => rfl

/-- A read that reaches the end of the message removes it. -/
theorem read_whole {s : DataSockets σ ρ} {i : σ} {message : DataMessage σ ρ}
    {rest : List (DataMessage σ ρ)} (front : s.mArrivedQueue i = message :: rest)
    (small : (s.data message.mMsg).length < 2 ^ 32) {length : Nat}
    (enough : (s.data message.mMsg).length ≤ length) :
    s.read i length = { s with
      mArrivedQueue := Function.update s.mArrivedQueue i rest
      received := Function.update s.received i (s.received i ++ s.data message.mMsg) } := by
  have copied : copyLen length (s.data message.mMsg) = (s.data message.mMsg).length := by
    simp only [copyLen, dataSize, Nat.mod_eq_of_lt small]
    split <;> omega
  have left : resize (s.data message.mMsg) (s.data message.mMsg).length =
      (0, s.data message.mMsg) := by
    simp only [resize, dataSize, Nat.mod_eq_of_lt small, Nat.sub_self, Nat.lt_irrefl,
      false_and, if_false]
  rw [read, front]
  simp only [copied, left, readBytes_of_small front small, List.take_of_length_le enough,
    Function.update_eq_self, if_true]

/-- A read that stops before leaves the message where it is, without the bytes read. -/
theorem read_part {s : DataSockets σ ρ} {i : σ} {message : DataMessage σ ρ}
    {rest : List (DataMessage σ ρ)} (front : s.mArrivedQueue i = message :: rest)
    (small : (s.data message.mMsg).length < 2 ^ 32) {length : Nat}
    (less : length < (s.data message.mMsg).length) :
    s.read i length = { s with
      data := Function.update s.data message.mMsg ((s.data message.mMsg).drop length)
      received := Function.update s.received i
        (s.received i ++ (s.data message.mMsg).take length) } := by
  have copied : copyLen length (s.data message.mMsg) = length := by
    simp only [copyLen, dataSize, Nat.mod_eq_of_lt small]
    split <;> omega
  have left : resize (s.data message.mMsg) length =
      ((s.data message.mMsg).length - length, (s.data message.mMsg).drop length) := by
    simp only [resize, dataSize, Nat.mod_eq_of_lt small]
    split
    next => rfl
    next nothing =>
      -- only when nothing was read the buffer stays as it is
      obtain rfl : length = 0 := by omega
      rfl
  have remains : ¬ (s.data message.mMsg).length - length = 0 := by omega
  rw [read, front]
  simp only [copied, left, readBytes_of_small front small, if_neg remains]
  rw [← front, Function.update_eq_self]

/-! ### Bytes in order -/

/-- Messages on the network have the data that was sent, and what was read from a socket
together with what is left there are the bodies that arrived. -/
structure Streams (s : DataSockets σ ρ) : Prop where
  heldUsed : ∀ r, s.held r = true → s.used r = true
  flightUsed : ∀ m ∈ s.inFlight, s.used m.mMsg = true
  queueUsed : ∀ i, ∀ m ∈ s.mArrivedQueue i, s.used m.mMsg = true
  sent : ∀ m ∈ s.inFlight, s.data m.mMsg = m.body ∧ m.body.length < 2 ^ 32
  small : ∀ i, ∀ m ∈ s.mArrivedQueue i, (s.data m.mMsg).length < 2 ^ 32
  bytes : ∀ i, s.received i ++ ((s.mArrivedQueue i).map fun m => s.data m.mMsg).flatten =
    (s.arrived i).flatten

omit [DecidableEq σ] [DecidableEq ρ] in
theorem streams_start : (start : DataSockets σ ρ).Streams := by
  constructor <;> simp [start]

omit [DecidableEq σ] in
/-- A new buffer is none that a message has. -/
theorem Streams.allocate {s : DataSockets σ ρ} (streams : s.Streams) {r : ρ}
    (fresh : s.used r = false) (data : List UInt8) : (s.allocate r data).Streams := by
  have other : ∀ {q}, s.used q = true → q ≠ r := by
    rintro q used rfl
    exact Bool.false_ne_true (fresh.symm.trans used)
  have still : ∀ {q}, s.used q = true → Function.update s.used r true q = true := fun used => by
    rw [Function.update_of_ne (other used), used]
  have same : ∀ {q}, s.used q = true → Function.update s.data r data q = s.data q := fun used =>
    Function.update_of_ne (other used) _ _
  constructor
  · exact fun q held => still (streams.heldUsed q held)
  · exact fun m hm => still (streams.flightUsed m hm)
  · exact fun i m hm => still (streams.queueUsed i m hm)
  · intro m hm
    simp only [DataSockets.allocate, same (streams.flightUsed m hm)]
    exact streams.sent m hm
  · intro i m hm
    simp only [DataSockets.allocate, same (streams.queueUsed i m hm)]
    exact streams.small i m hm
  · intro i
    have unchanged : ((s.mArrivedQueue i).map fun m => Function.update s.data r data m.mMsg) =
        (s.mArrivedQueue i).map fun m => s.data m.mMsg :=
      List.map_congr_left fun m hm => same (streams.queueUsed i m hm)
    simp only [DataSockets.allocate, unchanged]
    exact streams.bytes i

omit [DecidableEq σ] [DecidableEq ρ] in
/-- A message is sent with the data that its buffer has. -/
theorem Streams.send {s : DataSockets σ ρ} (streams : s.Streams) (dest : σ) {r : ρ}
    (used : s.used r = true) (small : (s.data r).length < 2 ^ 32) :
    Streams { s with inFlight := s.inFlight ++ [⟨r, s.data r, dest⟩] } := by
  refine ⟨streams.heldUsed, ?_, streams.queueUsed, ?_, streams.small, streams.bytes⟩
  · intro m hm
    rcases List.mem_append.mp hm with old | new
    · exact streams.flightUsed m old
    · rw [List.mem_singleton.mp new]
      exact used
  · intro m hm
    rcases List.mem_append.mp hm with old | new
    · exact streams.sent m old
    · rw [List.mem_singleton.mp new]
      exact ⟨rfl, small⟩

omit [DecidableEq ρ] in
theorem Streams.arrive {s t : DataSockets σ ρ} (streams : s.Streams) {k : Nat}
    (arrives : s.arrive k = some t) : t.Streams := by
  obtain ⟨message, here, rfl⟩ := Option.map_eq_some_iff.mp arrives
  have member : message ∈ s.inFlight := List.mem_of_getElem? here
  have remaining : ∀ m ∈ s.inFlight.eraseIdx k, m ∈ s.inFlight := fun m =>
    List.mem_of_mem_eraseIdx
  have queued : ∀ i, ∀ m ∈ Function.update s.mArrivedQueue message.mDestSock
      (s.mArrivedQueue message.mDestSock ++ [message]) i,
      m ∈ s.mArrivedQueue i ∨ m = message := by
    intro i m hm
    by_cases same : i = message.mDestSock
    · subst same
      simpa using hm
    · rw [Function.update_of_ne same] at hm
      exact Or.inl hm
  refine ⟨streams.heldUsed, fun m hm => streams.flightUsed m (remaining m hm), ?_,
    fun m hm => streams.sent m (remaining m hm), ?_, ?_⟩
  · intro i m hm
    rcases queued i m hm with old | rfl
    · exact streams.queueUsed i m old
    · exact streams.flightUsed m member
  · intro i m hm
    rcases queued i m hm with old | rfl
    · exact streams.small i m old
    · rw [(streams.sent m member).1]
      exact (streams.sent m member).2
  · intro i
    by_cases same : i = message.mDestSock
    · subst same
      simp only [Function.update_self, List.map_append, List.flatten_append, ← List.append_assoc,
        streams.bytes]
      simp [(streams.sent message member).1]
    · simp only [Function.update_of_ne same]
      exact streams.bytes i

omit [DecidableEq ρ] in
theorem mem_behind {s : DataSockets σ ρ} {i : σ} {message : DataMessage σ ρ}
    {rest : List (DataMessage σ ρ)} (front : s.mArrivedQueue i = message :: rest) {j : σ}
    {m : DataMessage σ ρ} :
    m ∈ s.behind i j ↔ if j = i then m ∈ rest else m ∈ s.mArrivedQueue j := by
  by_cases same : j = i
  · subst same
    simp [behind, front]
  · simp [behind, same]

omit [DecidableEq ρ] in
/-- A first message that is read as a whole leaves the queue. -/
theorem Streams.take {s : DataSockets σ ρ} (streams : s.Streams) {i : σ}
    {message : DataMessage σ ρ} {rest : List (DataMessage σ ρ)}
    (front : s.mArrivedQueue i = message :: rest) : Streams { s with
      mArrivedQueue := Function.update s.mArrivedQueue i rest
      received := Function.update s.received i (s.received i ++ s.data message.mMsg) } := by
  have remaining : ∀ j, ∀ m ∈ Function.update s.mArrivedQueue i rest j,
      m ∈ s.mArrivedQueue j := by
    intro j m hm
    by_cases same : j = i
    · subst same
      rw [Function.update_self] at hm
      rw [front]
      exact List.mem_cons_of_mem _ hm
    · rwa [Function.update_of_ne same] at hm
  refine ⟨streams.heldUsed, streams.flightUsed, fun j m hm => streams.queueUsed j m
    (remaining j m hm), streams.sent, fun j m hm => streams.small j m (remaining j m hm), ?_⟩
  intro j
  by_cases same : j = i
  · subst same
    have before := streams.bytes j
    rw [front] at before
    simpa using before
  · simp only [Function.update_of_ne same]
    exact streams.bytes j

theorem Streams.readPart {s : DataSockets σ ρ} (streams : s.Streams) {i : σ}
    {message : DataMessage σ ρ} {rest : List (DataMessage σ ρ)}
    (front : s.mArrivedQueue i = message :: rest) (length : Nat)
    (alone : ¬ s.Shared i message.mMsg) : Streams { s with
      data := Function.update s.data message.mMsg ((s.data message.mMsg).drop length)
      received := Function.update s.received i
        (s.received i ++ (s.data message.mMsg).take length) } := by
  have flight : ∀ m ∈ s.inFlight, m.mMsg ≠ message.mMsg := fun m hm same =>
    alone (Or.inr (Or.inl ⟨m, hm, same⟩))
  have others : ∀ j, ∀ m ∈ s.behind i j, m.mMsg ≠ message.mMsg := fun j m hm same =>
    alone (Or.inr (Or.inr ⟨j, m, hm, same⟩))
  refine ⟨streams.heldUsed, streams.flightUsed, streams.queueUsed, ?_, ?_, ?_⟩
  · intro m hm
    simp only [Function.update_of_ne (flight m hm)]
    exact streams.sent m hm
  · intro j m hm
    dsimp only
    by_cases same : m.mMsg = message.mMsg
    · have whole := streams.small j m hm
      rw [same] at whole ⊢
      rw [Function.update_self, List.length_drop]
      omega
    · rw [Function.update_of_ne same]
      exact streams.small j m hm
  · intro j
    by_cases same : j = i
    · subst same
      have behind : (rest.map fun m => Function.update s.data message.mMsg
          ((s.data message.mMsg).drop length) m.mMsg) = rest.map fun m => s.data m.mMsg := by
        apply List.map_congr_left
        intro m hm
        exact Function.update_of_ne (others j m ((mem_behind front).mpr (by simpa using hm))) _ _
      have before := streams.bytes j
      rw [front] at before
      simp only [Function.update_self, front, List.map_cons, List.flatten_cons, behind]
      rw [← before]
      simp [← List.append_assoc (List.take _ _)]
    · have unchanged : ((s.mArrivedQueue j).map fun m => Function.update s.data message.mMsg
          ((s.data message.mMsg).drop length) m.mMsg) =
          (s.mArrivedQueue j).map fun m => s.data m.mMsg := by
        apply List.map_congr_left
        intro m hm
        exact Function.update_of_ne
          (others j m ((mem_behind front).mpr (by simpa [same] using hm))) _ _
      simp only [Function.update_of_ne same, unchanged]
      exact streams.bytes j

theorem Streams.read {s : DataSockets σ ρ} (streams : s.Streams) {i : σ} {length : Nat}
    (separate : s.Separate (.read i length)) : (s.read i length).Streams := by
  cases front : s.mArrivedQueue i with
  | nil =>
    rw [DataSockets.read, front]
    exact streams
  | cons message rest =>
    have small := streams.small i message (front ▸ List.mem_cons_self ..)
    by_cases enough : (s.data message.mMsg).length ≤ length
    · rw [read_whole front small enough]
      exact streams.take front
    · have less : length < (s.data message.mMsg).length := by omega
      rw [read_part front small less]
      by_cases nothing : length = 0
      · subst nothing
        simpa using streams
      · have alone := separate message (by rw [front]; rfl) (by omega) less
        exact streams.readPart front length alone

theorem streams_step {s t : DataSockets σ ρ} {op : DataOp σ ρ} (streams : s.Streams)
    (separate : s.Separate op) (stepped : s.step op = some t) : t.Streams := by
  -- new data gets a reference that nobody has; the others move references about
  cases op with
  | newData r data =>
    rw [step] at stepped
    split at stepped
    next => cases stepped
    next fresh =>
      obtain rfl := Option.some.inj stepped
      have kept := streams.allocate (Bool.not_eq_true _ ▸ fresh) data
      refine ⟨?_, kept.flightUsed, kept.queueUsed, kept.sent, kept.small, kept.bytes⟩
      intro q held
      by_cases same : q = r
      · simp [allocate, same]
      · dsimp only at held
        rw [Function.update_of_ne same] at held
        exact kept.heldUsed q held
  | release r =>
    obtain rfl := Option.some.inj stepped
    refine ⟨?_, streams.flightUsed, streams.queueUsed, streams.sent, streams.small,
      streams.bytes⟩
    intro q held
    by_cases same : q = r
    · simp [same] at held
    · dsimp only at held
      rw [Function.update_of_ne same] at held
      exact streams.heldUsed q held
  | write dest r buffer =>
    rw [step] at stepped
    split at stepped
    next guard =>
      obtain rfl := Option.some.inj stepped
      have kept := (streams.allocate guard.1 buffer).send dest (r := r)
        (by simp [allocate]) (by simpa [allocate] using guard.2)
      simpa [allocate] using kept
    next => cases stepped
  | writeData dest r =>
    rw [step] at stepped
    split at stepped
    next held =>
      obtain rfl := Option.some.inj stepped
      exact streams.send dest (streams.heldUsed r held) separate
    next => cases stepped
  | arrive k => exact streams.arrive stepped
  | read i length =>
    rw [step] at stepped
    split at stepped
    next =>
      obtain rfl := Option.some.inj stepped
      exact streams.read separate
    next => cases stepped
  | readData i =>
    obtain rfl := Option.some.inj stepped
    rw [readData]
    cases front : s.mArrivedQueue i with
    | nil => exact streams
    | cons message rest =>
      have taken := streams.take front
      refine ⟨?_, taken.flightUsed, taken.queueUsed, taken.sent, taken.small, taken.bytes⟩
      intro q held
      by_cases same : q = message.mMsg
      · rw [same]
        exact streams.queueUsed i message (front ▸ List.mem_cons_self ..)
      · dsimp only at held
        rw [Function.update_of_ne same] at held
        exact streams.heldUsed q held

/-- In a run whose reads meet no shared buffer in the middle, the bytes that were read from a
socket and those that are left there are the bodies that arrived, in order. A read gets fewer
bytes than it asks for only when it has used up the first message or there is none; and
nobody else sees a change of the data. -/
theorem reads_in_order {ops : List (DataOp σ ρ)} {s : DataSockets σ ρ}
    (meets : Meets step Separate start ops) (reached : run step start ops = some s) :
    (∀ i, s.received i ++ ((s.mArrivedQueue i).map fun m => s.data m.mMsg).flatten =
      (s.arrived i).flatten) ∧
    ∀ i length, s.Separate (.read i length) →
      (s.read i length).received i = s.received i ++ s.readBytes i length ∧
      ((s.readBytes i length).length < length → s.mArrivedQueue i = [] ∨ ∃ message,
        s.mArrivedQueue i = message :: (s.read i length).mArrivedQueue i ∧
          s.readBytes i length = s.data message.mMsg) ∧
      (∀ r, s.held r = true → (s.read i length).data r = s.data r) ∧
      (∀ m ∈ s.inFlight, (s.read i length).data m.mMsg = s.data m.mMsg) ∧
      ∀ j, ∀ m ∈ s.behind i j, (s.read i length).data m.mMsg = s.data m.mMsg := by
  have streams : s.Streams := run_invariant_of_meets Streams Separate
    (fun _ _ _ => streams_step) streams_start meets reached
  refine ⟨streams.bytes, fun i length separate => ?_⟩
  cases front : s.mArrivedQueue i with
  | nil => simp [read, readBytes, front]
  | cons message rest =>
    have small := streams.small i message (front ▸ List.mem_cons_self ..)
    by_cases enough : (s.data message.mMsg).length ≤ length
    · rw [read_whole front small enough, readBytes_of_small front small,
        List.take_of_length_le enough]
      simp
    · have less : length < (s.data message.mMsg).length := by omega
      rw [read_part front small less, readBytes_of_small front small]
      have same : ∀ r, s.Shared i r → Function.update s.data message.mMsg
          ((s.data message.mMsg).drop length) r = s.data r := by
        intro r shared
        by_cases here : r = message.mMsg
        · by_cases nothing : length = 0
          · simp [nothing]
          · have alone := separate message (by rw [front]; rfl) (by omega) less
            exact absurd (here ▸ shared) alone
        · exact Function.update_of_ne here _ _
      refine ⟨by simp, ?_, fun r held => same r (Or.inl held),
        fun m hm => same _ (Or.inr (Or.inl ⟨m, hm, rfl⟩)),
        fun j m hm => same _ (Or.inr (Or.inr ⟨j, m, hm, rfl⟩))⟩
      intro short
      rw [List.length_take] at short
      omega

/-- Two messages, of which the second is read in two parts. -/
def twoMessages : List (DataOp Bool Bool) :=
  [.write false false [1, 2], .write false true [3, 4], .arrive 0, .arrive 0, .read false 5,
    .read false 1]

theorem reads_in_order_twoMessages : ∃ s : DataSockets Bool Bool,
    run step start twoMessages = some s ∧ s.received false = [1, 2, 3] ∧
      s.received false ++ ((s.mArrivedQueue false).map fun m => s.data m.mMsg).flatten =
        (s.arrived false).flatten := by
  obtain ⟨s, reached, bytes⟩ := Option.map_eq_some_iff.mp (show
    (run step start twoMessages).map (fun s => s.received false) = some [1, 2, 3] by decide +kernel)
  exact ⟨s, reached, bytes, (reads_in_order (by decide +kernel) reached).1 false⟩

/-- A buffer that is sent to both sockets without copying arrives twice at the first one. -/
def sharedMessages : List (DataOp Bool Bool) :=
  [.newData false [1, 2, 3], .writeData false false, .writeData false false,
    .writeData true false, .arrive 0, .arrive 0, .arrive 0]

/-- A read gets three bytes of five although the next message has arrived, and a read of two
bytes changes what the sender and the other receiver see. -/
theorem read_short_and_shared : ∃ s : DataSockets Bool Bool,
    run step start sharedMessages = some s ∧
      ((s.readBytes false 5).length < 5 ∧ (s.read false 5).mArrivedQueue false ≠ []) ∧
      s.held false = true ∧ (s.read false 2).data false ≠ s.data false ∧
      (s.read false 2).readBytes true 3 ≠ s.readBytes true 3 := by
  obtain ⟨s, reached, values⟩ := Option.map_eq_some_iff.mp (show
    (run step start sharedMessages).map (fun s => decide
      (((s.readBytes false 5).length < 5 ∧ (s.read false 5).mArrivedQueue false ≠ []) ∧
        s.held false = true ∧ (s.read false 2).data false ≠ s.data false ∧
        (s.read false 2).readBytes true 3 ≠ s.readBytes true 3)) = some true by decide +kernel)
  exact ⟨s, reached, of_decide_eq_true values⟩

end DataSockets

end VRJuggler.Sim
