import VRJuggler.Cluster.PacketRoundTrip

/-!
# Packets over a stream that fragments

The operating system may accept a part of the bytes that are written, and return a part of
those that have come in. `readn` goes on until it has all bytes that were asked for, but
`Node::send` takes no notice of how many of its bytes were accepted. So packets survive just
when every write that accepts bytes accepts those of the whole packet.
-/
namespace VRJuggler.Cluster.Fragmenting

open VRJuggler (ByteOrder)
open VRJuggler.Io

/-! ## Sending -/

/-- The answer to a call of `::write`: it accepts `n + 1` bytes, or all when there are fewer,
or it fails. -/
inductive OsWrite where
  | accepts (n : Nat)
  | fails
  deriving DecidableEq

/-- The number of bytes that are accepted of those offered. -/
def OsWrite.accepted (os : OsWrite) (offered : Nat) : Nat :=
  match os with
  | accepts n => min (n + 1) offered
  | fails => 0

/-- `FileHandleImplUNIX::write_i`. -/
def write_i (os : OsWrite) (buffer stream : List UInt8) : Except Fault Nat × List UInt8 :=
  let bytes := os.accepted buffer.length
  if bytes = 0 then (.error .ioException, stream) else (.ok bytes, stream ++ buffer.take bytes)

/-- What `Node::send` offers to the socket. -/
def offered (packet : Packet) : List UInt8 :=
  packet.mPacketWriter.mData.take packet.mHeader.mPacketLength.toNat

/-- `Node::send`. -/
def send (os : OsWrite) (packet : Packet) (stream : List UInt8) :
    Except Fault Bool × List UInt8 :=
  match write_i os (offered packet) stream with
  | (.ok _, stream) => (.ok true, stream)
  | (.error _, stream) => (.error .clusterException, stream)

/-- A packet to send, and what the operating system will answer. -/
structure Sending (order : ByteOrder) where
  out : Outgoing
  packet : Packet
  created : out.create order = some packet
  os : OsWrite

/-- A packet that was created is the one that its arguments describe. -/
theorem Sending.packet_eq {order : ByteOrder} (s : Sending order) : s.packet = s.out.packet := by
  have created := s.created
  rw [Outgoing.create_eq, serialize] at created
  obtain ⟨writer, performed, -⟩ := Option.bind_eq_some_iff.mp created
  have fits : ∀ call ∈ s.out.fields ++ s.out.object, call.Fits :=
    BufferObjectWriter.fits_of_run order performed
  exact Option.some.inj (s.created.symm.trans (Outgoing.create_of_fits order fits))

/-- The packets whose `send` returns, and the bytes on the stream. -/
def sendEach {order : ByteOrder} :
    List (Sending order) → List UInt8 → List (Sending order) × List UInt8
  | [], stream => ([], stream)
  | s :: sends, stream =>
    match send s.os s.packet stream with
    | (.ok _, stream) => (s :: (sendEach sends stream).1, (sendEach sends stream).2)
    | (.error _, stream) => sendEach sends stream

/-! ## Receiving -/

/-- The answer to a call of `::read`: it returns `n + 1` bytes, or fewer when fewer are asked
for or there are fewer, none at the end of the stream; it is interrupted; or it fails. -/
inductive OsRead where
  | returns (n : Nat)
  | interrupted
  | fails
  deriving DecidableEq

/-- The receiving end: the bytes that come in until the stream ends, and the answers of the
operating system. -/
structure Source where
  incoming : List UInt8
  answers : List OsRead
  deriving DecidableEq

/-- The loop of `FileHandleImplUNIX::readn_i`; `none` as long as an answer is missing. -/
def readn_i : List OsRead → List UInt8 → Nat → List UInt8 →
    Option (Except Fault (List UInt8) × Source)
  | answers, incoming, 0, buffer => some (.ok buffer, ⟨incoming, answers⟩)
  | [], _, _ + 1, _ => none
  | .interrupted :: answers, incoming, bytes_left + 1, buffer =>
    readn_i answers incoming (bytes_left + 1) buffer
  | .fails :: answers, incoming, _ + 1, _ => some (.error .ioException, ⟨incoming, answers⟩)
  | .returns n :: answers, incoming, bytes_left + 1, buffer =>
    let bytes := min (n + 1) (min (bytes_left + 1) incoming.length)
    if bytes = 0 then some (.error .eofException, ⟨incoming, answers⟩)
    else readn_i answers (incoming.drop bytes) (bytes_left + 1 - bytes)
      (buffer ++ incoming.take bytes)

namespace Source

/-- `SocketImplBSD::readn_i`: a socket that returns no byte was closed. -/
def readn (s : Source) (length : UInt32) : Option (Except Fault (List UInt8) × Source) :=
  match readn_i s.answers s.incoming length.toNat [] with
  | some (.ok [], t) => some (.error .ioException, t)
  | result => result

variable (order : ByteOrder) (behind : Nat → UInt8)

/-- `Header::readData`. -/
def readData (s : Source) : Option (Except Fault Header × Source) :=
  match s.readn (UInt32.ofNat RIM_PACKET_HEAD_SIZE) with
  | none => none
  | some (.error _, t) => some (.error .ioException, t)
  | some (.ok header_data, t) =>
    some ((Header.parseHeader (BufferObjectReader.reader behind order) (.at' header_data 0)).1, t)

/-- What `Node::recvPacket` makes of the data of a packet. -/
def parsed (packet_head : Header)
    (parse : ObjectReader BufferObjectReader → Reading BufferObjectReader (GUID × Body))
    (data : List UInt8) : Except Fault Node.Received :=
  match parse (BufferObjectReader.reader behind order) (.at' data 0) with
  | (.ok (mPluginId, body), mPacketReader) =>
    .ok { mHeader := packet_head, mPluginId, body, mPacketReader }
  | (.error fault, _) => .error fault

/-- `Node::recvPacket`. -/
def recvPacket (s : Source) : Option (Except Fault Node.Received × Source) :=
  match s.readData order behind with
  | none => none
  | some (.error fault, t) => some (.error fault, t)
  | some (.ok packet_head, t) =>
    match Node.createObject packet_head.mPacketType with
    | none => some (.error .clusterException, t)
    | some parse =>
      match t.readn (packet_head.mPacketLength - UInt32.ofNat RIM_PACKET_HEAD_SIZE) with
      | none => none
      | some (.error _, u) => some (.error .clusterException, u)
      | some (.ok data, u) => some (parsed order behind packet_head parse data, u)

/-- How a number of calls ends. -/
inductive Ending where
  | returned
  | waiting
  | threw (fault : Fault)
  deriving DecidableEq

/-- `n` calls of `recvPacket`, up to the first that throws. -/
def recvPackets : Nat → Source → List Node.Received × Ending
  | 0, _ => ([], .returned)
  | n + 1, s =>
    match s.recvPacket order behind with
    | none => ([], .waiting)
    | some (.error fault, _) => ([], .threw fault)
    | some (.ok packet, t) => (packet :: (recvPackets n t).1, (recvPackets n t).2)

end Source

/-! ## What is on the stream -/

section Sending

variable {order : ByteOrder}

/-- The bytes of a packet that its `send` puts on the stream. -/
def Sending.accepted (s : Sending order) : Nat := s.os.accepted (offered s.packet).length

/-- The whole packet is accepted, or nothing of it. -/
def Sending.Whole (s : Sending order) : Prop :=
  s.accepted ≠ 0 → s.accepted = s.packet.mPacketWriter.mData.length

instance (s : Sending order) : Decidable s.Whole :=
  inferInstanceAs (Decidable (s.accepted ≠ 0 → s.accepted = s.packet.mPacketWriter.mData.length))

theorem OsWrite.accepted_le (os : OsWrite) (offered : Nat) : os.accepted offered ≤ offered := by
  cases os with
  | accepts n => exact Nat.min_le_right _ _
  | fails => exact Nat.zero_le _

theorem Sending.accepted_le (s : Sending order) :
    s.accepted ≤ s.packet.mHeader.mPacketLength.toNat ∧
      s.accepted ≤ s.packet.mPacketWriter.mData.length := by
  have bound := s.os.accepted_le (offered s.packet).length
  have length : (offered s.packet).length ≤ s.packet.mHeader.mPacketLength.toNat ∧
      (offered s.packet).length ≤ s.packet.mPacketWriter.mData.length := by
    rw [offered, List.length_take]
    omega
  exact ⟨bound.trans length.1, bound.trans length.2⟩

theorem send_eq (s : Sending order) (stream : List UInt8) :
    send s.os s.packet stream =
      if s.accepted = 0 then (.error .clusterException, stream)
      else (.ok true, stream ++ s.packet.mPacketWriter.mData.take s.accepted) := by
  have part : (offered s.packet).take s.accepted =
      s.packet.mPacketWriter.mData.take s.accepted := by
    rw [offered, List.take_take, Nat.min_eq_left s.accepted_le.1]
  simp only [send, write_i]
  rw [show s.os.accepted (offered s.packet).length = s.accepted from rfl, part]
  by_cases nothing : s.accepted = 0
  · simp [nothing]
  · simp [nothing]

/-- A `send` returns when bytes are accepted, and the accepted bytes follow each other. -/
theorem sendEach_eq (sends : List (Sending order)) (stream : List UInt8) :
    sendEach sends stream = (sends.filter fun s => s.accepted ≠ 0,
      stream ++ sends.flatMap fun s => s.packet.mPacketWriter.mData.take s.accepted) := by
  induction sends generalizing stream with
  | nil => simp [sendEach]
  | cons s sends ih =>
    rw [sendEach, send_eq]
    by_cases nothing : s.accepted = 0
    · simp [nothing, ih]
    · simp [nothing, ih]

/-- All bytes of the packets whose `send` returned are on the stream, one packet after the
other. -/
def AllPut (sends : List (Sending order)) : Prop :=
  (sendEach sends []).2 = (sendEach sends []).1.flatMap fun s => s.packet.mPacketWriter.mData

theorem allPut_iff (sends : List (Sending order)) : AllPut sends ↔ ∀ s ∈ sends, s.Whole := by
  rw [AllPut, sendEach_eq, List.nil_append]
  constructor
  · -- what is accepted of a packet is never longer than the packet
    have shorter : ∀ sends : List (Sending order),
        (sends.flatMap fun s => s.packet.mPacketWriter.mData.take s.accepted).length ≤
          ((sends.filter fun s => s.accepted ≠ 0).flatMap
            fun s => s.packet.mPacketWriter.mData).length := by
      intro sends
      induction sends with
      | nil => simp
      | cons s sends ih =>
        by_cases nothing : s.accepted = 0
        · simpa [nothing] using ih
        · have bound := s.accepted_le.2
          simp only [List.flatMap_cons, List.length_append, List.length_take, ne_eq, nothing,
            not_false_eq_true, decide_true, List.filter_cons_of_pos] at ih ⊢
          omega
    intro same
    have lengths := congrArg List.length same
    clear same
    induction sends with
    | nil => simp
    | cons s sends ih =>
      have later := shorter sends
      have bound := s.accepted_le.2
      by_cases nothing : s.accepted = 0
      · have rest := ih (by simpa [nothing] using lengths)
        exact List.forall_mem_cons.mpr ⟨fun some' => absurd nothing some', rest⟩
      · simp only [List.flatMap_cons, List.length_append, List.length_take, ne_eq, nothing,
          not_false_eq_true, decide_true, List.filter_cons_of_pos] at lengths later
        refine List.forall_mem_cons.mpr ⟨fun _ => by omega, ih ?_⟩
        simp only [ne_eq]
        omega
  · intro whole
    induction sends with
    | nil => rfl
    | cons s sends ih =>
      obtain ⟨first, rest⟩ := List.forall_mem_cons.mp whole
      by_cases nothing : s.accepted = 0
      · simpa [nothing] using ih rest
      · have later := ih rest
        rw [List.filter_cons_of_pos (by simpa using nothing), List.flatMap_cons,
          List.flatMap_cons, first nothing, List.take_length]
        exact congrArg _ later

end Sending

/-! ## Reading -/

/-- The answers that are neither interrupts nor failures. -/
def returning (answers : List OsRead) : Nat :=
  answers.countP fun answer => match answer with
    | .returns _ => true
    | .interrupted | .fails => false

/-- How the loop may end: with the bytes asked for, with an exception because a read failed or
the stream ended before, or waiting, after no more answers than bytes have come in. -/
def LoopEnds (answers : List OsRead) (incoming : List UInt8) (bytes_left : Nat)
    (buffer : List UInt8) : Option (Except Fault (List UInt8) × Source) → Prop
  | some (.ok data, t) => bytes_left ≤ incoming.length ∧
      data = buffer ++ incoming.take bytes_left ∧ t.incoming = incoming.drop bytes_left ∧
      t.answers <:+ answers ∧ returning answers ≤ returning t.answers + bytes_left
  | some (.error _, _) => .fails ∈ answers ∨ incoming.length < bytes_left
  | none => returning answers ≤ incoming.length

/-- An interrupt changes nothing. -/
theorem LoopEnds.interrupted {answers : List OsRead} {incoming : List UInt8} {bytes_left : Nat}
    {buffer : List UInt8} {result : Option (Except Fault (List UInt8) × Source)}
    (ends : LoopEnds answers incoming bytes_left buffer result) :
    LoopEnds (.interrupted :: answers) incoming bytes_left buffer result := by
  have count : returning (.interrupted :: answers) = returning answers := by simp [returning]
  match result, ends with
  | some (.ok data, t), ends =>
    obtain ⟨enough, read, left, suffix, fewer⟩ := ends
    exact ⟨enough, read, left, suffix.trans (List.suffix_cons _ _), count ▸ fewer⟩
  | some (.error _, _), ends => exact ends.imp (List.mem_cons_of_mem _) id
  | none, ends => exact le_of_eq_of_le count ends

/-- Some bytes that were read, and what the loop does afterwards. -/
theorem LoopEnds.returns {answers : List OsRead} {incoming : List UInt8}
    {bytes_left bytes n : Nat} {buffer : List UInt8}
    {result : Option (Except Fault (List UInt8) × Source)} (some' : 0 < bytes)
    (asked : bytes ≤ bytes_left) (there : bytes ≤ incoming.length)
    (ends : LoopEnds answers (incoming.drop bytes) (bytes_left - bytes)
      (buffer ++ incoming.take bytes) result) :
    LoopEnds (.returns n :: answers) incoming bytes_left buffer result := by
  have count : returning (.returns n :: answers) = returning answers + 1 := by simp [returning]
  match result, ends with
  | some (.ok data, t), ends =>
    obtain ⟨enough, read, left, suffix, fewer⟩ := ends
    rw [List.length_drop] at enough
    refine ⟨by omega, ?_, ?_, suffix.trans (List.suffix_cons _ _), by omega⟩
    · rw [read, List.append_assoc, ← List.take_add, Nat.add_sub_cancel' asked]
    · rw [left, List.drop_drop, Nat.add_sub_cancel' asked]
  | some (.error _, _), ends =>
    rcases ends with failed | short
    · exact Or.inl (List.mem_cons_of_mem _ failed)
    · rw [List.length_drop] at short
      right
      omega
  | none, ends =>
    simp only [LoopEnds, List.length_drop] at ends ⊢
    omega

theorem readn_i_ends (answers : List OsRead) (incoming : List UInt8) (bytes_left : Nat)
    (buffer : List UInt8) :
    LoopEnds answers incoming bytes_left buffer
      (readn_i answers incoming bytes_left buffer) := by
  induction answers generalizing incoming bytes_left buffer with
  | nil =>
    cases bytes_left with
    | zero => simp [readn_i, LoopEnds]
    | succ bytes_left => simp [readn_i, LoopEnds, returning]
  | cons answer answers ih =>
    cases bytes_left with
    | zero => simp [readn_i, LoopEnds]
    | succ bytes_left =>
      cases answer with
      | fails => simp [readn_i, LoopEnds]
      | interrupted =>
        rw [readn_i]
        exact (ih incoming (bytes_left + 1) buffer).interrupted
      | returns n =>
        rw [readn_i]
        by_cases nothing : min (n + 1) (min (bytes_left + 1) incoming.length) = 0
        · rw [if_pos nothing]
          right
          omega
        · -- at least one byte was read
          rw [if_neg nothing]
          exact LoopEnds.returns (by omega) (by omega) (by omega) (ih _ _ _)

namespace Source

/-- What `readn` promises. -/
def Ends (s : Source) (length : Nat) : Option (Except Fault (List UInt8) × Source) → Prop :=
  LoopEnds s.answers s.incoming length []

theorem readn_ends (s : Source) (length : UInt32) (some' : 0 < length.toNat) :
    s.Ends length.toNat (s.readn length) := by
  have ends := readn_i_ends s.answers s.incoming length.toNat []
  rw [readn]
  split
  next t done =>
    -- bytes were asked for, so this is never reached
    rw [done] at ends
    obtain ⟨enough, none, -⟩ := ends
    have size := congrArg List.length none
    simp only [List.nil_append, List.length_take, List.length_nil] at size
    omega
  next => exact ends

variable (order : ByteOrder) (behind : Nat → UInt8)

/-- How a call of `recvPacket` may end when the next packet is `out`, with `rest` behind it, as
far as the bytes come in: the packet is received, a read failed, the stream ended inside the
packet, or it waits. -/
def PacketEnds (s : Source) (out : Outgoing) (rest : List UInt8) :
    Option (Except Fault Node.Received × Source) → Prop
  | some (.ok received, t) => received = out.received ∧ out.size ≤ s.incoming.length ∧
      t.incoming <+: rest ∧ t.incoming.length + out.size = s.incoming.length ∧
      t.answers <:+ s.answers ∧ returning s.answers ≤ returning t.answers + out.size
  | some (.error _, _) => .fails ∈ s.answers ∨ s.incoming.length < out.size
  | none => returning s.answers ≤ s.incoming.length

theorem take_of_prefix {front rest incoming : List UInt8} (coming : incoming <+: front ++ rest)
    (enough : front.length ≤ incoming.length) :
    incoming.take front.length = front ∧ incoming.drop front.length <+: rest := by
  have first : front <+: incoming :=
    List.prefix_of_prefix_length_le (List.prefix_append _ _) coming enough
  obtain ⟨later, rfl⟩ := first
  exact ⟨List.take_left, List.drop_left ▸ (List.prefix_append_right_inj front).mp coming⟩

theorem parsed_sent {out : Outgoing} (small : out.size < 2 ^ 32) :
    parsed order behind out.sentHeader out.parse (encodeAll (out.fields ++ out.object)) =
      .ok out.received := by
  rw [parsed, Outgoing.parse_payload order behind small]
  rfl

theorem recvPacket_ends {out : Outgoing} (small : out.size < 2 ^ 32) {s : Source}
    {rest : List UInt8} (coming : s.incoming <+: out.bytes ++ rest) :
    s.PacketEnds out rest (s.recvPacket order behind) := by
  have head := Header.length_encode out.sentHeader
  have twelve : (UInt32.ofNat RIM_PACKET_HEAD_SIZE).toNat = RIM_PACKET_HEAD_SIZE := rfl
  have size : out.size =
    RIM_PACKET_HEAD_SIZE + (encodeAll (out.fields ++ out.object)).length := rfl
  have positive : 0 < (encodeAll (out.fields ++ out.object)).length := by
    have fields := out.fields_pos
    rw [encodeAll_append, List.length_append]
    omega
  have lengths := Outgoing.payload_length small
  generalize asked : out.sentHeader.mPacketLength - UInt32.ofNat RIM_PACKET_HEAD_SIZE = length
    at lengths
  rw [Outgoing.bytes, List.append_assoc] at coming
  have first := s.readn_ends (UInt32.ofNat RIM_PACKET_HEAD_SIZE) (by decide)
  rw [recvPacket, readData]
  rcases done : s.readn (UInt32.ofNat RIM_PACKET_HEAD_SIZE) with
    _ | ⟨_ | header_data, t⟩
  · rw [done] at first
    exact first
  · rw [done] at first
    exact first.imp id fun short => by omega
  · rw [done] at first
    obtain ⟨enough, read, left, suffix, fewer⟩ := first
    obtain ⟨here, later⟩ := take_of_prefix coming (by omega)
    rw [head, ← twelve] at here later
    rw [List.nil_append, here] at read
    rw [← left] at later
    subst read
    have remaining : t.incoming.length + RIM_PACKET_HEAD_SIZE = s.incoming.length := by
      rw [left, List.length_drop]
      omega
    -- the header is the one that was sent, and so the payload is asked for
    simp only [out.parseHeader_sent, Outgoing.createObject_eq, asked]
    have second := t.readn_ends length (by omega)
    rw [lengths] at second
    rcases ended : t.readn length with _ | ⟨_ | data, u⟩
    · rw [ended] at second
      have waits : returning t.answers ≤ t.incoming.length := second
      simp only [PacketEnds]
      omega
    · rw [ended] at second
      rcases second with failed | short
      · exact Or.inl (suffix.subset failed)
      · right
        omega
    · rw [ended] at second
      obtain ⟨all, got, behind', suffix', fewer'⟩ := second
      obtain ⟨there, rest'⟩ := take_of_prefix later all
      rw [List.nil_append, there] at got
      rw [← behind'] at rest'
      subst got
      simp only [parsed_sent order behind small]
      have remains : u.incoming.length + (encodeAll (out.fields ++ out.object)).length =
          t.incoming.length := by
        rw [behind', List.length_drop]
        omega
      exact ⟨rfl, by omega, rest', by omega, suffix'.trans suffix, by omega⟩

/-- With nothing coming in any more no packet is received. -/
theorem recvPacket_of_end {s : Source} (ended : s.incoming = []) :
    match s.recvPacket order behind with
    | some (.ok _, _) => False
    | some (.error _, _) => True
    | none => returning s.answers ≤ 0 := by
  have first := s.readn_ends (UInt32.ofNat RIM_PACKET_HEAD_SIZE) (by decide)
  rw [recvPacket, readData]
  match done : s.readn (UInt32.ofNat RIM_PACKET_HEAD_SIZE) with
  | none =>
    rw [done] at first
    have waits : returning s.answers ≤ s.incoming.length := first
    rwa [ended] at waits
  | some (.error _, t) => trivial
  | some (.ok header_data, t) =>
    rw [done] at first
    have enough := first.1
    rw [ended] at enough
    exact absurd enough (by decide)

/-- What is promised for a number of calls of `recvPacket` when some packets were put on the
stream, of which the bytes come in up to some point: the first of the packets are received;
the calls all return unless a read fails, the stream ends before the next packet is complete,
or the operating system answers no more reads than there are bytes. -/
structure Yields {host : ByteOrder} (sent : List (Sending host)) (s : Source) (n : Nat)
    (received : List Node.Received) (ending : Ending) : Prop where
  inOrder : List.Forall₂ (fun out arrived =>
    Node.Recovered order behind out.out out.packet arrived) (sent.take received.length) received
  all : ending = .returned → received.length = n
  threw : ∀ fault, ending = .threw fault → .fails ∈ s.answers ∨ received.length = sent.length ∨
    s.incoming.length < ((sent.take (received.length + 1)).flatMap
      fun out => out.packet.mPacketWriter.mData).length
  waits : ending = .waiting → returning s.answers ≤ s.incoming.length

theorem recvPackets_yields {host : ByteOrder} {sent : List (Sending host)}
    (small : ∀ out ∈ sent, out.out.size < 2 ^ 32) (n : Nat) {s : Source}
    (coming : s.incoming <+: sent.flatMap fun out => out.packet.mPacketWriter.mData) :
    Yields order behind sent s n (s.recvPackets order behind n).1
      (s.recvPackets order behind n).2 := by
  -- the induction is on the number of packets that are asked for
  induction n generalizing sent s with
  | zero => constructor <;> simp [recvPackets]
  | succ n ih =>
    cases sent with
    | nil =>
      have ended := recvPacket_of_end order behind (List.prefix_nil.mp coming)
      rw [recvPackets]
      match done : s.recvPacket order behind with
      | none =>
        rw [done] at ended
        have nothing : returning s.answers ≤ 0 := ended
        constructor <;> simp
        omega
      | some (.error _, t) => constructor <;> simp
      | some (.ok _, t) =>
        rw [done] at ended
        exact ended.elim
    | cons out sent =>
      have data : out.packet.mPacketWriter.mData = out.out.bytes := by
        rw [out.packet_eq]
        rfl
      rw [List.flatMap_cons, data] at coming
      have fits := small out (List.mem_cons_self ..)
      have size : out.packet.mPacketWriter.mData.length = out.out.size := by
        rw [data, Outgoing.length_bytes]
      -- the first packet is received, or its receiver waits or throws
      have ends := recvPacket_ends order behind fits coming
      rw [recvPackets]
      match done : s.recvPacket order behind with
      | none =>
        rw [done] at ends
        have waits : returning s.answers ≤ s.incoming.length := ends
        constructor <;> simp [waits]
      | some (.error _, t) =>
        rw [done] at ends
        constructor
        · simp
        · simp
        · intro fault _
          rcases ends with failed | short
          · exact Or.inl failed
          · right; right
            simpa [size] using short
        · simp
      | some (.ok received, t) =>
        rw [done] at ends
        obtain ⟨rfl, enough, later, remaining, suffix, fewer⟩ := ends
        have rest := ih (fun next member => small next (List.mem_cons_of_mem _ member)) later
        constructor
        · simp only [List.length_cons, List.take_succ_cons]
          refine .cons ?_ rest.inOrder
          rw [out.packet_eq]
          exact Node.recovered_of_small order behind fits
        · intro returned
          rw [List.length_cons, rest.all returned]
        · intro fault threw
          rcases rest.threw fault threw with failed | whole | short
          · exact Or.inl (suffix.subset failed)
          · exact Or.inr (Or.inl (by rw [List.length_cons, List.length_cons, whole]))
          · right; right
            rw [List.length_cons, List.take_succ_cons, List.flatMap_cons, List.length_append]
            omega
        · intro waiting
          have fewer' := rest.waits waiting
          omega

end Source

/-! ## The stream as a whole -/

/-- What is promised for some packets: those whose `send` returns are on the stream as a whole,
one after the other, and the receiving end gets them back, up to where the stream ends. -/
def Survive {host : ByteOrder} (sends : List (Sending host)) : Prop :=
  AllPut sends ∧ ∀ (order : ByteOrder) (behind : Nat → UInt8) (s : Source) (n : Nat),
    s.incoming <+: (sendEach sends []).2 →
      Source.Yields order behind (sendEach sends []).1 s n (s.recvPackets order behind n).1
        (s.recvPackets order behind n).2

/-- Packets survive just when each write that accepts bytes of a packet accepts all of them. -/
theorem survive_iff {host : ByteOrder} (sends : List (Sending host)) :
    Survive sends ↔ ∀ s ∈ sends, s.Whole := by
  constructor
  · intro survive
    exact (allPut_iff sends).mp survive.1
  · intro whole
    have put := (allPut_iff sends).mpr whole
    refine ⟨put, fun order behind s n coming => ?_⟩
    rw [AllPut] at put
    rw [put] at coming
    refine Source.recvPackets_yields order behind (fun out member => ?_) n coming
    -- a packet that was accepted as a whole is as long as its header says
    rw [sendEach_eq] at member
    obtain ⟨member, some'⟩ := List.mem_filter.mp member
    have all := whole out member (by simpa using some')
    have bound := out.accepted_le.1
    have limit := out.packet.mHeader.mPacketLength.toNat_lt
    have size : out.packet.mPacketWriter.mData.length = out.out.size := by
      rw [out.packet_eq]
      exact out.out.length_bytes
    omega

/-! ## A write that is cut -/

/-- The end block of a frame, of which the operating system accepts `n + 1` bytes. -/
def endBlockSending (n : Nat) : Sending .littleEndian where
  out := .endBlock 7
  packet := (Outgoing.endBlock 7).packet
  created := Outgoing.create_of_small _ (by decide)
  os := .accepts n

/-- The first end block is cut after ten of its fourteen bytes, and its `send` returns. -/
theorem not_survive_cut : ¬ Survive [endBlockSending 9, endBlockSending 13] := by
  intro survive
  exact absurd ((allPut_iff _).mp survive.1) (by decide)

end VRJuggler.Cluster.Fragmenting
