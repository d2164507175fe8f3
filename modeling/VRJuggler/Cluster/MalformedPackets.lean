import VRJuggler.Cluster.PacketRoundTrip
import VRJuggler.Io.BufferBounds

/-!
# Packets that are not what they seem

What `Node::recvPacket` does with any bytes that begin with an acceptable header: when the
size of the payload is the difference that it is meant to be, and when the packet's
`parse` reads bytes of the payload only.
-/
namespace VRJuggler.Cluster

open VRJuggler (ByteOrder)
open ByteOrder (bigEndian)
open VRJuggler.Io

/-! ## The fields of each packet -/

/-- The kinds of the fields of a `GUID`. -/
def guidKinds : List Kind :=
  [.uint32, .uint16, .uint16, .uint8, .uint8, .uint8, .uint8, .uint8, .uint8, .uint8, .uint8]

/-- The kinds of the fields that `parse` reads, for the types of packets that the factory
knows. -/
def fieldKinds (packetType : UInt16) : Option (List Kind) :=
  if packetType = RIM_DEVICE_ACK then
    some (guidKinds ++ guidKinds ++ [.string, .string, .string, .bool])
  else if packetType = CONFIG_PACKET then some [.string, .uint16]
  else if packetType = RIM_DATA_PACKET then some (guidKinds ++ guidKinds)
  else if packetType = RIM_END_BLOCK then some [.uint16]
  else none

section Fields

variable {σ α : Type} {rd : ObjectReader σ}

/-- One more field. -/
theorem follows_field {k : Kind} {f : k.Carrier → Reading σ α} {kinds : List Kind}
    (later : ∀ val, rd.Follows (f val) (kinds.map Ask.read)) :
    rd.Follows (rd.read k >>= f) ((k :: kinds).map Ask.read) :=
  ObjectReader.follows_bind (ObjectReader.follows_read k) later

theorem follows_guid : rd.Follows (GUID.readObject rd) (guidKinds.map Ask.read) := by
  unfold GUID.readObject guidKinds
  repeat' first
    | exact ObjectReader.follows_pure _
    | (apply follows_field; intro val)

theorem follows_guids {f : GUID → GUID → Reading σ α} {kinds : List Kind}
    (later : ∀ first second, rd.Follows (f first second) (kinds.map Ask.read)) :
    rd.Follows (GUID.readObject rd >>= fun first => GUID.readObject rd >>= f first)
      ((guidKinds ++ guidKinds ++ kinds).map Ask.read) := by
  rw [List.append_assoc, List.map_append, List.map_append]
  exact ObjectReader.follows_bind follows_guid fun first =>
    ObjectReader.follows_bind follows_guid (later first)

/-- Each `parse` reads the fields of its packet, one after the other. -/
theorem follows_parse (rd : ObjectReader σ) {packetType : UInt16}
    {parse : ObjectReader σ → Reading σ (GUID × Body)}
    (known : Node.createObject packetType = some parse) :
    ∃ kinds, fieldKinds packetType = some kinds ∧
      rd.Follows (parse rd) (kinds.map Ask.read) := by
  unfold Node.createObject at known
  unfold fieldKinds
  split at known
  next ack =>
    obtain rfl := Option.some.inj known
    refine ⟨_, if_pos ack, follows_guids fun _ _ => ?_⟩
    exact follows_field fun _ => follows_field fun _ => follows_field fun _ =>
      follows_field fun _ => ObjectReader.follows_pure _
  next noAck =>
    rw [if_neg noAck]
    split at known
    next config =>
      obtain rfl := Option.some.inj known
      exact ⟨_, if_pos config, follows_field fun _ => follows_field fun _ =>
        ObjectReader.follows_pure _⟩
    next noConfig =>
      rw [if_neg noConfig]
      split at known
      next data =>
        obtain rfl := Option.some.inj known
        refine ⟨_, if_pos data, ?_⟩
        rw [← List.append_nil (guidKinds ++ guidKinds)]
        exact follows_guids fun _ _ => ObjectReader.follows_pure _
      next noData =>
        rw [if_neg noData]
        split at known
        next block =>
          obtain rfl := Option.some.inj known
          exact ⟨_, if_pos block, follows_field fun _ => ObjectReader.follows_pure _⟩
        next => cases known

/-- The factory knows the types whose fields are known. -/
theorem createObject_of_fieldKinds {packetType : UInt16} {kinds : List Kind}
    (known : fieldKinds packetType = some kinds) :
    ∃ parse : ObjectReader σ → Reading σ (GUID × Body),
      Node.createObject packetType = some parse := by
  unfold fieldKinds at known
  unfold Node.createObject
  split at known
  next ack => exact ⟨_, if_pos ack⟩
  next noAck =>
    rw [if_neg noAck]
    split at known
    next config => exact ⟨_, if_pos config⟩
    next noConfig =>
      rw [if_neg noConfig]
      split at known
      next data => exact ⟨_, if_pos data⟩
      next noData =>
        rw [if_neg noData]
        split at known
        next block => exact ⟨_, if_pos block⟩
        next => cases known

end Fields

/-! ## Reading the fields -/

/-- The number of bytes of a field at a position: a string begins with its length. -/
def fieldSize (data : List UInt8) (pos : Nat) (k : Kind) : Nat :=
  if k = .string then 4 + bigEndian.number ((data.drop pos).take 4) else k.width

/-- No number of several bytes, and no length of a string, begins in the data and ends
behind it, as far as the fields are read. A field that begins behind the end, or a string
whose characters are not all there, ends the reading. -/
def FieldsFit (data : List UInt8) : Nat → List Kind → Prop
  | _, [] => True
  | pos, k :: kinds =>
    data.length ≤ pos ∨
      pos + k.width ≤ data.length ∧
        (data.length < pos + fieldSize data pos k ∨
          FieldsFit data (pos + fieldSize data pos k) kinds)

instance decidableFieldsFit (data : List UInt8) :
    (pos : Nat) → (kinds : List Kind) → Decidable (FieldsFit data pos kinds)
  | _, [] => isTrue trivial
  | pos, k :: kinds =>
    have := decidableFieldsFit data (pos + fieldSize data pos k) kinds
    inferInstanceAs (Decidable (data.length ≤ pos ∨ pos + k.width ≤ data.length ∧
      (data.length < pos + fieldSize data pos k ∨ _)))

/-- Only bytes of the buffer were touched. -/
def Inside (s : BufferObjectReader) : Prop := ∀ i ∈ s.touched, i < s.mData.length

section Reading

open BufferObjectReader

variable (order : ByteOrder) (behind : Nat → UInt8)

theorem goesOn_answers (asks : List Ask) :
    Reading.Respects GoesOn ((reader behind order).answers asks) := by
  induction asks with
  | nil => exact GoesOn.refl
  | cons ask asks ih =>
    exact Reading.respects_bind GoesOn.trans (goesOn_answer order behind ask) fun _ =>
      Reading.respects_bind GoesOn.trans ih fun _ => Reading.respects_pure GoesOn.refl _

/-- What was touched outside the buffer stays touched. -/
theorem inside_of_goesOn {s t : BufferObjectReader} (later : GoesOn s t) (inside : Inside t) :
    Inside s := by
  intro i member
  rw [← later.2.1]
  exact inside i (later.1.subset member)

theorem inside_advance_iff {s : BufferObjectReader} {len : Nat} (some' : 0 < len)
    (inside : Inside s) :
    Inside (s.advance len) ↔ s.mCurHeadPos.toNat + len ≤ s.mData.length := by
  rw [← touched_advance_iff some']
  simp only [Inside, advance, List.drop_left, List.mem_append]
  constructor
  · exact fun all i member => all i (Or.inr member)
  · rintro all i (member | member)
    · exact inside i member
    · exact all i member

theorem lengthHere_eq {s : BufferObjectReader}
    (complete : s.mCurHeadPos.toNat + 4 ≤ s.mData.length) :
    s.lengthHere behind = bigEndian.number ((s.mData.drop s.mCurHeadPos.toNat).take 4) := by
  have parts : s.mData = s.mData.take s.mCurHeadPos.toNat ++
      (s.mData.drop s.mCurHeadPos.toNat).take 4 ++
      (s.mData.drop s.mCurHeadPos.toNat).drop 4 := by
    rw [List.append_assoc, List.take_append_drop, List.take_append_drop]
  have here := bytesFrom_middle behind _ _ _ parts
  have front : (s.mData.take s.mCurHeadPos.toNat).length = s.mCurHeadPos.toNat := by
    rw [List.length_take]
    omega
  have size : ((s.mData.drop s.mCurHeadPos.toNat).take 4).length = 4 := by
    rw [List.length_take, List.length_drop]
    omega
  rw [front, size] at here
  rw [lengthHere, here]

/-- Whatever it returns, a read inside the buffer begins with `k.width` bytes. -/
theorem goesOn_advance_read (k : Kind) {s : BufferObjectReader}
    (inside : s.mCurHeadPos.toNat < s.mData.length) :
    GoesOn (s.advance k.width) (read behind order k s).2 := by
  by_cases fixed : k = .string
  · subst fixed
    rw [readString_inside order behind inside]
    exact goesOn_times order behind _ _
  · rw [read_inside order behind fixed inside]
    exact GoesOn.refl _

/-- What is read later leaves what was touched. -/
theorem goesOn_answers_cons (k : Kind) (kinds : List Kind) (s : BufferObjectReader) :
    GoesOn (read behind order k s).2
      ((reader behind order).answers (.read k :: kinds.map Ask.read) s).2 := by
  rw [ObjectReader.answers]
  cases ended : read behind order k s with
  | mk result t =>
    cases result with
    | ok val =>
      rw [Reading.bind_of_ok (answer_read_of_ok order behind ended)]
      exact Reading.respects_bind GoesOn.trans (goesOn_answers order behind _)
        (fun _ => Reading.respects_pure GoesOn.refl _) t
    | error fault =>
      rw [Reading.bind_of_error (answer_read_of_error order behind ended)]
      exact GoesOn.refl t

/-- After a field the next ones are read. -/
theorem answers_cons_of_ok {k : Kind} {val : k.Carrier} {s t : BufferObjectReader}
    (returned : read behind order k s = (.ok val, t)) (kinds : List Kind) :
    ((reader behind order).answers (.read k :: kinds.map Ask.read) s).2 =
      ((reader behind order).answers (kinds.map Ask.read) t).2 := by
  rw [ObjectReader.answers, Reading.bind_of_ok (answer_read_of_ok order behind returned),
    Reading.bind_apply]
  cases (reader behind order).answers (kinds.map Ask.read) t with
  | mk result u => cases result with | ok _ | error _ => rfl

/-- A field whose bytes are all there is read. -/
theorem read_fieldSize {k : Kind} {s : BufferObjectReader}
    (position : s.mCurHeadPos.toNat < s.mData.length)
    (complete : s.mCurHeadPos.toNat + k.width ≤ s.mData.length)
    (whole : s.mCurHeadPos.toNat + fieldSize s.mData s.mCurHeadPos.toNat k ≤ s.mData.length)
    (small : s.mData.length < 2 ^ 32) :
    ∃ val, read behind order k s =
      (.ok val, s.advance (fieldSize s.mData s.mCurHeadPos.toNat k)) := by
  by_cases fixed : k = .string
  · subst fixed
    have length := lengthHere_eq behind complete
    rw [fieldSize, if_pos rfl, ← length] at whole ⊢
    have moved := advance_toNat (s := s) 4 (by omega)
    have chars := readChars_inside order behind (n := s.lengthHere behind) (s := s.advance 4)
      (by rw [moved, advance_mData]; omega) (by rw [moved]; omega)
    rw [advance_advance _ (by omega)] at chars
    exact ⟨_, (readString_inside order behind position).trans chars⟩
  · rw [fieldSize, if_neg fixed]
    exact ⟨_, read_inside order behind fixed position⟩

/-- A string whose characters are not all there is read to the end of the buffer. -/
theorem readString_short {s : BufferObjectReader}
    (complete : s.mCurHeadPos.toNat + 4 ≤ s.mData.length)
    (short : s.mData.length < s.mCurHeadPos.toNat +
      fieldSize s.mData s.mCurHeadPos.toNat .string)
    (small : s.mData.length < 2 ^ 32) :
    read behind order .string s =
      (.error .eofException, s.advance (4 + (s.mData.length - (s.mCurHeadPos.toNat + 4)))) := by
  have length := lengthHere_eq behind complete
  rw [fieldSize, if_pos rfl, ← length] at short
  have moved := advance_toNat (s := s) 4 (by omega)
  have chars := readChars_short order behind (n := s.lengthHere behind) (s := s.advance 4)
    (s.mData.length - (s.mCurHeadPos.toNat + 4)) (by rw [moved, advance_mData]; omega)
    (by rw [advance_mData]; omega) (by omega)
  rw [advance_advance _ (by omega)] at chars
  exact (readString_inside order behind (by omega)).trans chars

/-- Reading some fields touches bytes of the buffer only just when none of them lies across
its end. -/
theorem inside_answers_iff (kinds : List Kind) {s : BufferObjectReader} (inside : Inside s)
    (small : s.mData.length < 2 ^ 32) :
    Inside ((reader behind order).answers (kinds.map Ask.read) s).2 ↔
      FieldsFit s.mData s.mCurHeadPos.toNat kinds := by
  induction kinds generalizing s with
  | nil => exact iff_of_true inside trivial
  | cons k kinds ih =>
    rw [List.map_cons]
    by_cases atEnd : s.mData.length ≤ s.mCurHeadPos.toNat
    · have thrown := answer_read_of_error order behind (read_atEnd order behind k atEnd)
      rw [ObjectReader.answers, Reading.bind_of_error thrown]
      exact iff_of_true inside (Or.inl atEnd)
    have position := Nat.lt_of_not_le atEnd
    have width : 0 < k.width := by cases k with | _ => decide
    by_cases crosses : s.mData.length < s.mCurHeadPos.toNat + k.width
    · -- the field lies across the end, and stays touched
      refine iff_of_false (fun all => ?_) ?_
      · have touched := inside_of_goesOn ((goesOn_advance_read order behind k position).trans
          (goesOn_answers_cons order behind k kinds s)) all
        have complete := (inside_advance_iff width inside).mp touched
        omega
      · rintro (behindEnd | ⟨complete, -⟩)
        · exact atEnd behindEnd
        · omega
    have complete : s.mCurHeadPos.toNat + k.width ≤ s.mData.length := Nat.le_of_not_lt crosses
    by_cases whole : s.mCurHeadPos.toNat + fieldSize s.mData s.mCurHeadPos.toNat k ≤
        s.mData.length
    · -- the field is there, and the next one begins behind it
      obtain ⟨val, returned⟩ := read_fieldSize order behind position complete whole small
      have positive : 0 < fieldSize s.mData s.mCurHeadPos.toNat k := by
        unfold fieldSize
        split <;> omega
      have next := ih ((inside_advance_iff positive inside).mpr whole) small
      rw [advance_toNat _ (by omega), advance_mData] at next
      rw [answers_cons_of_ok order behind returned, next]
      constructor
      · exact fun rest => Or.inr ⟨complete, Or.inr rest⟩
      · rintro (behindEnd | ⟨-, short | rest⟩)
        · exact absurd behindEnd atEnd
        · omega
        · exact rest
    · -- a string whose characters are not all there
      have isString : k = .string := by
        by_contra fixed
        rw [fieldSize, if_neg fixed] at whole
        exact whole complete
      subst isString
      have prefixed : s.mCurHeadPos.toNat + 4 ≤ s.mData.length := complete
      refine iff_of_true ?_ (Or.inr ⟨complete, Or.inl (Nat.lt_of_not_le whole)⟩)
      have thrown := readString_short order behind complete (Nat.lt_of_not_le whole) small
      rw [ObjectReader.answers, Reading.bind_of_error (answer_read_of_error order behind thrown)]
      exact (inside_advance_iff (by omega) inside).mpr (by omega)

end Reading

/-! ## Receiving -/

section Receiving

variable (order : ByteOrder) (behind : Nat → UInt8)

/-- The bytes at the front of a stream are a header that `parseHeader` accepts. -/
def Accepts (incoming : List UInt8) (header : Header) : Prop :=
  RIM_PACKET_HEAD_SIZE ≤ incoming.length ∧
    (Header.parseHeader (BufferObjectReader.reader behind order)
      (.at' (incoming.take RIM_PACKET_HEAD_SIZE) 0)).1 = .ok header

/-- `recvPacket` asks for the true number of bytes of the payload, reads bytes of the
payload only, and returns or throws. -/
def ReceivedSafely (incoming : List UInt8) (header : Header) : Prop :=
  (∀ length, (Node.recvPacket order behind (.connected incoming)).2.requested = some length →
    length.toNat + RIM_PACKET_HEAD_SIZE = header.mPacketLength.toNat) ∧
  Inside (Node.recvPacket order behind (.connected incoming)).2.mPacketReader ∧
  (Node.recvPacket order behind (.connected incoming)).1 ≠ .error .undefined

/-- For the known types: the header's length counts the header, and when the payload is
there no fixed field lies across its end. -/
def WellFormed (incoming : List UInt8) (header : Header) : Prop :=
  ∀ kinds, fieldKinds header.mPacketType = some kinds →
    RIM_PACKET_HEAD_SIZE ≤ header.mPacketLength.toNat ∧
      (header.mPacketLength.toNat ≤ incoming.length →
        FieldsFit ((incoming.drop RIM_PACKET_HEAD_SIZE).take
          (header.mPacketLength.toNat - RIM_PACKET_HEAD_SIZE)) 0 kinds)

theorem readData_of_accepts {incoming : List UInt8} {header : Header}
    (accepts : Accepts order behind incoming header) :
    Node.readData order behind (.connected incoming) =
      (.ok header, { Node.connected incoming with
        incoming := incoming.drop RIM_PACKET_HEAD_SIZE }) := by
  have parts := (List.take_append_drop RIM_PACKET_HEAD_SIZE incoming).symm
  have size : (incoming.take RIM_PACKET_HEAD_SIZE).length = RIM_PACKET_HEAD_SIZE := by
    rw [List.length_take, Nat.min_eq_left accepts.1]
  have read := Node.readn_append (UInt32.ofNat RIM_PACKET_HEAD_SIZE) (.connected incoming) parts
    (by rw [size]; rfl) (by rw [size]; decide)
  rw [Node.readData, Reading.bind_of_ok (Reading.rethrow_of_ok read _), accepts.2]
  rfl

section Known

variable {incoming : List UInt8} {header : Header}
  {parse : ObjectReader BufferObjectReader → Reading BufferObjectReader (GUID × Body)}

/-- The node when it asks for the payload. -/
def asking (incoming : List UInt8) (header : Header) : Node where
  incoming := incoming.drop RIM_PACKET_HEAD_SIZE
  requested := some (header.mPacketLength - UInt32.ofNat RIM_PACKET_HEAD_SIZE)
  mPacketReader := .at' [] 0

/-- When the payload does not arrive, nothing is parsed. -/
theorem recvPacket_of_error (accepts : Accepts order behind incoming header)
    (known : Node.createObject header.mPacketType = some parse) {fault : Fault} {t : Node}
    (thrown : Node.readn (header.mPacketLength - UInt32.ofNat RIM_PACKET_HEAD_SIZE)
      (asking incoming header) = (.error fault, t)) :
    Node.recvPacket order behind (.connected incoming) = (.error .clusterException, t) := by
  rw [Node.recvPacket, Reading.bind_of_ok (readData_of_accepts order behind accepts), known]
  exact Reading.bind_of_error (Reading.rethrow_of_error thrown _) _

/-- When it arrives, the reader ends as `parse` leaves it. -/
theorem recvPacket_of_ok (accepts : Accepts order behind incoming header)
    (known : Node.createObject header.mPacketType = some parse) {data : List UInt8} {t : Node}
    (read : Node.readn (header.mPacketLength - UInt32.ofNat RIM_PACKET_HEAD_SIZE)
      (asking incoming header) = (.ok data, t)) {result : Except Fault (GUID × Body)}
    {u : BufferObjectReader}
    (parsed : parse (BufferObjectReader.reader behind order) (.at' data 0) = (result, u)) :
    (Node.recvPacket order behind (.connected incoming)).2 = { t with mPacketReader := u } ∧
      ∀ fault, (Node.recvPacket order behind (.connected incoming)).1 = .error fault →
        result = .error fault := by
  have ran : Node.recvPacket order behind (.connected incoming) =
      (result.map fun parsed =>
        { mHeader := header, mPluginId := parsed.1, body := parsed.2, mPacketReader := u },
        { t with mPacketReader := u }) := by
    rw [Node.recvPacket, Reading.bind_of_ok (readData_of_accepts order behind accepts), known]
    refine (Reading.bind_of_ok (Reading.rethrow_of_ok read _) _).trans ?_
    rw [Reading.bind_of_ok (Reading.modify_apply _ _)]
    simp only [Reading.bind_apply, Reading.zoom, parsed, Reading.get_apply, Reading.pure_apply]
    cases result with
    | ok parsed => rfl
    | error fault => rfl
  rw [ran]
  refine ⟨rfl, fun fault thrown => ?_⟩
  cases result with
  | ok parsed => cases thrown
  | error other => exact congrArg _ (Except.error.inj thrown)

end Known

/-- The difference is the true one just when the header's length counts the header. -/
theorem payload_size_iff (length : UInt32) :
    (length - UInt32.ofNat RIM_PACKET_HEAD_SIZE).toNat + RIM_PACKET_HEAD_SIZE = length.toNat ↔
      RIM_PACKET_HEAD_SIZE ≤ length.toNat := by
  have header : (UInt32.ofNat RIM_PACKET_HEAD_SIZE).toNat = RIM_PACKET_HEAD_SIZE := rfl
  constructor
  · intro true_difference
    omega
  · intro counted
    rw [UInt32.toNat_sub_of_le _ _ (by rw [UInt32.le_iff_toNat_le, header]; exact counted),
      header]
    omega

theorem payload_size {length : UInt32} (counted : RIM_PACKET_HEAD_SIZE ≤ length.toNat) :
    (length - UInt32.ofNat RIM_PACKET_HEAD_SIZE).toNat =
      length.toNat - RIM_PACKET_HEAD_SIZE := by
  have total := (payload_size_iff length).mpr counted
  omega

/-- An exception before `parse` leaves only the size to be right. -/
theorem receivedSafely_of_error {incoming : List UInt8} {header : Header} {t : Node}
    (ended : Node.recvPacket order behind (.connected incoming) = (.error .clusterException, t))
    (requested : t.requested =
      some (header.mPacketLength - UInt32.ofNat RIM_PACKET_HEAD_SIZE))
    (untouched : t.mPacketReader = .at' [] 0) :
    ReceivedSafely order behind incoming header ↔
      RIM_PACKET_HEAD_SIZE ≤ header.mPacketLength.toNat := by
  rw [ReceivedSafely, ended, ← payload_size_iff, requested, untouched]
  constructor
  · exact fun safely => safely.1 _ rfl
  · intro size
    refine ⟨?_, by rintro i ⟨⟩, by rintro ⟨⟩⟩
    rintro length ⟨⟩
    exact size

theorem fieldsFit_nil (kinds : List Kind) : FieldsFit [] 0 kinds := by
  cases kinds with
  | nil => trivial
  | cons k kinds => exact Or.inl le_rfl

theorem throws_answers (asks : List Ask) :
    Reading.Throws .eofException ((BufferObjectReader.reader behind order).answers asks) := by
  induction asks with
  | nil => exact Reading.throws_pure _ _
  | cons ask asks ih =>
    refine Reading.throws_bind ?_ fun _ => Reading.throws_bind ih fun _ =>
      Reading.throws_pure _ _
    cases ask with
    | beginTag | endTag | beginAttribute | endAttribute =>
      exact Reading.throws_bind (Reading.throws_pure _ _) fun _ => Reading.throws_pure _ _
    | read k =>
      exact Reading.throws_bind (BufferObjectReader.throws_read order behind k) fun _ =>
        Reading.throws_pure _ _

/-- A program that reads fields ends where reading the fields ends, and throws what they
throw. -/
theorem ends_of_follows {α : Type} {m : Reading BufferObjectReader α} {asks : List Ask}
    (follows : (BufferObjectReader.reader behind order).Follows m asks)
    (s : BufferObjectReader) :
    (m s).2 = ((BufferObjectReader.reader behind order).answers asks s).2 ∧
      (m s).1 ≠ .error .undefined := by
  rcases follows s with ⟨a, vals, t, ran, answered⟩ | ⟨fault, t, ran, answered⟩
  · rw [ran, answered]
    exact ⟨rfl, by rintro ⟨⟩⟩
  · rw [ran, answered]
    refine ⟨rfl, ?_⟩
    have eof := throws_answers order behind asks s fault (by rw [answered])
    rintro ⟨⟩
    cases eof

/-- A known packet has one list of fields. -/
theorem wellFormed_of_fields_iff {incoming : List UInt8} {header : Header} {kinds : List Kind}
    (fields : fieldKinds header.mPacketType = some kinds) :
    WellFormed incoming header ↔
      RIM_PACKET_HEAD_SIZE ≤ header.mPacketLength.toNat ∧
        (header.mPacketLength.toNat ≤ incoming.length →
          FieldsFit ((incoming.drop RIM_PACKET_HEAD_SIZE).take
            (header.mPacketLength - UInt32.ofNat RIM_PACKET_HEAD_SIZE).toNat) 0 kinds) := by
  constructor
  · intro wellFormed
    obtain ⟨counted, fit⟩ := wellFormed kinds fields
    rw [payload_size counted]
    exact ⟨counted, fit⟩
  · rintro ⟨counted, fit⟩ other also
    obtain rfl := Option.some.inj (fields.symm.trans also)
    rw [payload_size counted] at fit
    exact ⟨counted, fit⟩

/-- The factory makes no packet, and the exception comes before the payload. -/
theorem receivedSafely_of_unknown {incoming : List UInt8} {header : Header}
    (accepts : Accepts order behind incoming header)
    (unknown : Node.createObject (σ := BufferObjectReader) header.mPacketType = none) :
    ReceivedSafely order behind incoming header := by
  have refused : Node.recvPacket order behind (.connected incoming) =
      (.error .clusterException, { Node.connected incoming with
        incoming := incoming.drop RIM_PACKET_HEAD_SIZE }) := by
    rw [Node.recvPacket, Reading.bind_of_ok (readData_of_accepts order behind accepts), unknown]
    rfl
  rw [ReceivedSafely, refused]
  refine ⟨?_, ?_, ?_⟩
  · rintro length ⟨⟩
  · rintro i ⟨⟩
  · rintro ⟨⟩

/-- A payload that is parsed is read as its fields fit. -/
theorem receivedSafely_of_parsed {incoming : List UInt8} {header : Header}
    (accepts : Accepts order behind incoming header)
    {parse : ObjectReader BufferObjectReader → Reading BufferObjectReader (GUID × Body)}
    (known : Node.createObject header.mPacketType = some parse) {kinds : List Kind}
    (follows : (BufferObjectReader.reader behind order).Follows
      (parse (BufferObjectReader.reader behind order)) (kinds.map .read))
    {data : List UInt8} {t : Node} (small : data.length < 2 ^ 32)
    (read : Node.readn (header.mPacketLength - UInt32.ofNat RIM_PACKET_HEAD_SIZE)
      (asking incoming header) = (.ok data, t))
    (requested : t.requested = some (header.mPacketLength - UInt32.ofNat RIM_PACKET_HEAD_SIZE)) :
    ReceivedSafely order behind incoming header ↔
      RIM_PACKET_HEAD_SIZE ≤ header.mPacketLength.toNat ∧ FieldsFit data 0 kinds := by
  have parsed : parse (BufferObjectReader.reader behind order) (.at' data 0) =
      ((parse (BufferObjectReader.reader behind order) (.at' data 0)).1,
        (parse (BufferObjectReader.reader behind order) (.at' data 0)).2) := rfl
  obtain ⟨state, faults⟩ := recvPacket_of_ok order behind accepts known read parsed
  obtain ⟨ends, defined'⟩ := ends_of_follows order behind follows (.at' data 0)
  have fit := inside_answers_iff order behind kinds (s := .at' data 0) (by rintro i ⟨⟩) small
  have touched : Inside (Node.recvPacket order behind (.connected incoming)).2.mPacketReader ↔
      FieldsFit data 0 kinds := by
    rw [state]
    exact ends ▸ fit
  have asked : (Node.recvPacket order behind (.connected incoming)).2.requested =
      some (header.mPacketLength - UInt32.ofNat RIM_PACKET_HEAD_SIZE) := by
    rw [state]
    exact requested
  rw [ReceivedSafely, touched, asked, ← payload_size_iff]
  constructor
  · rintro ⟨size, inside, -⟩
    exact ⟨size _ rfl, inside⟩
  · rintro ⟨size, inside⟩
    refine ⟨?_, inside, fun undefined' => defined' (faults _ undefined')⟩
    rintro length ⟨⟩
    exact size

/-- For every stream that begins with an acceptable header. -/
theorem receivedSafely_iff (incoming : List UInt8) (header : Header)
    (accepts : Accepts order behind incoming header) :
    ReceivedSafely order behind incoming header ↔ WellFormed incoming header := by
  cases known : Node.createObject (σ := BufferObjectReader) header.mPacketType with
  | none =>
    refine iff_of_true (receivedSafely_of_unknown order behind accepts known) ?_
    intro kinds fields
    obtain ⟨parse, made⟩ := createObject_of_fieldKinds (σ := BufferObjectReader) fields
    rw [made] at known
    cases known
  | some parse =>
    obtain ⟨kinds, fields, follows⟩ :=
      follows_parse (BufferObjectReader.reader behind order) known
    have read := Node.readn_eq (header.mPacketLength - UInt32.ofNat RIM_PACKET_HEAD_SIZE)
      (asking incoming header)
    have rest : (asking incoming header).incoming.length =
        incoming.length - RIM_PACKET_HEAD_SIZE := List.length_drop
    have enough := accepts.1
    rw [wellFormed_of_fields_iff fields]
    by_cases empty : header.mPacketLength - UInt32.ofNat RIM_PACKET_HEAD_SIZE = 0
    · -- no byte to ask for: the socket throws
      rw [if_pos empty] at read
      rw [receivedSafely_of_error order behind
        (recvPacket_of_error order behind accepts known read) rfl rfl, empty]
      exact (and_iff_left fun _ => fieldsFit_nil kinds).symm
    rw [if_neg empty] at read
    by_cases short : (asking incoming header).incoming.length <
        (header.mPacketLength - UInt32.ofNat RIM_PACKET_HEAD_SIZE).toNat
    · -- the stream ends before the payload does
      rw [if_pos short] at read
      rw [receivedSafely_of_error order behind
        (recvPacket_of_error order behind accepts known read) rfl rfl]
      refine (and_iff_left_of_imp fun counted there => ?_).symm
      have size := payload_size counted
      omega
    · -- the payload is parsed
      rw [if_neg short] at read
      have small : ((asking incoming header).incoming.take
          (header.mPacketLength - UInt32.ofNat RIM_PACKET_HEAD_SIZE).toNat).length < 2 ^ 32 :=
        Nat.lt_of_le_of_lt (List.length_take_le _ _)
          (header.mPacketLength - UInt32.ofNat RIM_PACKET_HEAD_SIZE).toNat_lt
      rw [receivedSafely_of_parsed order behind accepts known follows small read rfl]
      refine and_congr_right fun counted => ⟨fun fit _ => fit, fun fit => fit ?_⟩
      have size := payload_size counted
      omega

end Receiving

/-- The header of a packet that ends a frame, of some length. -/
def endBlockHeader (mPacketLength : UInt32) : Header where
  mRIMCode := RIM_PACKET
  mPacketType := RIM_END_BLOCK
  mPacketLength := mPacketLength
  mFrame := 0

theorem receivedSafely_iff_endBlock :
    ReceivedSafely .littleEndian (fun _ => 0)
        (encodeAll (endBlockHeader 14).writeObject ++ [1, 2]) (endBlockHeader 14) ↔
      WellFormed (encodeAll (endBlockHeader 14).writeObject ++ [1, 2]) (endBlockHeader 14) :=
  receivedSafely_iff .littleEndian (fun _ => 0) _ _ ⟨by decide, by decide +kernel⟩

/-- A length of 5 asks for `2 ^ 32 - 7` bytes; with a length of 13 a field of two bytes is
read from a payload of one. -/
theorem not_receivedSafely :
    (Accepts .littleEndian (fun _ => 0) (encodeAll (endBlockHeader 5).writeObject)
        (endBlockHeader 5) ∧
      ¬ ReceivedSafely .littleEndian (fun _ => 0) (encodeAll (endBlockHeader 5).writeObject)
        (endBlockHeader 5)) ∧
    Accepts .littleEndian (fun _ => 0) (encodeAll (endBlockHeader 13).writeObject ++ [1])
        (endBlockHeader 13) ∧
      ¬ ReceivedSafely .littleEndian (fun _ => 0)
        (encodeAll (endBlockHeader 13).writeObject ++ [1]) (endBlockHeader 13) := by
  refine ⟨⟨⟨by decide, by decide +kernel⟩, fun safely => ?_⟩,
    ⟨by decide, by decide +kernel⟩, fun safely => ?_⟩
  · have size := safely.1 (5 - 12) (by decide +kernel)
    exact absurd size (by decide)
  · have inside := safely.2.1 1 (by decide +kernel)
    exact absurd inside (by decide +kernel)

end VRJuggler.Cluster
