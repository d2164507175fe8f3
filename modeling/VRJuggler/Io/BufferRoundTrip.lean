import VRJuggler.Io.BufferCodec

/-!
# The binary round trip

A reader at the place where a sequence of calls was written answers the corresponding
calls with the values written, and takes exactly their bytes. Positions are
`unsigned int`: this holds as far as they reach.
-/
namespace VRJuggler.Io

open VRJuggler (ByteOrder)
open ByteOrder (bigEndian)

namespace BufferObjectReader

variable (order : ByteOrder) (behind : Nat → UInt8)

/-- One value, wherever it stands in the buffer. -/
theorem read_encode {k : Kind} {val : k.Carrier} (fits : (Call.write k val).Fits)
    {s : BufferObjectReader} (before after : List UInt8)
    (data : s.mData = before ++ encode k val ++ after)
    (position : s.mCurHeadPos.toNat = before.length)
    (small : before.length + (encode k val).length < 2 ^ 32) :
    read behind order k s = (.ok val, s.advance (encode k val).length) := by
  have size : s.mData.length = before.length + (encode k val).length + after.length := by
    rw [data, List.length_append, List.length_append]
  by_cases fixed : k = .string
  · subst fixed
    have short : List.length (α := UInt8) val < 2 ^ 32 := fits
    have parts : encode .string val =
        bigEndian.bytes 4 (List.length (α := UInt8) val) ++ val := rfl
    rw [parts, List.length_append, ByteOrder.length_bytes] at size small
    have length : s.lengthHere behind = List.length (α := UInt8) val := by
      have here := bytesFrom_middle behind (s := s) before
        (bigEndian.bytes 4 (List.length (α := UInt8) val)) (val ++ after)
        (by rw [data, parts]; simp only [List.append_assoc])
      rw [ByteOrder.length_bytes] at here
      rw [lengthHere, position, here, ByteOrder.number_bytes_of_lt _ short]
    have moved : (s.advance 4).mCurHeadPos.toNat = before.length + 4 := by
      rw [advance_toNat _ (by omega), position]
    have chars : s.bytesFrom behind (before.length + 4) (List.length (α := UInt8) val) = val := by
      have here := bytesFrom_middle behind (s := s)
        (before ++ bigEndian.bytes 4 (List.length (α := UInt8) val)) val after
        (by rw [data, parts]; simp only [List.append_assoc])
      rwa [List.length_append, ByteOrder.length_bytes] at here
    rw [readString_inside order behind (by omega), length,
      readChars_inside order behind (by rw [moved, advance_mData]; omega) (by rw [moved]; omega),
      moved, advance_bytesFrom, chars, advance_advance _ (by omega), parts, List.length_append,
      ByteOrder.length_bytes]
  · have width := length_encode fixed val
    have positive : 0 < k.width := by cases k with | _ => decide
    have here := bytesFrom_middle behind _ _ _ data
    rw [width] at here size
    rw [read_inside order behind fixed (by omega), position, here, decode_encode fixed, width]

/-- A whole sequence of calls, wherever its bytes stand in the buffer. -/
theorem replays_middle {calls : List Call} (fits : ∀ call ∈ calls, call.Fits)
    {s : BufferObjectReader} (before after : List UInt8)
    (data : s.mData = before ++ encodeAll calls ++ after)
    (position : s.mCurHeadPos.toNat = before.length)
    (small : before.length + (encodeAll calls).length < 2 ^ 32) :
    (reader behind order).Replays s calls (s.advance (encodeAll calls).length) := by
  induction calls generalizing s before with
  | nil => exact (advance_zero s).symm
  | cons call calls ih =>
    have later := fun other member => fits other (List.mem_cons_of_mem _ member)
    have now := fits call (List.mem_cons_self ..)
    cases call with
    | beginTag | endTag | beginAttribute | endAttribute =>
      exact ⟨s, rfl, ih later before data position small⟩
    | write k val =>
      have parts : encodeAll (.write k val :: calls) = encode k val ++ encodeAll calls := rfl
      rw [parts, List.length_append] at small ⊢
      have value := read_encode order behind now before (encodeAll calls ++ after)
        (by rw [data, parts]; simp only [List.append_assoc]) position (by omega)
      refine ⟨_, value, ?_⟩
      rw [← advance_advance _ (by omega)]
      apply ih later (before ++ encode k val)
      · rw [advance_mData, data, parts]; simp only [List.append_assoc]
      · rw [advance_toNat _ (by omega), position, List.length_append]
      · rw [List.length_append]; omega

end BufferObjectReader

/-- What is written with a `BufferObjectWriter` on a host of one byte order is read back
with a `BufferObjectReader` on another: the bytes may stand anywhere in the reader's
buffer, so also behind those of another sequence. `before.length` is the position of the
first of them. -/
def RoundTrips (writerHost readerHost : ByteOrder) (calls : List Call)
    (before after : List UInt8) : Prop :=
  ∃ w, run (BufferObjectWriter.perform writerHost) .empty calls = some w ∧
    ∀ behind s, s.mData = before ++ w.mData ++ after → s.mCurHeadPos.toNat = before.length →
      (∃ t, (BufferObjectReader.reader behind readerHost).answers (calls.map Call.ask) s =
          (.ok (values calls), t) ∧
        t.mCurHeadPos.toNat = before.length + w.mData.length) ∧
      -- each read takes the bytes of its write: after every part of the calls the reader
      -- has taken what the writer had written by then
      ∀ front, front <+: calls → ∃ written t,
        run (BufferObjectWriter.perform writerHost) .empty front = some written ∧
        (BufferObjectReader.reader behind readerHost).answers (front.map Call.ask) s =
          (.ok (values front), t) ∧
        t.mCurHeadPos.toNat = before.length + written.mData.length

/-- The binary round trip, for all sequences of calls whose bytes end before `2 ^ 32`. -/
theorem buffer_round_trip (writerHost readerHost : ByteOrder) (calls : List Call)
    (before after : List UInt8) (fits : ∀ call ∈ calls, call.Fits)
    (small : before.length + (encodeAll calls).length < 2 ^ 32) :
    RoundTrips writerHost readerHost calls before after := by
  refine ⟨BufferObjectWriter.empty.writeRaw (encodeAll calls),
    BufferObjectWriter.run_perform writerHost fits _, ?_⟩
  intro behind s data position
  have part (front : List Call) (begins : front <+: calls) :
      ∃ written t,
        run (BufferObjectWriter.perform writerHost) .empty front = some written ∧
        (BufferObjectReader.reader behind readerHost).answers (front.map Call.ask) s =
          (.ok (values front), t) ∧
        t.mCurHeadPos.toNat = before.length + written.mData.length := by
    obtain ⟨rest, rfl⟩ := begins
    have frontFits := fun call member => fits call (List.mem_append_left rest member)
    rw [encodeAll_append, List.length_append] at small
    have replays := BufferObjectReader.replays_middle readerHost behind frontFits
      before (encodeAll rest ++ after)
      (by rw [data]; simp [BufferObjectWriter.writeRaw, BufferObjectWriter.empty])
      position (by omega)
    refine ⟨_, _, BufferObjectWriter.run_perform writerHost frontFits _,
      ObjectReader.answers_of_replays replays, ?_⟩
    rw [BufferObjectReader.advance_toNat _ (by omega), position]
    rfl
  refine ⟨?_, part⟩
  obtain ⟨written, t, wrote, answered, position⟩ := part calls (List.prefix_refl _)
  rw [BufferObjectWriter.run_perform writerHost fits] at wrote
  obtain rfl := Option.some.inj wrote
  exact ⟨t, answered, position⟩

/-- A sequence of calls with every kind of value, behind the bytes of another one. -/
def sampleCalls : List Call :=
  [.beginTag "a", .write .uint8 200, .beginAttribute "b", .write .uint16 513,
    .write .string [104, 105], .endAttribute, .write .uint64 9223372036854775813, .write .bool true,
    .write .float 0x3f800000, .write .double 0x3ff0000000000000, .endTag, .write .uint32 7]

theorem buffer_round_trip_sampleCalls :
    RoundTrips .littleEndian .bigEndian sampleCalls (encodeAll sampleCalls) [] :=
  buffer_round_trip .littleEndian .bigEndian sampleCalls (encodeAll sampleCalls) []
    (by decide)
    (by decide)

/-- A sequence with more bytes than a position can count does not: the position begins
again at zero. -/
theorem not_roundTrips_of_long (writerHost readerHost : ByteOrder) {calls : List Call}
    (fits : ∀ call ∈ calls, call.Fits) (long : 2 ^ 32 ≤ (encodeAll calls).length) :
    ¬ RoundTrips writerHost readerHost calls [] [] := by
  rintro ⟨w, wrote, reads⟩
  rw [BufferObjectWriter.run_perform _ fits] at wrote
  obtain rfl := Option.some.inj wrote
  have data : (BufferObjectWriter.empty.writeRaw (encodeAll calls)).mData = encodeAll calls :=
    List.nil_append _
  rw [data] at reads
  obtain ⟨⟨t, -, position⟩, -⟩ := reads (fun _ => 0) (.at' (encodeAll calls) 0)
    (List.append_nil _).symm rfl
  have bound := t.mCurHeadPos.toNat_lt
  rw [position, List.length_nil] at bound
  omega

/-- The longest string there is. -/
def longString : List UInt8 := List.replicate (2 ^ 32 - 1) 0

theorem length_longString : longString.length = 2 ^ 32 - 1 := List.length_replicate

theorem buffer_round_trip_fails :
    ∃ calls : List Call, (∀ call ∈ calls, call.Fits) ∧
      ¬ RoundTrips .littleEndian .littleEndian calls [] [] := by
  have fits : ∀ call ∈ [Call.write .string longString], call.Fits := by
    intro call member
    obtain rfl := List.mem_singleton.mp member
    exact length_longString.trans_lt (by decide)
  refine ⟨_, fits, not_roundTrips_of_long _ _ fits ?_⟩
  have size : (encodeAll [Call.write .string longString]).length =
      4 + longString.length := by
    rw [encodeAll_cons, encodeAll_nil, List.append_nil, Call.encode, encode, List.length_append,
      ByteOrder.length_bytes]
  rw [size, length_longString]
  decide

end VRJuggler.Io
