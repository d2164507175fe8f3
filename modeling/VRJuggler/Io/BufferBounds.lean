import VRJuggler.Io.BufferCodec

/-!
# Reads that run into the end of a buffer

`readRaw` compares only the first byte it is asked for with the size of the buffer, and
`readString` takes its characters one by one. This module says for which reads that is
enough: which runs touch no byte outside the buffer, never leave the position behind its
end, and leave it in its place whenever a read throws.
-/
namespace VRJuggler.Io

open VRJuggler (ByteOrder)

/-- What is done with a `BufferObjectReader`. -/
inductive BufferOp where
  | call (ask : Ask)
  | pushState
  | popState
  deriving DecidableEq

namespace BufferObjectReader

variable (order : ByteOrder) (behind : Nat → UInt8)

/-- The reader after one operation, whether it returned or threw. -/
def step (s : BufferObjectReader) : BufferOp → Option BufferObjectReader
  | .call ask => some ((reader behind order).answer ask s).2
  | .pushState => some s.pushState
  | .popState => s.popState

/-- A call touches only bytes of the buffer and leaves the position within it; when it
throws, it throws `EOFException` and leaves the position where it was. -/
def Clean (s : BufferObjectReader) (op : BufferOp) : Prop :=
  ∀ t, step order behind s op = some t →
    (∀ i ∈ t.touched.drop s.touched.length, i < s.mData.length) ∧
    t.mCurHeadPos.toNat ≤ t.mData.length ∧
    ∀ ask fault, op = .call ask → ((reader behind order).answer ask s).1 = .error fault →
      fault = .eofException ∧ t.mCurHeadPos = s.mCurHeadPos

/-- Nothing is left to read, or the buffer holds what is read to its last byte. From a
buffer of `2 ^ 32` bytes on a string cannot run into the end. -/
def Complete (s : BufferObjectReader) : BufferOp → Prop
  | .call (.read k) =>
    s.mData.length ≤ s.mCurHeadPos.toNat ∨
      s.mCurHeadPos.toNat + k.width ≤ s.mData.length ∧
        (k = .string →
          s.mCurHeadPos.toNat + 4 + s.lengthHere behind ≤ s.mData.length ∨
            2 ^ 32 ≤ s.mData.length)
  | _ => True

/-! ## The characters of a string -/

/-- A buffer that reaches beyond every position never ends. -/
theorem readChars_large {n : Nat} {s : BufferObjectReader} (large : 2 ^ 32 ≤ s.mData.length) :
    ∃ chars t new, Reading.times (readChar behind order) n s = (.ok chars, t) ∧
      t.mData = s.mData ∧ t.touched = s.touched ++ new ∧ ∀ i ∈ new, i < s.mData.length := by
  induction n generalizing s with
  | zero => exact ⟨[], s, [], rfl, rfl, (List.append_nil _).symm, by simp⟩
  | succ n ih =>
    have inside : s.mCurHeadPos.toNat < s.mData.length := s.mCurHeadPos.toNat_lt.trans_le large
    obtain ⟨chars, t, new, rest, data, touched, bounded⟩ := ih (s := s.advance 1) large
    refine ⟨s.byteAt behind s.mCurHeadPos.toNat :: chars, t, s.mCurHeadPos.toNat :: new,
      ?_, data, ?_, ?_⟩
    · rw [Reading.times, Reading.bind_of_ok (readChar_inside order behind inside),
        Reading.bind_of_ok rest, Reading.pure_apply]
    · rw [touched]
      simp [advance]
    · intro i member
      rcases List.mem_cons.mp member with rfl | member
      · exact inside
      · exact bounded i member

/-- A string that is said to be longer than the rest of the buffer is read to the end of
the buffer. -/
theorem readChars_short {n : Nat} {s : BufferObjectReader} (rest : Nat)
    (size : s.mData.length = s.mCurHeadPos.toNat + rest) (small : s.mData.length < 2 ^ 32)
    (short : rest < n) :
    Reading.times (readChar behind order) n s = (.error .eofException, s.advance rest) := by
  induction rest generalizing s n with
  | zero =>
    cases n with
    | zero => omega
    | succ n =>
      rw [advance_zero]
      exact Reading.bind_of_error (readChar_atEnd order behind (by omega)) _
  | succ rest ih =>
    cases n with
    | zero => omega
    | succ n =>
      have moved := advance_toNat (s := s) 1 (by omega)
      have first := readChar_inside order behind (s := s) (by omega)
      have failed := ih (s := s.advance 1) (n := n) (by rw [moved, advance_mData]; omega)
        small (by omega)
      rw [advance_advance rest (by omega), Nat.add_comm 1 rest] at failed
      exact (Reading.bind_of_ok first _).trans (Reading.bind_of_error failed _)

/-! ## One read -/

/-- The bytes that `advance` notes are inside just when the last of them is. -/
theorem touched_advance_iff {s : BufferObjectReader} {len : Nat} (some' : 0 < len) :
    (∀ i ∈ (s.advance len).touched.drop s.touched.length, i < s.mData.length) ↔
      s.mCurHeadPos.toNat + len ≤ s.mData.length := by
  simp only [advance, List.drop_left, List.mem_range'_1]
  constructor
  · intro inside
    have last := inside (s.mCurHeadPos.toNat + len - 1) (by omega)
    omega
  · intro inside i member
    omega

theorem advance_le {s : BufferObjectReader} (len : Nat)
    (inside : s.mCurHeadPos.toNat + len ≤ s.mData.length) :
    (s.advance len).mCurHeadPos.toNat ≤ s.mData.length := by
  have wrapped : (s.advance len).mCurHeadPos.toNat ≤ s.mCurHeadPos.toNat + len := by
    simp only [advance, UInt32.toNat_add, UInt32.toNat_ofNat']
    exact (Nat.mod_le _ _).trans (Nat.add_le_add_left (Nat.mod_le _ _) _)
  exact wrapped.trans inside

/-- What `answer` adds to `read`: the value becomes a list of one. -/
theorem answer_read_of_ok {k : Kind} {val : k.Carrier} {s t : BufferObjectReader}
    (returned : read behind order k s = (.ok val, t)) :
    (reader behind order).answer (.read k) s = (.ok [⟨k, val⟩], t) := by
  have here : (reader behind order).read k s = (.ok val, t) := returned
  rw [ObjectReader.answer, Reading.bind_of_ok here, Reading.pure_apply]

theorem answer_read_of_error {k : Kind} {fault : Fault} {s t : BufferObjectReader}
    (thrown : read behind order k s = (.error fault, t)) :
    (reader behind order).answer (.read k) s = (.error fault, t) := by
  have here : (reader behind order).read k s = (.error fault, t) := thrown
  rw [ObjectReader.answer, Reading.bind_of_error here]

/-- A read that returns is clean when it touched bytes of the buffer only. -/
theorem clean_read_of_ok {k : Kind} {val : k.Carrier} {s t : BufferObjectReader}
    (returned : read behind order k s = (.ok val, t)) :
    Clean order behind s (.call (.read k)) ↔
      (∀ i ∈ t.touched.drop s.touched.length, i < s.mData.length) ∧
      t.mCurHeadPos.toNat ≤ t.mData.length := by
  have answered := answer_read_of_ok order behind returned
  constructor
  · intro clean
    obtain ⟨touched, position, -⟩ := clean t (by rw [step, answered])
    exact ⟨touched, position⟩
  · rintro ⟨touched, position⟩ u stepped
    rw [step, answered] at stepped
    obtain rfl := Option.some.inj stepped
    refine ⟨touched, position, fun ask fault same thrown => ?_⟩
    obtain rfl : Ask.read k = ask := BufferOp.call.inj same
    rw [answered] at thrown
    cases thrown

/-- A read that throws is clean when it also left the position where it was. -/
theorem clean_read_of_error {k : Kind} {fault : Fault} {s t : BufferObjectReader}
    (thrown : read behind order k s = (.error fault, t)) :
    Clean order behind s (.call (.read k)) ↔
      ((∀ i ∈ t.touched.drop s.touched.length, i < s.mData.length) ∧
        t.mCurHeadPos.toNat ≤ t.mData.length) ∧
      fault = .eofException ∧ t.mCurHeadPos = s.mCurHeadPos := by
  have answered := answer_read_of_error order behind thrown
  constructor
  · intro clean
    obtain ⟨touched, position, left⟩ := clean t (by rw [step, answered])
    exact ⟨⟨touched, position⟩, left (.read k) fault rfl (by rw [answered])⟩
  · rintro ⟨⟨touched, position⟩, left⟩ u stepped
    rw [step, answered] at stepped
    obtain rfl := Option.some.inj stepped
    refine ⟨touched, position, fun ask other same thrown => ?_⟩
    obtain rfl : Ask.read k = ask := BufferOp.call.inj same
    rw [answered] at thrown
    obtain rfl : fault = other := Except.error.inj thrown
    exact left

/-- A read of a fixed number of bytes. -/
theorem clean_fixed_iff {k : Kind} (fixed : k ≠ .string) {s : BufferObjectReader}
    (inside : s.mCurHeadPos.toNat < s.mData.length) :
    Clean order behind s (.call (.read k)) ↔
      s.mCurHeadPos.toNat + k.width ≤ s.mData.length := by
  have width : 0 < k.width := by cases k with | _ => decide
  rw [clean_read_of_ok order behind (read_inside order behind fixed inside),
    touched_advance_iff width]
  constructor
  · exact And.left
  · exact fun complete => ⟨complete, advance_le _ complete⟩

/-- A string: its length is a number of four bytes, and its characters either are all
there, or leave the position at the end of the buffer. -/
theorem clean_string_iff {s : BufferObjectReader}
    (inside : s.mCurHeadPos.toNat < s.mData.length) :
    Clean order behind s (.call (.read .string)) ↔
      s.mCurHeadPos.toNat + 4 ≤ s.mData.length ∧
        (s.mCurHeadPos.toNat + 4 + s.lengthHere behind ≤ s.mData.length ∨
          2 ^ 32 ≤ s.mData.length) := by
  have chars := readString_inside order behind inside
  by_cases large : 2 ^ 32 ≤ s.mData.length
  · -- positions cannot reach the end: only the length could lie across it
    obtain ⟨val, t, new, returned, data, touched, bounded⟩ :=
      readChars_large order behind (n := s.lengthHere behind) (s := s.advance 4) large
    have position : t.mCurHeadPos.toNat ≤ t.mData.length := by
      rw [data]
      exact t.mCurHeadPos.toNat_lt.le.trans large
    have notes : t.touched.drop s.touched.length =
        List.range' s.mCurHeadPos.toNat 4 ++ new := by
      rw [touched]
      simp [advance]
    rw [clean_read_of_ok order behind (chars.trans returned), notes]
    simp only [List.mem_append, List.mem_range'_1, position, large, and_true, or_true]
    constructor
    · intro within
      have last := within (s.mCurHeadPos.toNat + 3) (Or.inl (by omega))
      omega
    · rintro complete i (prefixed | rest)
      · omega
      · exact bounded i rest
  · by_cases prefixed : s.mCurHeadPos.toNat + 4 ≤ s.mData.length
    · have moved := advance_toNat (s := s) 4 (by omega)
      by_cases complete : s.mCurHeadPos.toNat + 4 + s.lengthHere behind ≤ s.mData.length
      · have returned := readChars_inside order behind (n := s.lengthHere behind)
          (s := s.advance 4) (by rw [moved, advance_mData]; omega) (by rw [moved]; omega)
        rw [advance_advance _ (by omega)] at returned
        rw [clean_read_of_ok order behind (chars.trans returned),
          touched_advance_iff (by omega)]
        have position := advance_le (s := s) (4 + s.lengthHere behind) (by omega)
        constructor
        · exact fun _ => ⟨prefixed, Or.inl complete⟩
        · exact fun _ => ⟨by omega, position⟩
      · have thrown := readChars_short order behind (n := s.lengthHere behind)
          (s := s.advance 4) (s.mData.length - (s.mCurHeadPos.toNat + 4))
          (by rw [moved, advance_mData]; omega) (by rw [advance_mData]; omega) (by omega)
        rw [advance_advance _ (by omega)] at thrown
        rw [clean_read_of_error order behind (chars.trans thrown)]
        constructor
        · rintro ⟨-, -, left⟩
          have stands := congrArg UInt32.toNat left
          rw [advance_toNat _ (by omega)] at stands
          omega
        · rintro ⟨-, short | long⟩
          · exact absurd short complete
          · exact absurd long large
    · -- the bytes of the length lie across the end, whatever comes then
      constructor
      · intro clean
        obtain ⟨⟨new, touched⟩, -⟩ := goesOn_times order behind (s.lengthHere behind)
          (s.advance 4)
        have within : ∀ i ∈ List.range' s.mCurHeadPos.toNat 4 ++ new, i < s.mData.length := by
          cases ended : Reading.times (readChar behind order) (s.lengthHere behind)
              (s.advance 4) with
          | mk result t =>
            have notes : t.touched.drop s.touched.length =
                List.range' s.mCurHeadPos.toNat 4 ++ new := by
              rw [ended] at touched
              rw [← touched]
              simp [advance]
            rw [← notes]
            cases result with
            | ok val => exact ((clean_read_of_ok order behind (chars.trans ended)).mp clean).1
            | error fault =>
              exact ((clean_read_of_error order behind (chars.trans ended)).mp clean).1.1
        have last := within (s.mCurHeadPos.toNat + 3)
          (List.mem_append_left _ (by rw [List.mem_range'_1]; omega))
        omega
      · rintro ⟨fits, -⟩
        exact absurd fits prefixed

/-- One operation on a reader whose position is in the buffer. -/
theorem clean_iff_complete {s : BufferObjectReader}
    (position : s.mCurHeadPos.toNat ≤ s.mData.length)
    (saved : ∀ pos ∈ s.mHeadPosStateStack, pos.toNat ≤ s.mData.length) (op : BufferOp) :
    Clean order behind s op ↔ Complete behind s op := by
  cases op with
  | pushState =>
    refine iff_of_true (fun t stepped => ?_) trivial
    obtain rfl := Option.some.inj stepped
    exact ⟨by simp [pushState], position, fun ask fault other => by cases other⟩
  | popState =>
    refine iff_of_true (fun t stepped => ?_) trivial
    rw [step, popState] at stepped
    cases stack : s.mHeadPosStateStack with
    | nil => rw [stack] at stepped; cases stepped
    | cons new_head_pos rest =>
      rw [stack] at stepped
      obtain rfl := Option.some.inj stepped
      refine ⟨by simp, ?_, fun ask fault other => by cases other⟩
      exact saved new_head_pos (stack ▸ List.mem_cons_self ..)
  | call ask =>
    cases ask with
    | beginTag | endTag | beginAttribute | endAttribute =>
      refine iff_of_true (fun t stepped => ?_) trivial
      obtain rfl := Option.some.inj stepped
      refine ⟨by simp [reader, ObjectReader.answer, Reading.bind_apply], position, ?_⟩
      intro ask fault same thrown
      obtain rfl := BufferOp.call.inj same
      cases thrown
    | read k =>
      by_cases inside : s.mCurHeadPos.toNat < s.mData.length
      · have notAtEnd : ¬ s.mData.length ≤ s.mCurHeadPos.toNat := by omega
        by_cases fixed : k = .string
        · subst fixed
          rw [clean_string_iff order behind inside]
          simp [Complete, notAtEnd, Kind.width]
        · rw [clean_fixed_iff order behind fixed inside]
          simp [Complete, notAtEnd, fixed]
      · have atEnd := Nat.le_of_not_lt inside
        rw [clean_read_of_error order behind (read_atEnd order behind k atEnd)]
        exact iff_of_true ⟨⟨by simp, position⟩, rfl, rfl⟩ (Or.inl atEnd)

/-! ## Runs -/

/-- The position and all saved ones are in the buffer. -/
def Positioned (s : BufferObjectReader) : Prop :=
  s.mCurHeadPos.toNat ≤ s.mData.length ∧
    ∀ pos ∈ s.mHeadPosStateStack, pos.toNat ≤ s.mData.length

/-- A clean operation leaves all positions in the buffer. -/
theorem positioned_step {s t : BufferObjectReader} {op : BufferOp} (positioned : Positioned s)
    (clean : Clean order behind s op) (stepped : step order behind s op = some t) :
    Positioned t := by
  refine ⟨(clean t stepped).2.1, ?_⟩
  cases op with
  | call ask =>
    obtain rfl := Option.some.inj stepped
    obtain ⟨-, data, stack⟩ := goesOn_answer order behind ask s
    rw [data, stack]
    exact positioned.2
  | pushState =>
    obtain rfl := Option.some.inj stepped
    intro pos member
    rcases List.mem_cons.mp member with rfl | member
    · exact positioned.1
    · exact positioned.2 pos member
  | popState =>
    rw [step, popState] at stepped
    cases stack : s.mHeadPosStateStack with
    | nil => rw [stack] at stepped; cases stepped
    | cons new_head_pos rest =>
      rw [stack] at stepped
      obtain rfl := Option.some.inj stepped
      intro pos member
      exact positioned.2 pos (stack ▸ List.mem_cons_of_mem _ member)

/-- In a run on any buffer every operation is clean just when every read is complete. -/
theorem reads_clean_iff (mData : List UInt8) (curPos : UInt32) (ops : List BufferOp)
    (position : curPos.toNat ≤ mData.length) :
    Meets (step order behind) (Clean order behind) (.at' mData curPos) ops ↔
      Meets (step order behind) (Complete behind) (.at' mData curPos) ops := by
  apply meets_iff_meets Positioned
  · intro s op t positioned _
    exact clean_iff_complete order behind positioned.1 positioned.2 op
  · intro s op t positioned clean stepped
    exact positioned_step order behind positioned clean stepped
  · exact ⟨position, by simp [at']⟩

theorem reads_clean_iff_sample :
    Meets (step .littleEndian fun _ => 0) (Clean .littleEndian fun _ => 0)
        (.at' [0, 0, 0, 1, 65, 9] 0)
        [.pushState, .call (.read .string), .popState, .call (.read .double)] ↔
      Meets (step .littleEndian fun _ => 0) (Complete fun _ => 0) (.at' [0, 0, 0, 1, 65, 9] 0)
        [.pushState, .call (.read .string), .popState, .call (.read .double)] :=
  reads_clean_iff .littleEndian (fun _ => 0) [0, 0, 0, 1, 65, 9] 0 _ (by decide)

/-- Two bytes are left, four are read; a string of two characters is said to have five. -/
theorem reads_not_clean :
    ¬ Meets (step .littleEndian fun _ => 0) (Clean .littleEndian fun _ => 0)
        (.at' [7, 8] 0) [.call (.read .uint32)] ∧
      ¬ Meets (step .littleEndian fun _ => 0) (Clean .littleEndian fun _ => 0)
        (.at' [0, 0, 0, 5, 65, 66] 0) [.call (.read .string)] := by
  constructor
  · intro clean
    have inside := ((clean _ rfl).1 _ rfl).1 3 (by decide)
    exact absurd inside (by decide)
  · intro clean
    have left := (((clean _ rfl).1 _ rfl).2.2 _ .eofException rfl (by decide +kernel)).2
    exact absurd left (by decide +kernel)

end BufferObjectReader

end VRJuggler.Io
