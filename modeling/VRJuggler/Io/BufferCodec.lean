import VRJuggler.Base.Run
import VRJuggler.Io.BufferObject

/-!
# What the binary streams hold

The bytes of each value, which do not depend on the byte order of the host: what each
write appends, and what each read takes from the buffer and returns.
-/
namespace VRJuggler.Io

open VRJuggler (ByteOrder)
open ByteOrder (bigEndian)

variable (order : ByteOrder)

/-! ## Byte order conversion -/

theorem Ntohs_number {bs : List UInt8} (size : bs.length = 2) :
    Ntohs order (order.number bs) = bigEndian.number bs := order.ofNetwork_number size

theorem Ntohl_number {bs : List UInt8} (size : bs.length = 4) :
    Ntohl order (order.number bs) = bigEndian.number bs := order.ofNetwork_number size

/-- Converting both halves converts the whole. -/
theorem convertHalves_eq {half : ByteOrder → Nat → Nat}
    (converts : ∀ v, half order v = order.toNetwork 4 v) (v : Nat) :
    convertHalves half order v = order.toNetwork 8 v := by
  rw [ByteOrder.toNetwork]
  cases order with
  | littleEndian =>
    simp only [convertHalves, converts, ByteOrder.bytes_toNetwork]
    exact congrArg _ (ByteOrder.bytes_halves_little 4 v).symm
  | bigEndian =>
    simp only [convertHalves, converts, ByteOrder.bytes_toNetwork]
    exact congrArg _ (ByteOrder.bytes_halves_big 4 v).symm

theorem Htonll_eq (v : Nat) : Htonll order v = order.toNetwork 8 v :=
  convertHalves_eq order (fun _ => rfl) v

theorem Ntohll_eq (v : Nat) : Ntohll order v = order.ofNetwork 8 v := by
  rw [← order.toNetwork_eq_ofNetwork]
  exact convertHalves_eq order (fun v => (order.toNetwork_eq_ofNetwork 4 v).symm) v

theorem Ntohll_number {bs : List UInt8} (size : bs.length = 8) :
    Ntohll order (order.number bs) = bigEndian.number bs := by
  rw [Ntohll_eq, order.ofNetwork_number size]

/-! ## The bytes of a value -/

/-- The bytes of a value in the buffer. -/
def encode : (k : Kind) → k.Carrier → List UInt8
  | .uint8, val => [val]
  | .uint16, val => bigEndian.bytes 2 val.toNat
  | .uint32, val | .float, val => bigEndian.bytes 4 val.toNat
  | .uint64, val | .double, val => bigEndian.bytes 8 val.toNat
  | .bool, val => [if val then 1 else 0]
  | .string, val => bigEndian.bytes 4 val.length ++ val

/-- The bytes that a read asks for at once: all of a value, and the length of a string. -/
def Kind.width : Kind → Nat
  | uint8 | bool => 1
  | uint16 => 2
  | uint32 | float | string => 4
  | uint64 | double => 8

/-- The value that `k.width` bytes stand for; a string is not made of these. -/
def decode : (k : Kind) → List UInt8 → k.Carrier
  | .uint8, bs => UInt8.ofNat (bigEndian.number bs)
  | .uint16, bs => UInt16.ofNat (bigEndian.number bs)
  | .uint32, bs | .float, bs => UInt32.ofNat (bigEndian.number bs)
  | .uint64, bs | .double, bs => UInt64.ofNat (bigEndian.number bs)
  | .bool, bs => decide (bigEndian.number bs ≠ 0)
  | .string, bs => bs

theorem length_encode {k : Kind} (fixed : k ≠ .string) (val : k.Carrier) :
    (encode k val).length = k.width := by
  cases k with
  | string => exact absurd rfl fixed
  | uint8 | bool => rfl
  | uint16 | uint32 | uint64 | float | double => simp [encode, Kind.width]

theorem decode_encode {k : Kind} (fixed : k ≠ .string) (val : k.Carrier) :
    decode k (encode k val) = val := by
  cases k with
  | string => exact absurd rfl fixed
  | bool => cases val <;> decide
  | uint8 =>
    have single : bigEndian.number [val] = val.toNat := by simp [ByteOrder.number, ofLittleBytes]
    rw [encode, decode, single, UInt8.ofNat_toNat]
  | uint16 =>
    have fits : val.toNat < 2 ^ 16 := val.toNat_lt
    rw [encode, decode, ByteOrder.number_bytes_of_lt _ fits, UInt16.ofNat_toNat]
  | uint32 | float =>
    have fits : val.toNat < 2 ^ 32 := val.toNat_lt
    rw [encode, decode, ByteOrder.number_bytes_of_lt _ fits, UInt32.ofNat_toNat]
  | uint64 | double =>
    have fits : val.toNat < 2 ^ 64 := val.toNat_lt
    rw [encode, decode, ByteOrder.number_bytes_of_lt _ fits, UInt64.ofNat_toNat]

/-! ## What is written -/

def Call.encode : Call → List UInt8
  | .write k val => Io.encode k val
  | _ => []

/-- The bytes that some calls append to the buffer. -/
def encodeAll (calls : List Call) : List UInt8 := calls.flatMap Call.encode

@[simp] theorem encodeAll_nil : encodeAll [] = [] := rfl

@[simp] theorem encodeAll_cons (call : Call) (calls : List Call) :
    encodeAll (call :: calls) = call.encode ++ encodeAll calls := List.flatMap_cons

@[simp] theorem encodeAll_append (front rest : List Call) :
    encodeAll (front ++ rest) = encodeAll front ++ encodeAll rest := List.flatMap_append

/-- A string that is written is shorter than `2 ^ 32`. -/
def Call.Fits : Call → Prop
  | .write .string val => List.length (α := UInt8) val < 2 ^ 32
  | _ => True

instance : DecidablePred Call.Fits
  | .write .string val => inferInstanceAs (Decidable (List.length (α := UInt8) val < 2 ^ 32))
  | .write .uint8 _ | .write .uint16 _ | .write .uint32 _ | .write .uint64 _ | .write .float _
  | .write .double _ | .write .bool _ | .beginTag _ | .endTag | .beginAttribute _
  | .endAttribute => isTrue trivial

/-- The bytes of a call are among those of all calls. -/
theorem length_encode_le {calls : List Call} {call : Call} (member : call ∈ calls) :
    call.encode.length ≤ (encodeAll calls).length := by
  obtain ⟨front, rest, rfl⟩ := List.append_of_mem member
  rw [encodeAll_append, encodeAll_cons, List.length_append, List.length_append]
  omega

/-- Calls that leave few bytes write no string that is too long. -/
theorem fits_of_small {calls : List Call} (small : (encodeAll calls).length < 2 ^ 32) :
    ∀ call ∈ calls, call.Fits := by
  intro call member
  have part := length_encode_le member
  cases call with
  | beginTag | endTag | beginAttribute | endAttribute => trivial
  | write k val =>
    cases k with
    | uint8 | uint16 | uint32 | uint64 | float | double | bool => trivial
    | string =>
      have long : List.length (α := UInt8) val ≤ (Call.write .string val).encode.length := by
        simp [Call.encode, encode]
      exact (show List.length (α := UInt8) val < 2 ^ 32 by omega)

namespace BufferObjectWriter

@[simp] theorem writeRaw_nil (w : BufferObjectWriter) : w.writeRaw [] = w := by
  cases w with
  | mk mData mCurHeadPos => simp [writeRaw]

@[simp] theorem writeRaw_writeRaw (w : BufferObjectWriter) (front rest : List UInt8) :
    (w.writeRaw front).writeRaw rest = w.writeRaw (front ++ rest) := by
  simp [writeRaw, UInt32.ofNat_add, UInt32.add_assoc]

/-- The loop of `writeString`. -/
theorem foldl_writeRaw (w : BufferObjectWriter) (val : List UInt8) :
    val.foldl (fun w c => w.writeRaw [c]) w = w.writeRaw val := by
  induction val generalizing w with
  | nil => simp
  | cons c val ih => rw [List.foldl_cons, ih, writeRaw_writeRaw, List.singleton_append]

theorem write_of_fixed {k : Kind} (fixed : k ≠ .string) (w : BufferObjectWriter)
    (val : k.Carrier) : w.write order k val = some (w.writeRaw (encode k val)) := by
  cases k with
  | string => exact absurd rfl fixed
  | bool => rfl
  | uint8 =>
    have byte : order.bytes 1 val.toNat = [val] := by simp [ByteOrder.bytes_one]
    rw [write, writeUint8, encode, byte]
  | uint16 => rw [write, writeUint16, Htons, ByteOrder.bytes_toNetwork]; rfl
  | uint32 => rw [write, writeUint32, Htonl, ByteOrder.bytes_toNetwork]; rfl
  | float => rw [write, writeFloat, Htonl, ByteOrder.bytes_toNetwork]; rfl
  | uint64 => rw [write, writeUint64, Htonll_eq, ByteOrder.bytes_toNetwork]; rfl
  | double => rw [write, writeDouble, Htonll_eq, ByteOrder.bytes_toNetwork]; rfl

theorem perform_of_fits {call : Call} (fits : call.Fits) (w : BufferObjectWriter) :
    w.perform order call = some (w.writeRaw call.encode) := by
  cases call with
  | beginTag | endTag | beginAttribute | endAttribute => simp [perform, Call.encode]
  | write k val =>
    by_cases fixed : k = .string
    · subst fixed
      have small : val.length < 2 ^ 32 := fits
      have size : (UInt32.ofNat val.length).toNat = val.length := UInt32.toNat_ofNat_of_lt' small
      rw [perform, write, writeString, if_pos small, foldl_writeRaw, writeUint32, size,
        writeRaw_writeRaw, Htonl, ByteOrder.bytes_toNetwork]
      rfl
    · exact write_of_fixed order fixed w val

/-- Whatever the order of the host, the calls leave the same bytes. -/
theorem run_perform {calls : List Call} (fits : ∀ call ∈ calls, call.Fits)
    (w : BufferObjectWriter) :
    run (perform order) w calls = some (w.writeRaw (encodeAll calls)) := by
  induction calls generalizing w with
  | nil => simp
  | cons call calls ih =>
    rw [run_cons, perform_of_fits order (fits call (List.mem_cons_self ..)), Option.bind_some,
      ih fun other member => fits other (List.mem_cons_of_mem _ member), writeRaw_writeRaw,
      encodeAll_cons]

/-- Only a string that is too long keeps a writer from returning. -/
theorem fits_of_perform {call : Call} {w t : BufferObjectWriter}
    (returned : w.perform order call = some t) : call.Fits := by
  cases call with
  | beginTag | endTag | beginAttribute | endAttribute => trivial
  | write k val =>
    cases k with
    | uint8 | uint16 | uint32 | uint64 | float | double | bool => trivial
    | string =>
      rw [perform, write, writeString] at returned
      split at returned
      next small => exact small
      next => cases returned

/-- Calls that were all performed are possible. -/
theorem fits_of_run {calls : List Call} {w t : BufferObjectWriter}
    (performed : run (perform order) w calls = some t) : ∀ call ∈ calls, call.Fits := by
  induction calls generalizing w with
  | nil => simp
  | cons call calls ih =>
    obtain ⟨u, first, rest⟩ := run_cons_eq_some.mp performed
    exact List.forall_mem_cons.mpr ⟨fits_of_perform order first, ih rest⟩

end BufferObjectWriter

/-! ## What is read -/

namespace BufferObjectReader

variable (behind : Nat → UInt8)

/-- `len` bytes of memory from an offset on. -/
def bytesFrom (s : BufferObjectReader) (offset len : Nat) : List UInt8 :=
  (List.range' offset len).map (s.byteAt behind)

/-- The reader after `len` bytes more. -/
def advance (s : BufferObjectReader) (len : Nat) : BufferObjectReader :=
  { s with
    mCurHeadPos := s.mCurHeadPos + UInt32.ofNat len
    touched := s.touched ++ List.range' s.mCurHeadPos.toNat len }

@[simp] theorem advance_mData (s : BufferObjectReader) (len : Nat) :
    (s.advance len).mData = s.mData := rfl

@[simp] theorem advance_zero (s : BufferObjectReader) : s.advance 0 = s := by
  simp [advance]

@[simp] theorem length_bytesFrom (s : BufferObjectReader) (offset len : Nat) :
    (s.bytesFrom behind offset len).length = len := by
  simp [bytesFrom]

theorem readMemory_atEnd {s : BufferObjectReader} (len : UInt32)
    (atEnd : s.mData.length ≤ s.mCurHeadPos.toNat) :
    readMemory behind order len s = (.error .eofException, s) := by
  simp [readMemory, readRaw, Reading.bind_apply, atEnd]

theorem readMemory_inside {s : BufferObjectReader} (len : UInt32)
    (inside : s.mCurHeadPos.toNat < s.mData.length) :
    readMemory behind order len s =
      (.ok (order.number (s.bytesFrom behind s.mCurHeadPos.toNat len.toNat)),
        s.advance len.toNat) := by
  have notAtEnd : ¬ s.mData.length ≤ s.mCurHeadPos.toNat := by omega
  simp only [readMemory, readRaw, load, Reading.bind_apply, Reading.get_apply, if_neg notAtEnd,
    Reading.modify_apply, Reading.pure_apply, UInt32.add_sub_cancel]
  simp [bytesFrom, advance]
  rfl

/-- Every read fails at the end of the buffer, and changes nothing there. -/
theorem read_atEnd (k : Kind) {s : BufferObjectReader}
    (atEnd : s.mData.length ≤ s.mCurHeadPos.toNat) :
    read behind order k s = (.error .eofException, s) := by
  have failed (len : UInt32) := readMemory_atEnd order behind len atEnd
  cases k with
  | uint8 | uint16 | uint32 | uint64 | float | double | bool =>
    exact Reading.bind_of_error (failed _) _
  | string => exact Reading.bind_of_error (Reading.bind_of_error (failed _) _) _

/-- Elsewhere a read takes its bytes, whether they are inside the buffer or not. -/
theorem read_inside {k : Kind} (fixed : k ≠ .string) {s : BufferObjectReader}
    (inside : s.mCurHeadPos.toNat < s.mData.length) :
    read behind order k s =
      (.ok (decode k (s.bytesFrom behind s.mCurHeadPos.toNat k.width)), s.advance k.width) := by
  have taken (len : UInt32) := readMemory_inside order behind len inside
  have size (len : Nat) := s.length_bytesFrom behind s.mCurHeadPos.toNat len
  cases k with
  | string => exact absurd rfl fixed
  | uint8 =>
    rw [read, readUint8, Reading.bind_of_ok (taken _), Reading.pure_apply,
      order.number_of_length_one (size (UInt32.toNat 1))]
    rfl
  | bool =>
    rw [read, readBool, Reading.bind_of_ok (taken _), Reading.pure_apply,
      order.number_of_length_one (size (UInt32.toNat 1))]
    rfl
  | uint16 =>
    rw [read, readUint16, Reading.bind_of_ok (taken _), Reading.pure_apply,
      Ntohs_number order (size (UInt32.toNat 2))]
    rfl
  | uint32 =>
    rw [read, readUint32, Reading.bind_of_ok (taken _), Reading.pure_apply,
      Ntohl_number order (size (UInt32.toNat 4))]
    rfl
  | float =>
    rw [read, readFloat, Reading.bind_of_ok (taken _), Reading.pure_apply,
      Ntohl_number order (size (UInt32.toNat 4))]
    rfl
  | uint64 =>
    rw [read, readUint64, Reading.bind_of_ok (taken _), Reading.pure_apply,
      Ntohll_number order (size (UInt32.toNat 8))]
    rfl
  | double =>
    rw [read, readDouble, Reading.bind_of_ok (taken _), Reading.pure_apply,
      Ntohll_number order (size (UInt32.toNat 8))]
    rfl

/-- What holds after every read: nothing that was touched is forgotten, and the buffer and
the saved positions stay as they are. -/
def GoesOn (s t : BufferObjectReader) : Prop :=
  s.touched <+: t.touched ∧ t.mData = s.mData ∧ t.mHeadPosStateStack = s.mHeadPosStateStack

theorem GoesOn.refl (s : BufferObjectReader) : GoesOn s s := ⟨List.prefix_refl _, rfl, rfl⟩

theorem GoesOn.trans ⦃s t u : BufferObjectReader⦄ (first : GoesOn s t) (later : GoesOn t u) :
    GoesOn s u :=
  ⟨first.1.trans later.1, later.2.1.trans first.2.1, later.2.2.trans first.2.2⟩

theorem goesOn_readMemory (len : UInt32) :
    Reading.Respects GoesOn (readMemory behind order len) := by
  intro s
  by_cases inside : s.mCurHeadPos.toNat < s.mData.length
  · rw [readMemory_inside order behind len inside]
    exact ⟨List.prefix_append _ _, rfl, rfl⟩
  · rw [readMemory_atEnd order behind len (Nat.le_of_not_lt inside)]
    exact GoesOn.refl s

theorem throws_readMemory (len : UInt32) :
    Reading.Throws .eofException (readMemory behind order len) := by
  intro s fault thrown
  by_cases inside : s.mCurHeadPos.toNat < s.mData.length
  · rw [readMemory_inside order behind len inside] at thrown
    cases thrown
  · rw [readMemory_atEnd order behind len (Nat.le_of_not_lt inside)] at thrown
    exact (Except.error.inj thrown).symm

theorem goesOn_times (n : Nat) :
    Reading.Respects GoesOn (Reading.times (readChar behind order) n) :=
  Reading.respects_times GoesOn.refl GoesOn.trans
    (Reading.respects_bind GoesOn.trans (goesOn_readMemory order behind 1) fun _ =>
      Reading.respects_pure GoesOn.refl _) n

theorem goesOn_read (k : Kind) : Reading.Respects GoesOn (read behind order k) := by
  have number {α : Type} (len : UInt32) (f : Nat → α) :
      Reading.Respects GoesOn (readMemory behind order len >>= fun n => pure (f n)) :=
    Reading.respects_bind GoesOn.trans (goesOn_readMemory order behind len) fun _ =>
      Reading.respects_pure GoesOn.refl _
  cases k with
  | uint8 | uint16 | uint32 | uint64 | float | double | bool => exact number _ _
  | string =>
    exact Reading.respects_bind GoesOn.trans (number _ _) fun _ => goesOn_times order behind _

theorem throws_read (k : Kind) : Reading.Throws .eofException (read behind order k) := by
  have number {α : Type} (len : UInt32) (f : Nat → α) :
      Reading.Throws .eofException (readMemory behind order len >>= fun n => pure (f n)) :=
    Reading.throws_bind (throws_readMemory order behind len) fun _ => Reading.throws_pure _ _
  cases k with
  | uint8 | uint16 | uint32 | uint64 | float | double | bool => exact number _ _
  | string =>
    exact Reading.throws_bind (number _ _) fun _ => Reading.throws_times (number _ _) _

theorem goesOn_answer (ask : Ask) :
    Reading.Respects GoesOn ((reader behind order).answer ask) := by
  cases ask with
  | beginTag | endTag | beginAttribute | endAttribute => exact GoesOn.refl
  | read k =>
    exact Reading.respects_bind GoesOn.trans (goesOn_read order behind k) fun _ =>
      Reading.respects_pure GoesOn.refl _

/-- The length that a string starting at the position is said to have. -/
def lengthHere (s : BufferObjectReader) : Nat :=
  bigEndian.number (s.bytesFrom behind s.mCurHeadPos.toNat 4)

/-- A string is read byte by byte after its length. -/
theorem readString_inside {s : BufferObjectReader}
    (inside : s.mCurHeadPos.toNat < s.mData.length) :
    read behind order .string s =
      Reading.times (readChar behind order) (s.lengthHere behind) (s.advance 4) := by
  have length : readUint32 behind order s =
      (.ok (UInt32.ofNat (s.lengthHere behind)), s.advance 4) :=
    read_inside order behind (k := .uint32) (by decide) inside
  have small : s.lengthHere behind < 2 ^ 32 := by
    have bound := bigEndian.number_lt (s.bytesFrom behind s.mCurHeadPos.toNat 4)
    rw [length_bytesFrom] at bound
    exact bound
  rw [read, readString, Reading.bind_of_ok length, UInt32.toNat_ofNat_of_lt' small]

theorem readChar_inside {s : BufferObjectReader}
    (inside : s.mCurHeadPos.toNat < s.mData.length) :
    readChar behind order s = (.ok (s.byteAt behind s.mCurHeadPos.toNat), s.advance 1) := by
  have char : readChar behind order s =
      (.ok (decode .uint8 (s.bytesFrom behind s.mCurHeadPos.toNat 1)), s.advance 1) :=
    read_inside order behind (k := .uint8) (by decide) inside
  have single := decode_encode (k := .uint8) (by decide) (s.byteAt behind s.mCurHeadPos.toNat)
  exact char.trans (by rw [← single]; rfl)

theorem readChar_atEnd {s : BufferObjectReader}
    (atEnd : s.mData.length ≤ s.mCurHeadPos.toNat) :
    readChar behind order s = (.error .eofException, s) :=
  Reading.bind_of_error (readMemory_atEnd order behind 1 atEnd) _

theorem advance_toNat {s : BufferObjectReader} (len : Nat)
    (small : s.mCurHeadPos.toNat + len < 2 ^ 32) :
    (s.advance len).mCurHeadPos.toNat = s.mCurHeadPos.toNat + len := by
  have short : len < 2 ^ 32 := by omega
  have size : (UInt32.ofNat len).toNat = len := UInt32.toNat_ofNat_of_lt' short
  simp only [advance, UInt32.toNat_add, size]
  exact Nat.mod_eq_of_lt small

theorem advance_advance {s : BufferObjectReader} {front : Nat} (rest : Nat)
    (small : s.mCurHeadPos.toNat + front < 2 ^ 32) :
    (s.advance front).advance rest = s.advance (front + rest) := by
  have moved := advance_toNat front small
  simp only [advance] at moved ⊢
  rw [moved, UInt32.ofNat_add, UInt32.add_assoc, List.append_assoc, List.range'_append_1]

@[simp] theorem advance_bytesFrom (s : BufferObjectReader) (moved offset len : Nat) :
    (s.advance moved).bytesFrom behind offset len = s.bytesFrom behind offset len := rfl

/-- As many characters as the buffer still holds. -/
theorem readChars_inside {n : Nat} {s : BufferObjectReader}
    (inside : s.mCurHeadPos.toNat + n ≤ s.mData.length)
    (small : s.mCurHeadPos.toNat + n < 2 ^ 32) :
    Reading.times (readChar behind order) n s =
      (.ok (s.bytesFrom behind s.mCurHeadPos.toNat n), s.advance n) := by
  induction n generalizing s with
  | zero => simp [Reading.times, bytesFrom]
  | succ n ih =>
    have first := readChar_inside order behind (s := s) (by omega)
    have moved := advance_toNat (s := s) 1 (by omega)
    have rest := ih (s := s.advance 1) (by rw [moved, advance_mData]; omega)
      (by rw [moved]; omega)
    rw [advance_advance n (by omega), moved, advance_bytesFrom, Nat.add_comm 1 n] at rest
    rw [Reading.times, Reading.bind_of_ok first, Reading.bind_of_ok rest, Reading.pure_apply,
      bytesFrom, bytesFrom, List.range'_succ, List.map_cons]

/-- Inside the buffer the bytes are those of the buffer. -/
theorem bytesFrom_middle {s : BufferObjectReader} (before bs after : List UInt8)
    (data : s.mData = before ++ bs ++ after) :
    s.bytesFrom behind before.length bs.length = bs := by
  apply List.ext_getElem
  · simp
  · intro i _ inside
    have offset : before.length + i < (before ++ bs ++ after).length := by
      simp only [List.length_append]
      omega
    have middle : (before ++ bs ++ after)[before.length + i] = bs[i] := by simp [inside]
    simp only [bytesFrom, List.getElem_map, List.getElem_range', byteAt, Nat.one_mul, data,
      dif_pos offset]
    exact middle

end BufferObjectReader

end VRJuggler.Io
