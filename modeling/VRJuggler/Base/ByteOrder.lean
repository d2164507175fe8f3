import Mathlib.Data.Nat.Basic
import Mathlib.Tactic.Ring

/-!
# Numbers in memory

The bytes that hold a number on a host of either byte order, and the conversion
between the order of the host and the order of the network.
-/
namespace VRJuggler

/-- The `n` low bytes of a number, the least significant one first. -/
def littleBytes : Nat → Nat → List UInt8
  | 0, _ => []
  | n + 1, v => UInt8.ofNat v :: littleBytes n (v / 256)

def ofLittleBytes : List UInt8 → Nat
  | [] => 0
  | b :: bs => b.toNat + 256 * ofLittleBytes bs

@[simp] theorem length_littleBytes (n v : Nat) : (littleBytes n v).length = n := by
  induction n generalizing v with
  | zero => rfl
  | succ n ih => rw [littleBytes, List.length_cons, ih]

/-- Of a number that is too large the low bytes remain. -/
theorem ofLittleBytes_littleBytes (n v : Nat) : ofLittleBytes (littleBytes n v) = v % 256 ^ n := by
  induction n generalizing v with
  | zero => rw [Nat.pow_zero, Nat.mod_one]; rfl
  | succ n ih =>
    have byte : (UInt8.ofNat v).toNat = v % 256 := UInt8.toNat_ofNat'
    rw [littleBytes, ofLittleBytes, ih, byte, Nat.pow_succ, Nat.mul_comm (256 ^ n),
      Nat.mod_mul]

theorem littleBytes_ofLittleBytes (bs : List UInt8) :
    littleBytes bs.length (ofLittleBytes bs) = bs := by
  induction bs with
  | nil => rfl
  | cons b bs ih =>
    have small : b.toNat < 256 := b.toNat_lt
    have low : UInt8.ofNat (b.toNat + 256 * ofLittleBytes bs) = b := by
      apply UInt8.toNat_inj.mp
      rw [UInt8.toNat_ofNat']
      omega
    have high : (b.toNat + 256 * ofLittleBytes bs) / 256 = ofLittleBytes bs := by omega
    rw [List.length_cons, ofLittleBytes, littleBytes, low, high, ih]

theorem ofLittleBytes_lt (bs : List UInt8) : ofLittleBytes bs < 256 ^ bs.length := by
  induction bs with
  | nil => exact Nat.one_pos
  | cons b bs ih =>
    have small : b.toNat < 256 := b.toNat_lt
    rw [ofLittleBytes, List.length_cons, Nat.pow_succ]
    omega

inductive ByteOrder where
  | littleEndian
  | bigEndian
  deriving DecidableEq

namespace ByteOrder

/-- The bytes of a number of `n` bytes in memory. -/
def bytes : ByteOrder → Nat → Nat → List UInt8
  | littleEndian, n, v => littleBytes n v
  | bigEndian, n, v => (littleBytes n v).reverse

/-- The number that some bytes in memory are. -/
def number : ByteOrder → List UInt8 → Nat
  | littleEndian, bs => ofLittleBytes bs
  | bigEndian, bs => ofLittleBytes bs.reverse

variable (order : ByteOrder)

@[simp] theorem length_bytes (n v : Nat) : (order.bytes n v).length = n := by
  cases order with
  | littleEndian => exact length_littleBytes n v
  | bigEndian => rw [bytes, List.length_reverse, length_littleBytes]

theorem number_bytes (n v : Nat) : order.number (order.bytes n v) = v % 256 ^ n := by
  cases order with
  | littleEndian => exact ofLittleBytes_littleBytes n v
  | bigEndian => rw [bytes, number, List.reverse_reverse, ofLittleBytes_littleBytes]

theorem number_bytes_of_lt {n v : Nat} (fits : v < 256 ^ n) :
    order.number (order.bytes n v) = v := by
  rw [number_bytes, Nat.mod_eq_of_lt fits]

theorem bytes_number {n : Nat} {bs : List UInt8} (size : bs.length = n) :
    order.bytes n (order.number bs) = bs := by
  subst size
  cases order with
  | littleEndian => exact littleBytes_ofLittleBytes bs
  | bigEndian =>
    rw [bytes, number, ← List.length_reverse, littleBytes_ofLittleBytes, List.reverse_reverse]

theorem number_lt (bs : List UInt8) : order.number bs < 256 ^ bs.length := by
  cases order with
  | littleEndian => exact ofLittleBytes_lt bs
  | bigEndian =>
    have bound := ofLittleBytes_lt bs.reverse
    rwa [List.length_reverse] at bound

/-- The number whose bytes on this host are those of `v` in network order. -/
def toNetwork (n v : Nat) : Nat := order.number (bigEndian.bytes n v)

/-- The number that this host's bytes of `v` are in network order. -/
def ofNetwork (n v : Nat) : Nat := bigEndian.number (order.bytes n v)

/-- In memory a converted number has the bytes of the network order. -/
@[simp] theorem bytes_toNetwork (n v : Nat) :
    order.bytes n (order.toNetwork n v) = bigEndian.bytes n v :=
  order.bytes_number (length_bytes bigEndian n v)

/-- Bytes of the network order are converted to the number they stand for. -/
theorem ofNetwork_number {n : Nat} {bs : List UInt8} (size : bs.length = n) :
    order.ofNetwork n (order.number bs) = bigEndian.number bs := by
  rw [ofNetwork, order.bytes_number size]

/-- Both directions exchange the bytes, or leave them. -/
theorem toNetwork_eq_ofNetwork (n v : Nat) : order.toNetwork n v = order.ofNetwork n v := by
  cases order with
  | littleEndian | bigEndian => rfl

/-- A single byte has no order. -/
theorem bytes_one (v : Nat) : order.bytes 1 v = [UInt8.ofNat v] := by
  cases order with
  | littleEndian | bigEndian => rfl

theorem number_of_length_one {bs : List UInt8} (size : bs.length = 1) :
    order.number bs = bigEndian.number bs := by
  obtain ⟨b, rfl⟩ := List.length_eq_one_iff.mp size
  cases order with
  | littleEndian | bigEndian => rfl

/-- Little-endian memory holds the less significant half first. -/
theorem bytes_halves_little (n v : Nat) :
    bigEndian.bytes (n + n) v =
      bigEndian.bytes n (littleEndian.number ((littleEndian.bytes (n + n) v).drop n)) ++
        bigEndian.bytes n (littleEndian.number ((littleEndian.bytes (n + n) v).take n)) := by
  have front : ((littleEndian.bytes (n + n) v).take n).length = n := by simp
  have back : ((littleEndian.bytes (n + n) v).drop n).length = n := by simp
  have frontBytes := littleEndian.bytes_number front
  have backBytes := littleEndian.bytes_number back
  simp only [bytes] at frontBytes backBytes ⊢
  rw [frontBytes, backBytes, ← List.reverse_append, List.take_append_drop]

/-- Big-endian memory holds the more significant half first. -/
theorem bytes_halves_big (n v : Nat) :
    bigEndian.bytes (n + n) v =
      bigEndian.bytes n (bigEndian.number ((bigEndian.bytes (n + n) v).take n)) ++
        bigEndian.bytes n (bigEndian.number ((bigEndian.bytes (n + n) v).drop n)) := by
  have front : ((bigEndian.bytes (n + n) v).take n).length = n := by simp
  have back : ((bigEndian.bytes (n + n) v).drop n).length = n := by simp
  rw [bigEndian.bytes_number front, bigEndian.bytes_number back, List.take_append_drop]

end ByteOrder

end VRJuggler
