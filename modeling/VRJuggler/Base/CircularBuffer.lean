import Mathlib.Data.List.Basic

/-!
# Circular buffers

A buffer of fixed size in which each entry takes the place of the oldest one. It is compared with
the history of all entries: read from the next place on, it has the last ones in order, behind
what the buffer was filled with where there are fewer.
-/
namespace VRJuggler

variable {α : Type} (filler : α) (size : Nat)

/-- The last entries, filled up in front. -/
def lastOf (history : List α) : List α :=
  (List.replicate size filler ++ history).drop history.length

/-- The place that comes after this one. -/
def nextPlace (place : Nat) : Nat := if place + 1 = size then 0 else place + 1

/-- The buffer after these entries, with the place for the next one. -/
structure Circular (history : List α) (buffer : List α) (next : Nat) : Prop where
  length_eq : buffer.length = size
  place : next = history.length % size
  inside : next < size
  last : buffer.drop next ++ buffer.take next = lastOf filler size history

variable {filler size} {history buffer : List α} {next : Nat} {x : α}

theorem lastOf_nil : lastOf filler size [] = List.replicate size filler := by
  simp [lastOf]

/-- The oldest one gives way to the new one. -/
theorem lastOf_append (positive : 0 < size) :
    lastOf filler size (history ++ [x]) = (lastOf filler size history).tail ++ [x] := by
  have room : history.length + 1 ≤ (List.replicate size filler ++ history).length := by
    rw [List.length_append, List.length_replicate]
    omega
  rw [lastOf, List.length_append, List.length_singleton, ← List.append_assoc,
    List.drop_append_of_le_length room, lastOf, List.tail_drop]

theorem lastOf_of_full (full : size ≤ history.length) :
    lastOf filler size history = history.drop (history.length - size) := by
  rw [lastOf, List.drop_append, List.length_replicate, List.drop_eq_nil_of_le (by simpa),
    List.nil_append]

theorem lastOf_of_not_full (room : history.length ≤ size) :
    lastOf filler size history = List.replicate (size - history.length) filler ++ history := by
  rw [lastOf, List.drop_append_of_le_length (by simpa), List.drop_replicate]

theorem nextPlace_mod (positive : 0 < size) (count : Nat) :
    nextPlace size (count % size) = (count + 1) % size := by
  have bound := Nat.mod_lt count positive
  have parts := Nat.div_add_mod count size
  rw [nextPlace]
  split
  next last =>
    have whole : count + 1 = size * (count / size) + size := by omega
    rw [whole, ← Nat.mul_succ, Nat.mul_mod_right]
  next more =>
    have split' : count + 1 = size * (count / size) + (count % size + 1) := by omega
    rw [split', Nat.mul_add_mod]
    exact (Nat.mod_eq_of_lt (by omega)).symm

namespace Circular

theorem start (positive : 0 < size) :
    Circular filler size [] (List.replicate size filler) 0 where
  length_eq := List.length_replicate
  place := (Nat.zero_mod size).symm
  inside := positive
  last := by simp [lastOf_nil]

/-- What is at the next place is the oldest of the last ones. -/
theorem oldest (circular : Circular filler size history buffer next) :
    buffer[next]? = (lastOf filler size history).head? := by
  have inside : next < buffer.length := by
    rw [circular.length_eq]
    exact circular.inside
  rw [← circular.last, List.head?_append, List.head?_drop, List.getElem?_eq_getElem inside]
  rfl

theorem push (circular : Circular filler size history buffer next) :
    Circular filler size (history ++ [x]) (buffer.set next x) (nextPlace size next) := by
  have inside : next < buffer.length := by
    rw [circular.length_eq]
    exact circular.inside
  have positive : 0 < size := Nat.lt_of_le_of_lt (Nat.zero_le _) circular.inside
  have tail : (lastOf filler size history).tail = buffer.drop (next + 1) ++ buffer.take next := by
    rw [← circular.last, List.drop_eq_getElem_cons inside]
    rfl
  have parts : buffer.set next x = buffer.take next ++ x :: buffer.drop (next + 1) :=
    List.set_eq_take_append_cons_drop.trans (if_pos inside)
  have front : (buffer.take next).length = next := List.length_take_of_le (Nat.le_of_lt inside)
  refine ⟨by rw [List.length_set, circular.length_eq], ?_, ?_, ?_⟩
  · rw [circular.place, nextPlace_mod positive, List.length_append, List.length_singleton]
  · rw [nextPlace]
    split
    · exact positive
    next more =>
      have bound := circular.inside
      omega
  · rw [lastOf_append positive, tail, parts, nextPlace]
    split
    next last =>
      -- the last place is followed by the first one
      have none' : buffer.drop (next + 1) = [] := by
        apply List.drop_eq_nil_of_le
        exact Nat.le_of_eq (circular.length_eq.trans last.symm)
      simp [none']
    next more =>
      have ends : (buffer.take next ++ [x]).length = next + 1 := by
        rw [List.length_append, front, List.length_singleton]
      rw [List.append_cons, List.drop_left' ends, List.take_left' ends, List.append_assoc]

/-- What is at the last place came last when the buffer had been gone through. -/
theorem back (circular : Circular filler size history buffer next) :
    buffer.getLast? =
      some ((history.take (history.length / size * size)).getLast?.getD filler) := by
  have bound := circular.inside
  have place := circular.place
  have rounds := Nat.div_add_mod' history.length size
  have last := congrArg (·[size - 1 - next]?) circular.last
  simp only [lastOf, List.getElem?_drop] at last
  have inner : (buffer.drop next ++ buffer.take next)[size - 1 - next]? = buffer.getLast? := by
    rw [List.getLast?_eq_getElem?, circular.length_eq, List.getElem?_append_left,
      List.getElem?_drop]
    · congr 1
      omega
    · rw [List.length_drop, circular.length_eq]
      omega
  have index : history.length + (size - 1 - next) = size + history.length / size * size - 1 := by
    omega
  rw [← inner, last, index]
  rcases Nat.eq_zero_or_pos (history.length / size * size) with none' | some'
  · rw [none', List.take_zero, List.getElem?_append_left (by simp; omega)]
    rw [List.getElem?_replicate, if_pos (by omega)]
    rfl
  · have whole : history.length / size * size - 1 < history.length := by omega
    rw [List.getElem?_append_right (by simp; omega), List.length_replicate,
      List.getLast?_eq_getElem?, List.length_take, Nat.min_eq_left (by omega),
      List.getElem?_take_of_lt (by omega)]
    have shift : size + history.length / size * size - 1 - size =
      history.length / size * size - 1 := by omega
    rw [shift, List.getElem?_eq_getElem whole]
    rfl

end Circular

end VRJuggler
