import VRJuggler.Sim.Endpoints

/-!
# Automatic ports

A socket without a port is given one after the first run of ports in use. The ports below
that run are never looked at, and nothing stops the choice at the last port of all: it is a
port from 1 to 65535 just when the node has no port in use, or when a port up to 65535 is free
above one in use.
-/
namespace VRJuggler.Sim

/-- The choice is one after the last port of the run of keys that starts with the first key,
with 32 bits. -/
theorem unassignedAfter_run {low : Nat} {keys : List Nat}
    (sorted : (low :: keys).Pairwise (· < ·)) :
    ∃ last ∈ low :: keys, unassignedAfter (low :: keys) = (last + 1) % 2 ^ 32 ∧
      (∀ port, low ≤ port → port ≤ last → port ∈ low :: keys) ∧
      ((∀ k ∈ low :: keys, k < 2 ^ 32) → last + 1 < 2 ^ 32 → last + 1 ∉ low :: keys) := by
  induction keys generalizing low with
  | nil =>
    refine ⟨low, List.mem_cons_self .., rfl, ?_, ?_⟩
    · intro port above below
      simp [Nat.le_antisymm below above]
    · simp
  | cons next keys ih =>
    obtain ⟨first, rest⟩ := List.pairwise_cons.mp sorted
    have after : low < next := first next (List.mem_cons_self ..)
    rw [unassignedAfter]
    split
    next gap =>
      refine ⟨low, List.mem_cons_self .., rfl, ?_, ?_⟩
      · intro port above below
        simp [Nat.le_antisymm below above]
      · -- the others come after `next`, and that is not the successor of `low`
        intro small room taken
        rw [Nat.mod_eq_of_lt room] at gap
        simp only [List.mem_cons, Nat.succ_ne_self, false_or] at taken
        rcases taken with same | taken
        · exact gap same.symm
        · have later := (List.pairwise_cons.mp rest).1 _ taken
          omega
    next sequential =>
      obtain ⟨last, member, chosen, run, free⟩ := ih rest
      refine ⟨last, List.mem_cons_of_mem _ member, chosen, ?_, ?_⟩
      · intro port above below
        by_cases here : port = low
        · simp [here]
        · have upTo : next ≤ low + 1 := by
            have wraps := Nat.mod_le (low + 1) (2 ^ 32)
            omega
          exact List.mem_cons_of_mem _ (run port (by omega) below)
      · intro small room taken
        have later : low < last := first last member
        rcases List.mem_cons.mp taken with same | taken
        · omega
        · exact free (fun k hk => small k (List.mem_cons_of_mem _ hk)) room taken

namespace NetworkNode

variable {σ : Type}

/-- The automatic choice is a free port from 1 to 65535 just when the node has no socket of
that type, or when a port up to 65535 is free above one that is in use. -/
theorem getUnassignedPortNumber_iff (n : NetworkNode σ) (type : SocketType)
    (ports : ∀ port, (n.getSocket port type).isSome → port < 2 ^ 32) :
    (1 ≤ n.getUnassignedPortNumber type ∧ n.getUnassignedPortNumber type ≤ 65535 ∧
        n.getSocket (n.getUnassignedPortNumber type) type = none) ↔
      (∀ port, n.getSocket port type = none) ∨
        ∃ low port, (n.getSocket low type).isSome ∧ low < port ∧ port ≤ 65535 ∧
          n.getSocket port type = none := by
  have used (port : Nat) : (n.getSocket port type).isSome ↔ port ∈ (n.socketMap type).keys :=
    ((n.socketMap type).mem_keys_iff port).symm
  have free (port : Nat) : n.getSocket port type = none ↔ port ∉ (n.socketMap type).keys := by
    rw [← used, Option.not_isSome_iff_eq_none]
  simp only [used] at ports
  simp only [used, free, getUnassignedPortNumber]
  have sorted : (n.socketMap type).keys.Pairwise (· < ·) :=
    List.pairwise_map.mpr (n.socketMap type).sorted
  generalize (n.socketMap type).keys = keys at ports sorted
  cases keys with
  | nil => simp [unassignedAfter]
  | cons low keys =>
    obtain ⟨last, member, chosen, run, unused⟩ := unassignedAfter_run sorted
    have small : last < 2 ^ 32 := ports last member
    rw [chosen]
    constructor
    · rintro ⟨positive, bounded, unoccupied⟩
      right
      by_cases room : last + 1 < 2 ^ 32
      · rw [Nat.mod_eq_of_lt room] at bounded unoccupied
        exact ⟨last, last + 1, member, Nat.lt_succ_self last, bounded, unoccupied⟩
      · have wrapped : last + 1 = 2 ^ 32 := by omega
        simp [wrapped] at positive
    · rintro (none | ⟨other, port, occupied, above, bounded, unoccupied⟩)
      · exact absurd (List.mem_cons_self ..) (none low)
      · -- a free port above one in use is after the run
        have least : low ≤ other := by
          rcases List.mem_cons.mp occupied with rfl | later
          · exact le_rfl
          · exact ((List.pairwise_cons.mp sorted).1 other later).le
        have beyond : last < port := by
          by_contra within
          exact unoccupied (run port (by omega) (by omega))
        have room : last + 1 < 2 ^ 32 := by omega
        rw [Nat.mod_eq_of_lt room]
        exact ⟨by omega, by omega, unused ports room⟩

/-- A node with one socket of each type, at the last port. -/
def lastPortTaken : NetworkNode Unit :=
  ⟨fun _ => SortedMap.empty.insert 65535 ()⟩

theorem getSocket_lastPortTaken {port : Nat} {type : SocketType} :
    (lastPortTaken.getSocket port type).isSome ↔ port = 65535 := by
  rw [getSocket, ← SortedMap.mem_keys_iff]
  simp [lastPortTaken, SortedMap.keys, SortedMap.insert, SortedMap.insertEntry,
    SortedMap.empty]

/-- All ports below are free, and still the choice is no port of 16 bits. -/
theorem getUnassignedPortNumber_lastPortTaken :
    ¬ ∀ (n : NetworkNode Unit) (type : SocketType),
      (∀ port, (n.getSocket port type).isSome → port < 2 ^ 32) →
      (∃ port, 1 ≤ port ∧ port ≤ 65535 ∧ n.getSocket port type = none) →
      1 ≤ n.getUnassignedPortNumber type ∧ n.getUnassignedPortNumber type ≤ 65535 ∧
        n.getSocket (n.getUnassignedPortNumber type) type = none := by
  intro claimed
  have small : ∀ port, (lastPortTaken.getSocket port .stream).isSome → port < 2 ^ 32 := by
    intro port taken
    rw [getSocket_lastPortTaken.mp taken]
    decide
  have one : lastPortTaken.getSocket 1 .stream = none := by decide
  have chosen := (claimed lastPortTaken .stream small ⟨1, by decide, by decide, one⟩).2.1
  exact absurd chosen (by decide)

/-- With the port 65535 free, the port 1024 in use leads to the port after it. -/
theorem getUnassignedPortNumber_after :
    let n : NetworkNode Unit := ⟨fun _ => SortedMap.empty.insert 1024 ()⟩
    1 ≤ n.getUnassignedPortNumber .stream ∧ n.getUnassignedPortNumber .stream ≤ 65535 ∧
      n.getSocket (n.getUnassignedPortNumber .stream) .stream = none := by
  intro n
  refine (getUnassignedPortNumber_iff n .stream ?_).mpr (Or.inr ⟨1024, 65535, ?_⟩)
  · intro port taken
    have here : port = 1024 := by
      rw [getSocket, ← SortedMap.mem_keys_iff] at taken
      simpa [n, SortedMap.keys, SortedMap.insert, SortedMap.insertEntry,
        SortedMap.empty] using taken
    omega
  · decide

end NetworkNode

end VRJuggler.Sim
