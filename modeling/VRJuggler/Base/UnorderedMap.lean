import Mathlib.Data.List.Nodup
import Mathlib.Data.List.Perm.Basic

/-!
# Maps without an order

A hash map, as the list of its entries in the order in which an iterator visits them. A new key
may change that order in any way. Of each key there is one entry.
-/
namespace VRJuggler

/-- The entries of a map after an insertion, in the order that they then have. -/
structure Rehash (κ ν : Type) where
  order : List (κ × ν) → List (κ × ν)
  perm : ∀ entries, (order entries).Perm entries

/-- The order of insertion is kept. -/
def Rehash.stay {κ ν : Type} : Rehash κ ν := ⟨id, List.Perm.refl⟩

structure UnorderedMap (κ ν : Type) where
  entries : List (κ × ν) := []
  distinct : (entries.map Prod.fst).Nodup := by exact List.nodup_nil

namespace UnorderedMap

variable {κ ν : Type} [DecidableEq κ]

def keys (m : UnorderedMap κ ν) : List κ := m.entries.map Prod.fst

/-- The entries with another value for a key that is there. -/
def replaceEntry (k : κ) (v : ν) (entries : List (κ × ν)) : List (κ × ν) :=
  entries.map fun e => if e.1 = k then (k, v) else e

theorem keys_replaceEntry (k : κ) (v : ν) (entries : List (κ × ν)) :
    (replaceEntry k v entries).map Prod.fst = entries.map Prod.fst := by
  rw [replaceEntry, List.map_map]
  refine List.map_congr_left fun e _ => ?_
  by_cases same : e.1 = k <;> simp [same]

/-- `m[k] = v`. -/
def assign (m : UnorderedMap κ ν) (rehash : Rehash κ ν) (k : κ) (v : ν) : UnorderedMap κ ν :=
  if present : k ∈ m.keys then
    { entries := replaceEntry k v m.entries
      distinct := (keys_replaceEntry k v m.entries).symm ▸ m.distinct }
  else
    { entries := rehash.order ((k, v) :: m.entries)
      distinct := by
        rw [((rehash.perm _).map Prod.fst).nodup_iff, List.map_cons]
        exact List.nodup_cons.mpr ⟨present, m.distinct⟩ }

/-- The first entry that `p` holds of is erased. -/
def eraseFirst (m : UnorderedMap κ ν) (p : κ × ν → Bool) : UnorderedMap κ ν where
  entries := m.entries.eraseP p
  distinct := m.distinct.sublist (List.eraseP_sublist.map _)

omit [DecidableEq κ] in
theorem eq_of_key {m : UnorderedMap κ ν} {e f : κ × ν} (first : e ∈ m.entries)
    (second : f ∈ m.entries) (same : e.1 = f.1) : e = f :=
  List.inj_on_of_nodup_map m.distinct first second same

theorem mem_assign {m : UnorderedMap κ ν} {rehash : Rehash κ ν} {k : κ} {v : ν} {e : κ × ν} :
    e ∈ (m.assign rehash k v).entries ↔ e = (k, v) ∨ e.1 ≠ k ∧ e ∈ m.entries := by
  unfold assign
  split
  next present =>
    obtain ⟨old, there, key⟩ := List.mem_map.mp present
    show e ∈ replaceEntry k v m.entries ↔ _
    unfold replaceEntry
    rw [List.mem_map]
    constructor
    · rintro ⟨f, member, rfl⟩
      by_cases same : f.1 = k
      · exact Or.inl (if_pos same)
      · rw [if_neg same]
        exact Or.inr ⟨same, member⟩
    · rintro (rfl | ⟨other, member⟩)
      · exact ⟨old, there, if_pos key⟩
      · exact ⟨e, member, if_neg other⟩
  next absent =>
    rw [(rehash.perm _).mem_iff, List.mem_cons]
    constructor
    · rintro (new | member)
      · exact Or.inl new
      · refine Or.inr ⟨?_, member⟩
        rintro rfl
        exact absent (List.mem_map_of_mem member)
    · rintro (new | ⟨-, member⟩)
      · exact Or.inl new
      · exact Or.inr member

omit [DecidableEq κ] in
/-- An entry that no other shares the property with is erased. -/
theorem key_eraseFirst {m : UnorderedMap κ ν} {p : κ × ν → Bool} {e : κ × ν}
    (member : e ∈ m.entries) (holds : p e = true)
    (only : ∀ f ∈ m.entries, p f = true → f = e) : e.1 ∉ (m.eraseFirst p).keys := by
  obtain ⟨f, before, after, -, found, split, erased⟩ := List.exists_of_eraseP member holds
  have here : f ∈ m.entries := by
    rw [split]
    exact List.mem_append_right _ (List.mem_cons_self ..)
  obtain rfl := only f here found
  have distinct := m.distinct
  rw [split, List.map_append, List.map_cons, List.nodup_middle, List.nodup_cons] at distinct
  have left : (m.eraseFirst p).entries = before ++ after := erased
  rw [keys, left, List.map_append]
  exact distinct.1

end UnorderedMap

end VRJuggler
