import Mathlib.Data.List.Perm.Subperm
import Mathlib.Order.Lattice
import Mathlib.Tactic.Tauto

/-!
# Maps with ordered iteration

The two ordered containers of the standard library: a map with one value for
each key, and a multimap that keeps equal keys in the order of their insertion.
Both are lists of entries together with the proof that they are sorted.
-/
namespace VRJuggler

variable {κ ν : Type} [LinearOrder κ]

/-! ### One value for each key -/

structure SortedMap (κ ν : Type) [LinearOrder κ] where
  entries : List (κ × ν)
  sorted : entries.Pairwise fun a b => a.1 < b.1

namespace SortedMap

def empty : SortedMap κ ν := ⟨[], .nil⟩

def keys (m : SortedMap κ ν) : List κ := m.entries.map Prod.fst

def find (m : SortedMap κ ν) (k : κ) : Option ν := m.entries.lookup k

private theorem lookup_cons_of_ne {k j : κ} (v : ν) (l : List (κ × ν)) (other : j ≠ k) :
    ((k, v) :: l).lookup j = l.lookup j := by
  rw [List.lookup_cons, beq_eq_false_iff_ne.mpr other]

/-- Insertion into the list of entries; an entry with the same key is replaced. -/
def insertEntry (k : κ) (v : ν) : List (κ × ν) → List (κ × ν)
  | [] => [(k, v)]
  | (k', v') :: rest =>
    if k < k' then (k, v) :: (k', v') :: rest
    else if k = k' then (k, v) :: rest
    else (k', v') :: insertEntry k v rest

theorem mem_insertEntry {k : κ} {v : ν} {a : κ × ν} {l : List (κ × ν)}
    (member : a ∈ insertEntry k v l) : a = (k, v) ∨ a ∈ l := by
  induction l with
  | nil => simpa [insertEntry] using member
  | cons b rest ih =>
    obtain ⟨k', v'⟩ := b
    rw [insertEntry] at member
    split at member
    · simpa using member
    · split at member
      · rcases List.mem_cons.mp member with here | there
        · exact Or.inl here
        · exact Or.inr (List.mem_cons_of_mem _ there)
      · rcases List.mem_cons.mp member with here | there
        · exact Or.inr (here ▸ List.mem_cons_self ..)
        · exact (ih there).imp_right (List.mem_cons_of_mem _)

theorem pairwise_insertEntry (k : κ) (v : ν) {l : List (κ × ν)}
    (sorted : l.Pairwise fun a b => a.1 < b.1) :
    (insertEntry k v l).Pairwise fun a b => a.1 < b.1 := by
  induction l with
  | nil => exact List.pairwise_singleton _ _
  | cons b rest ih =>
    obtain ⟨k', v'⟩ := b
    obtain ⟨first, tail⟩ := List.pairwise_cons.mp sorted
    rw [insertEntry]
    split
    next less =>
      refine List.pairwise_cons.mpr ⟨fun c hc => ?_, sorted⟩
      rcases List.mem_cons.mp hc with rfl | hc
      · exact less
      · exact lt_trans less (first c hc)
    next notLess =>
      split
      next same =>
        subst same
        exact List.pairwise_cons.mpr ⟨first, tail⟩
      next other =>
        refine List.pairwise_cons.mpr ⟨fun c hc => ?_, ih tail⟩
        rcases mem_insertEntry hc with rfl | hc
        · exact lt_of_le_of_ne (not_lt.mp notLess) (Ne.symm other)
        · exact first c hc

def insert (m : SortedMap κ ν) (k : κ) (v : ν) : SortedMap κ ν :=
  ⟨insertEntry k v m.entries, pairwise_insertEntry k v m.sorted⟩

def erase (m : SortedMap κ ν) (k : κ) : SortedMap κ ν :=
  ⟨m.entries.filter (·.1 ≠ k), m.sorted.filter _⟩

@[simp] theorem find_empty (k : κ) : (empty : SortedMap κ ν).find k = none := rfl

@[simp] theorem lookup_insertEntry_self (k : κ) (v : ν) (l : List (κ × ν)) :
    (insertEntry k v l).lookup k = some v := by
  induction l with
  | nil => simp [insertEntry]
  | cons b rest ih =>
    obtain ⟨k', v'⟩ := b
    rw [insertEntry]
    split
    · simp
    · split
      · simp
      next other => rwa [lookup_cons_of_ne v' _ other]

theorem lookup_insertEntry_of_ne {k j : κ} (v : ν) (l : List (κ × ν)) (other : j ≠ k) :
    (insertEntry k v l).lookup j = l.lookup j := by
  induction l with
  | nil => exact lookup_cons_of_ne v _ other
  | cons b rest ih =>
    obtain ⟨k', v'⟩ := b
    rw [insertEntry]
    split
    · exact lookup_cons_of_ne v _ other
    · split
      next same =>
        subst same
        rw [lookup_cons_of_ne v _ other, lookup_cons_of_ne v' _ other]
      next => rw [List.lookup_cons, List.lookup_cons, ih]

@[simp] theorem find_insert_self (m : SortedMap κ ν) (k : κ) (v : ν) :
    (m.insert k v).find k = some v := lookup_insertEntry_self k v m.entries

theorem find_insert_of_ne (m : SortedMap κ ν) {k j : κ} (v : ν) (other : j ≠ k) :
    (m.insert k v).find j = m.find j := lookup_insertEntry_of_ne v m.entries other

/-- Nothing changes when a value is inserted that is there. -/
theorem insert_of_find {m : SortedMap κ ν} {k : κ} {v : ν} (found : m.find k = some v) :
    m.insert k v = m := by
  have same : insertEntry k v m.entries = m.entries := by
    have sorted := m.sorted
    rw [find] at found
    generalize m.entries = l at sorted found
    induction l with
    | nil => cases found
    | cons b rest ih =>
      obtain ⟨k', v'⟩ := b
      rw [List.pairwise_cons] at sorted
      by_cases here : k = k'
      · subst here
        rw [List.lookup_cons_self] at found
        rw [insertEntry, if_neg (lt_irrefl k), if_pos rfl, Option.some.inj found]
      · rw [lookup_cons_of_ne v' _ here] at found
        -- the key is behind a smaller one
        have later : ∃ a ∈ rest, a.1 = k := by
          have present : (rest.lookup k).isSome := by rw [found]; rfl
          rw [List.lookup_isSome_iff] at present
          obtain ⟨a, member, key⟩ := present
          exact ⟨a, member, (beq_iff_eq.mp key).symm⟩
        obtain ⟨a, member, rfl⟩ := later
        have above := sorted.1 a member
        rw [insertEntry, if_neg (not_lt_of_gt above), if_neg here, ih sorted.2 found]
  cases m
  simpa [insert] using same

@[simp] theorem find_erase_self (m : SortedMap κ ν) (k : κ) : (m.erase k).find k = none := by
  simp only [find, erase]
  induction m.entries with
  | nil => rfl
  | cons b rest ih =>
    rw [List.filter_cons]
    by_cases same : b.1 = k
    · simpa [same] using ih
    · simpa [same, lookup_cons_of_ne b.2 _ (Ne.symm same)] using ih

theorem find_erase_of_ne (m : SortedMap κ ν) {k j : κ} (other : j ≠ k) :
    (m.erase k).find j = m.find j := by
  simp only [find, erase]
  induction m.entries with
  | nil => rfl
  | cons b rest ih =>
    rw [List.filter_cons]
    by_cases same : b.1 = k
    · have elsewhere : j ≠ b.1 := same ▸ other
      simpa [same, lookup_cons_of_ne b.2 rest elsewhere] using ih
    · rw [if_pos (by simpa using same), List.lookup_cons, List.lookup_cons, ih]

/-- The same keys with other values. -/
def map {μ : Type} (f : ν → μ) (m : SortedMap κ ν) : SortedMap κ μ where
  entries := m.entries.map fun entry => (entry.1, f entry.2)
  sorted := List.pairwise_map.mpr m.sorted

theorem find_map {μ : Type} (f : ν → μ) (m : SortedMap κ ν) (k : κ) :
    (m.map f).find k = (m.find k).map f := by
  simp only [find, map]
  induction m.entries with
  | nil => rfl
  | cons b rest ih =>
    rw [List.map_cons, List.lookup_cons, List.lookup_cons, ih]
    cases k == b.1 <;> rfl

theorem mem_entries_of_find {m : SortedMap κ ν} {k : κ} {v : ν} (found : m.find k = some v) :
    (k, v) ∈ m.entries := by
  obtain ⟨before, after, parts, -⟩ := List.lookup_eq_some_iff.mp found
  rw [parts]
  exact List.mem_append_right _ (List.mem_cons_self ..)

theorem mem_keys_iff (m : SortedMap κ ν) (k : κ) : k ∈ m.keys ↔ (m.find k).isSome := by
  simp only [keys, find]
  induction m.entries with
  | nil => simp
  | cons b rest ih =>
    obtain ⟨k', v'⟩ := b
    rw [List.map_cons, List.mem_cons, ih]
    by_cases same : k = k'
    · simp [same]
    · simp [same, lookup_cons_of_ne v' rest same]

theorem insertEntry_of_greater {k : κ} {v : ν} {l : List (κ × ν)}
    (greater : ∀ e ∈ l, e.1 < k) : insertEntry k v l = l ++ [(k, v)] := by
  induction l with
  | nil => rfl
  | cons e rest ih =>
    have less := greater e (List.mem_cons_self ..)
    rw [insertEntry, if_neg (lt_asymm less), if_neg (ne_of_gt less),
      ih fun e member => greater e (List.mem_cons_of_mem _ member)]
    rfl

/-- Entries that come in the order of their keys stay in this order. -/
theorem entries_foldl_insert {m : SortedMap κ ν}
    {l : List (κ × ν)} (sorted : (m.entries ++ l).Pairwise fun a b => a.1 < b.1) :
    (l.foldl (fun m e => m.insert e.1 e.2) m).entries = m.entries ++ l := by
  induction l generalizing m with
  | nil => exact (List.append_nil _).symm
  | cons e rest ih =>
    have greater : ∀ a ∈ m.entries, a.1 < e.1 := fun a member =>
      (List.pairwise_append.mp sorted).2.2 a member e (List.mem_cons_self ..)
    have here : (m.insert e.1 e.2).entries = m.entries ++ [e] := insertEntry_of_greater greater
    rw [List.foldl_cons, ih (by rw [here, List.append_assoc]; exact sorted), here,
      List.append_assoc]
    rfl

theorem nodup_keys (m : SortedMap κ ν) : m.keys.Nodup := by
  rw [keys, List.Nodup, List.pairwise_map]
  exact m.sorted.imp fun less => ne_of_lt less

end SortedMap

/-! ### Entries with distinct keys -/

theorem lookup_eq_some_of_mem {k : κ} {v : ν} {l : List (κ × ν)}
    (distinct : (l.map Prod.fst).Nodup) (member : (k, v) ∈ l) : l.lookup k = some v := by
  obtain ⟨before, after, rfl⟩ := List.append_of_mem member
  rw [List.map_append, List.nodup_append] at distinct
  rw [List.lookup_eq_some_iff]
  refine ⟨before, after, rfl, fun p there => ?_⟩
  rw [bne_iff_ne]
  intro same
  exact distinct.2.2 p.1 (List.mem_map_of_mem there) k (List.mem_cons_self ..) same.symm

theorem mem_of_lookup {k : κ} {v : ν} {l : List (κ × ν)} (found : l.lookup k = some v) :
    (k, v) ∈ l := by
  obtain ⟨before, after, rfl, -⟩ := List.lookup_eq_some_iff.mp found
  exact List.mem_append_right _ (List.mem_cons_self ..)

theorem isSome_lookup_iff {k : κ} {l : List (κ × ν)} :
    (l.lookup k).isSome ↔ k ∈ l.map Prod.fst := by
  rw [List.lookup_isSome_iff, List.mem_map]
  constructor
  · rintro ⟨p, member, same⟩
    exact ⟨p, member, (eq_of_beq same).symm⟩
  · rintro ⟨p, member, rfl⟩
    exact ⟨p, member, beq_self_eq_true _⟩

/-- Two maps are equal when they are as large as each other and what is in the one is in the
other. -/
theorem rel_lookup_iff {μ : Type} {R : ν → μ → Prop} {l : List (κ × ν)} {m : List (κ × μ)}
    (left : (l.map Prod.fst).Nodup) (right : (m.map Prod.fst).Nodup) :
    (l.length = m.length ∧ ∀ p ∈ l, ∃ w, m.lookup p.1 = some w ∧ R p.2 w) ↔
      ∀ k, Option.Rel R (l.lookup k) (m.lookup k) := by
  constructor
  · rintro ⟨sizes, all⟩ k
    cases here : l.lookup k with
    | some v =>
      obtain ⟨w, there, related⟩ := all (k, v) (mem_of_lookup here)
      rw [there]
      exact .some related
    | none =>
      -- the keys of `l` are those of `m`, because there are as many
      have below : l.map Prod.fst ⊆ m.map Prod.fst := by
        intro j member
        obtain ⟨p, there, rfl⟩ := List.mem_map.mp member
        obtain ⟨w, found, -⟩ := all p there
        rw [← isSome_lookup_iff, found]
        rfl
      have perm := (left.subperm below).perm_of_length_le (by simp [sizes])
      cases there : m.lookup k with
      | none => exact .none
      | some w =>
        have member : k ∈ m.map Prod.fst := by rw [← isSome_lookup_iff, there]; rfl
        rw [← perm.mem_iff, ← isSome_lookup_iff, here] at member
        cases member
  · intro related
    have keys (k : κ) : k ∈ l.map Prod.fst ↔ k ∈ m.map Prod.fst := by
      rw [← isSome_lookup_iff, ← isSome_lookup_iff]
      have here := related k
      generalize l.lookup k = left, m.lookup k = right at here
      cases here with
      | none => exact Iff.rfl
      | some => exact Iff.rfl
    constructor
    · have perm := (List.perm_ext_iff_of_nodup left right).mpr keys
      simpa using perm.length_eq
    · intro p member
      have here := related p.1
      rw [lookup_eq_some_of_mem left member] at here
      generalize m.lookup p.1 = found at here
      cases here with
      | some related => exact ⟨_, rfl, related⟩

/-! ### Several values for one key -/

structure Multimap (κ ν : Type) [LinearOrder κ] where
  entries : List (κ × ν)
  sorted : entries.Pairwise fun a b => a.1 ≤ b.1

namespace Multimap

def empty : Multimap κ ν := ⟨[], .nil⟩

/-- Insertion behind the entries with the same key. -/
def insertEntry (k : κ) (v : ν) : List (κ × ν) → List (κ × ν)
  | [] => [(k, v)]
  | b :: rest => if b.1 ≤ k then b :: insertEntry k v rest else (k, v) :: b :: rest

theorem insertEntry_perm (k : κ) (v : ν) (l : List (κ × ν)) :
    (insertEntry k v l).Perm ((k, v) :: l) := by
  induction l with
  | nil => exact List.Perm.refl _
  | cons b rest ih =>
    rw [insertEntry]
    split
    · exact (ih.cons b).trans (List.Perm.swap ..)
    · exact List.Perm.refl _

theorem pairwise_insertEntry (k : κ) (v : ν) {l : List (κ × ν)}
    (sorted : l.Pairwise fun a b => a.1 ≤ b.1) :
    (insertEntry k v l).Pairwise fun a b => a.1 ≤ b.1 := by
  induction l with
  | nil => exact List.pairwise_singleton _ _
  | cons b rest ih =>
    obtain ⟨first, tail⟩ := List.pairwise_cons.mp sorted
    rw [insertEntry]
    split
    next below =>
      refine List.pairwise_cons.mpr ⟨fun c hc => ?_, ih tail⟩
      rcases List.mem_cons.mp ((insertEntry_perm k v rest).subset hc) with rfl | hc
      · exact below
      · exact first c hc
    next above =>
      refine List.pairwise_cons.mpr ⟨fun c hc => ?_, sorted⟩
      have less : k ≤ b.1 := le_of_lt (not_le.mp above)
      rcases List.mem_cons.mp hc with rfl | hc
      · exact less
      · exact le_trans less (first c hc)

def insert (m : Multimap κ ν) (k : κ) (v : ν) : Multimap κ ν :=
  ⟨insertEntry k v m.entries, pairwise_insertEntry k v m.sorted⟩

/-- Without the first entry. -/
def tail (m : Multimap κ ν) : Multimap κ ν := ⟨m.entries.tail, m.sorted.tail⟩

/-- Without the entries under the key `k` whose value satisfies `p`. -/
def eraseAll (m : Multimap κ ν) (k : κ) (p : ν → Bool) : Multimap κ ν :=
  ⟨m.entries.filter fun b => !(b.1 = k && p b.2), m.sorted.filter _⟩

theorem insert_perm (m : Multimap κ ν) (k : κ) (v : ν) :
    (m.insert k v).entries.Perm ((k, v) :: m.entries) := insertEntry_perm k v m.entries

/-- The first entry has the least key. -/
theorem head_le {m : Multimap κ ν} {b : κ × ν} {rest : List (κ × ν)}
    (front : m.entries = b :: rest) : ∀ c ∈ m.entries, b.1 ≤ c.1 := by
  intro c hc
  rw [front] at hc
  rcases List.mem_cons.mp hc with rfl | hc
  · exact le_rfl
  · have sorted := m.sorted
    rw [front] at sorted
    exact (List.pairwise_cons.mp sorted).1 c hc

/-- Erasing under each of several keys erases what stands under any of them. -/
theorem foldl_eraseAll_entries (m : Multimap κ ν) (ks : List κ) (p : ν → Bool) :
    (ks.foldl (fun m k => m.eraseAll k p) m).entries =
      m.entries.filter fun b => !(decide (b.1 ∈ ks) && p b.2) := by
  induction ks generalizing m with
  | nil =>
    symm
    apply List.filter_eq_self.mpr
    simp
  | cons k ks ih =>
    rw [List.foldl_cons, ih, eraseAll, List.filter_filter]
    congr 1
    funext b
    rw [Bool.eq_iff_iff]
    simp only [List.mem_cons, Bool.decide_or, Bool.and_eq_true, Bool.not_eq_true',
      Bool.and_eq_false_iff, Bool.or_eq_false_iff, decide_eq_false_iff_not]
    tauto

end Multimap

end VRJuggler
