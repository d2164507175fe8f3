import Mathlib.Logic.Function.Basic
import Mathlib.Data.List.Nodup

/-!
# Tokens in places

A ledger says that every live token stands in exactly one place, and there once.
It is kept by issuing a new token and by moving tokens from one place to another.
-/
namespace VRJuggler

variable {π κ : Type}

structure Ledger (holds : π → List κ) (live : κ → Prop) : Prop where
  once : ∀ p, (holds p).Nodup
  apart : ∀ p q k, k ∈ holds p → k ∈ holds q → p = q
  covers : ∀ k, live k ↔ ∃ p, k ∈ holds p

namespace Ledger

variable {holds holds' : π → List κ} {live : κ → Prop}

/-- The order within a place does not matter. -/
theorem of_perm (ledger : Ledger holds live) (same : ∀ p, (holds' p).Perm (holds p)) :
    Ledger holds' live where
  once := fun p => (same p).nodup_iff.mpr (ledger.once p)
  apart := fun p q k here there =>
    ledger.apart p q k ((same p).subset here) ((same q).subset there)
  covers := fun k => by
    rw [ledger.covers k]
    exact exists_congr fun p =>
      ⟨fun here => (same p).symm.subset here, fun here => (same p).subset here⟩

/-- The same tokens, described in another way. -/
theorem of_live {live' : κ → Prop} (ledger : Ledger holds live) (same : ∀ k, live' k ↔ live k) :
    Ledger holds live' :=
  ⟨ledger.once, ledger.apart, fun k => (same k).trans (ledger.covers k)⟩

variable [DecidableEq π]

/-- The places with the tokens `ks` added at `q`. -/
def add (holds : π → List κ) (q : π) (ks : List κ) : π → List κ :=
  Function.update holds q (holds q ++ ks)

theorem mem_add {q p : π} {ks : List κ} {k : κ} :
    k ∈ add holds q ks p ↔ k ∈ holds p ∨ (p = q ∧ k ∈ ks) := by
  by_cases same : p = q
  · subst same
    simp [add]
  · simp [add, same]

theorem issue (ledger : Ledger holds live) (q : π) (k : κ) (fresh : ¬ live k) :
    Ledger (add holds q [k]) fun j => live j ∨ j = k := by
  have nowhere : ∀ p, k ∉ holds p := fun p here => fresh ((ledger.covers k).mpr ⟨p, here⟩)
  refine ⟨fun p => ?_, fun p r j here there => ?_, fun j => ?_⟩
  · by_cases same : p = q
    · subst same
      simp only [add, Function.update_self]
      exact List.nodup_append.mpr ⟨ledger.once p, List.nodup_singleton k, fun a ha b hb equal =>
        nowhere p (List.mem_singleton.mp hb ▸ equal ▸ ha)⟩
    · simpa [add, same] using ledger.once p
  · rw [mem_add] at here there
    rcases here with here | ⟨rfl, new⟩
    · rcases there with there | ⟨rfl, new⟩
      · exact ledger.apart p r j here there
      · exact absurd (List.mem_singleton.mp new ▸ here) (nowhere p)
    · rcases there with there | ⟨rfl, -⟩
      · exact absurd (List.mem_singleton.mp new ▸ there) (nowhere r)
      · rfl
  · rw [ledger.covers j]
    constructor
    · rintro (⟨p, here⟩ | rfl)
      · exact ⟨p, mem_add.mpr (Or.inl here)⟩
      · exact ⟨q, mem_add.mpr (Or.inr ⟨rfl, List.mem_singleton_self _⟩)⟩
    · rintro ⟨p, here⟩
      rcases mem_add.mp here with here | ⟨-, new⟩
      · exact Or.inl ⟨p, here⟩
      · exact Or.inr (List.mem_singleton.mp new)

/-- The tokens `gone` leave the place `p`, where `stay` remain, and come to `q`. -/
theorem move (ledger : Ledger holds live) (p q : π) {stay gone : List κ}
    (split : (holds p).Perm (stay ++ gone)) :
    Ledger (add (Function.update holds p stay) q gone) live := by
  by_cases same : q = p
  · -- nothing but the order changes
    subst same
    refine ledger.of_perm fun r => ?_
    by_cases here : r = q
    · subst here
      simpa [add] using split.symm
    · simp [add, here]
  · have whole := split.nodup_iff.mp (ledger.once p)
    have parts := List.nodup_append.mp whole
    have memStay : ∀ k ∈ stay, k ∈ holds p := fun k hk =>
      split.symm.subset (List.mem_append_left _ hk)
    have memGone : ∀ k ∈ gone, k ∈ holds p := fun k hk =>
      split.symm.subset (List.mem_append_right _ hk)
    -- where a holding of the new ledger comes from
    have mem : ∀ r k, k ∈ add (Function.update holds p stay) q gone r →
        (r ≠ p ∧ k ∈ holds r) ∨ (r = p ∧ k ∈ stay) ∨ (r = q ∧ k ∈ gone) := by
      intro r k hk
      rcases mem_add.mp hk with old | ⟨target, new⟩
      · by_cases here : r = p
        · subst here
          rw [Function.update_self] at old
          exact Or.inr (Or.inl ⟨rfl, old⟩)
        · rw [Function.update_of_ne here] at old
          exact Or.inl ⟨here, old⟩
      · exact Or.inr (Or.inr ⟨target, new⟩)
    refine ⟨fun r => ?_, fun r s k here there => ?_, fun k => ?_⟩
    · by_cases target : r = q
      · subst target
        simp only [add, Function.update_self, Function.update_of_ne same]
        refine List.nodup_append.mpr ⟨ledger.once r, parts.2.1, fun a ha b hb equal => ?_⟩
        exact same (ledger.apart r p a ha (memGone a (equal ▸ hb)))
      · by_cases source : r = p
        · subst source
          simpa [add, target] using parts.1
        · simpa [add, target, source] using ledger.once r
    · rcases mem r k here with ⟨hr, inR⟩ | ⟨rfl, inR⟩ | ⟨rfl, inR⟩ <;>
        rcases mem s k there with ⟨hs, inS⟩ | ⟨rfl, inS⟩ | ⟨rfl, inS⟩
      · exact ledger.apart r s k inR inS
      · exact absurd (ledger.apart r s k inR (memStay k inS)) hr
      · exact absurd (ledger.apart r p k inR (memGone k inS)) hr
      · exact absurd (ledger.apart s r k inS (memStay k inR)) hs
      · rfl
      · exact absurd rfl (parts.2.2 k inR k inS)
      · exact absurd (ledger.apart s p k inS (memGone k inR)) hs
      · exact absurd rfl (parts.2.2 k inS k inR)
      · rfl
    · rw [ledger.covers k]
      constructor
      · rintro ⟨r, here⟩
        by_cases source : r = p
        · subst source
          rcases List.mem_append.mp (split.subset here) with hk | hk
          · exact ⟨r, mem_add.mpr (Or.inl (by rwa [Function.update_self]))⟩
          · exact ⟨q, mem_add.mpr (Or.inr ⟨rfl, hk⟩)⟩
        · exact ⟨r, mem_add.mpr (Or.inl (by rwa [Function.update_of_ne source]))⟩
      · rintro ⟨r, here⟩
        rcases mem r k here with ⟨-, inR⟩ | ⟨rfl, inR⟩ | ⟨rfl, inR⟩
        · exact ⟨r, inR⟩
        · exact ⟨r, memStay k inR⟩
        · exact ⟨p, memGone k inR⟩

end Ledger

end VRJuggler
