import Mathlib.Data.Option.Basic

/-!
# Linked lists

A linked list is a pointer to its first node and, for each node, a pointer to the next one.
`Linked next head nodes` says that the nodes from `head` on are `nodes`.
-/
namespace VRJuggler

variable {ι : Type} {next : ι → Option ι} {head : Option ι} {nodes : List ι}

def Linked (next : ι → Option ι) : Option ι → List ι → Prop
  | head, [] => head = none
  | head, node :: nodes => head = some node ∧ Linked next (next node) nodes

/-- Pointers of other nodes do not matter. -/
theorem Linked.congr {next' : ι → Option ι} (linked : Linked next head nodes)
    (same : ∀ node ∈ nodes, next' node = next node) : Linked next' head nodes := by
  induction nodes generalizing head with
  | nil => exact linked
  | cons node nodes ih =>
    obtain ⟨here, later⟩ := linked
    rw [List.forall_mem_cons] at same
    refine ⟨here, ?_⟩
    rw [same.1]
    exact ih later same.2

/-- A node that points to the first one is put before it. -/
theorem Linked.push {next' : ι → Option ι} {node : ι} (linked : Linked next head nodes)
    (first : next' node = head) (same : ∀ other ∈ nodes, next' other = next other) :
    Linked next' (some node) (node :: nodes) := by
  refine ⟨rfl, ?_⟩
  rw [first]
  exact linked.congr same

/-- The first node is taken from the list. -/
theorem Linked.pop {node : ι} (linked : Linked next (some node) nodes) :
    ∃ rest, nodes = node :: rest ∧ Linked next (next node) rest := by
  cases nodes with
  | nil => exact nomatch linked
  | cons first rest =>
    obtain ⟨here, later⟩ := linked
    obtain rfl := Option.some.inj here
    exact ⟨rest, rfl, later⟩

end VRJuggler
