import VRJuggler.Gadget.UpdateAllNodes

/-!
# A cluster of network managers

Every node runs its own `NetworkManager`; the connections between them are
reliable first-in first-out streams of packets. A step of the cluster is a step
of one node. Besides what the nodes and the streams hold, the state records what
was sent and handled, and the number of completed calls of `update`.
-/
namespace VRJuggler.Gadget

namespace Manager

variable {ι α : Type} [DecidableEq ι] {m t : Manager ι}

/-- `update` is called on a manager that is idle. -/
theorem busy_of_update {temp : Nat} (stepped : m.step (.update temp : Event ι α) = some t) :
    t.phase ≠ .idle := by
  simp only [step] at stepped
  split at stepped
  · obtain rfl := Option.some.inj stepped
    simp
  · cases stepped

theorem busy_of_sendEndBlock {delivered : Bool}
    (stepped : m.step (.sendEndBlock delivered : Event ι α) = some t) : t.phase ≠ .idle := by
  simp only [step] at stepped
  split at stepped
  · split at stepped
    · split at stepped
      all_goals
        obtain rfl := Option.some.inj stepped
        simp
    · cases stepped
  · cases stepped

theorem busy_of_select {answer : Poll ι}
    (stepped : m.step (.select answer : Event ι α) = some t) : t.phase ≠ .idle := by
  simp only [step] at stepped
  split at stepped
  · split at stepped
    · cases stepped
    · cases answer with
      | timeout | readable | fails =>
        obtain rfl := Option.some.inj stepped
        simp
  · cases stepped

theorem busy_of_recv {a : Arrival α} (stepped : m.step (.recv a) = some t) :
    t.phase ≠ .idle := by
  simp only [step] at stepped
  split at stepped
  next receiving =>
    split at stepped
    · cases stepped
    · split at stepped
      · obtain rfl := Option.some.inj stepped
        rw [handlePacket]
        split
        · simp [setNode, receiving]
        · simp [receiving]
      all_goals
        obtain rfl := Option.some.inj stepped
        simp
  · cases stepped

end Manager

/-- `sent i j` and `link i j` are about packets from `i` to `j`. `handled i j` is
what `i` has handled from `j`, each packet with the number of updates that `i`
had completed by then. -/
structure Cluster (ι α : Type) where
  manager : ι → Manager ι
  link : ι → ι → List (Packet α)
  sent : ι → ι → List (Packet α)
  handled : ι → ι → List (Nat × Packet α)
  updates : ι → Nat

/-- What a node does next. Plugins may send at any time. -/
inductive Act (ι α : Type) where
  | send (i j : ι) (body : α)
  | update (i : ι) (temp : Nat)
  | sendEndBlock (i : ι)
  | select (i : ι) (answer : Poll ι)
  | recv (i : ι)
  | next (i : ι)
  deriving Repr

namespace Cluster

variable {ι α : Type} [DecidableEq ι]

/-- All connections are made and nothing was sent yet. -/
def start (neighbours : ι → List ι) : Cluster ι α where
  manager := fun i =>
    { mNodes := neighbours i, node := fun _ => ⟨.connected, false, true⟩,
      handles := neighbours i, phase := .idle }
  link := fun _ _ => []
  sent := fun _ _ => []
  handled := fun _ _ => []
  updates := fun _ => 0

def setManager (c : Cluster ι α) (i : ι) (m : Manager ι) : Cluster ι α :=
  { c with manager := Function.update c.manager i m }

/-- `Node::send` on the connection from `i` to `j`. -/
def put (c : Cluster ι α) (i j : ι) (p : Packet α) : Cluster ι α :=
  { c with
    link := fun a b => if a = i ∧ b = j then c.link a b ++ [p] else c.link a b
    sent := fun a b => if a = i ∧ b = j then c.sent a b ++ [p] else c.sent a b }

/-- Node `i` takes the packet `p` from the stream of `j`, which then holds `rest`. -/
def take (c : Cluster ι α) (i j : ι) (p : Packet α) (rest : List (Packet α)) : Cluster ι α :=
  { c with
    link := fun a b => if a = j ∧ b = i then rest else c.link a b
    handled := fun a b =>
      if a = i ∧ b = j then c.handled a b ++ [(c.updates i, p)] else c.handled a b }

/-- One step of the cluster. Nothing fails: `select` runs into its timeout or
reports nodes with data to read, and a receive waits for a packet. -/
def step (c : Cluster ι α) : Act ι α → Option (Cluster ι α)
  | .send i j body =>
    if j ∈ (c.manager i).mNodes then some (c.put i j (.other body)) else none
  | .update i temp =>
    ((c.manager i).step (.update temp : Event ι α)).map (c.setManager i)
  | .sendEndBlock i =>
    match (c.manager i).phase with
    | .sendEndBlocks temp (j :: _) _ =>
      ((c.manager i).step (.sendEndBlock true : Event ι α)).map fun m =>
        (c.setManager i m).put i j (.endBlock temp)
    | _ => none
  | .select i answer =>
    match answer with
    | .timeout => ((c.manager i).step (.select .timeout : Event ι α)).map (c.setManager i)
    | .readable mask =>
      if mask.all fun j => !(c.link j i).isEmpty then
        ((c.manager i).step (.select (.readable mask) : Event ι α)).map (c.setManager i)
      else none
    | .fails => none
  | .recv i =>
    match (c.manager i).phase with
    | .receive _ _ _ j _ =>
      match c.link j i with
      | [] => none
      | p :: rest =>
        ((c.manager i).step (.recv (.packet p))).map fun m => (c.setManager i m).take i j p rest
    | _ => none
  | .next i =>
    ((c.manager i).next).map fun m =>
      let c' := c.setManager i m
      if m.phase = .idle then { c' with updates := Function.update c.updates i (c.updates i + 1) }
      else c'

/-! ### What a step does -/

variable {c d : Cluster ι α} {i j : ι}

theorem step_send {body : α} (stepped : c.step (.send i j body) = some d) :
    j ∈ (c.manager i).mNodes ∧ d = c.put i j (.other body) := by
  simp only [step] at stepped
  split at stepped
  next member => exact ⟨member, (Option.some.inj stepped).symm⟩
  next => cases stepped

theorem step_update {temp : Nat} (stepped : c.step (.update i temp) = some d) :
    ∃ m, (c.manager i).step (.update temp : Event ι α) = some m ∧ d = c.setManager i m := by
  obtain ⟨m, moved, rfl⟩ := Option.map_eq_some_iff.mp stepped
  exact ⟨m, moved, rfl⟩

theorem step_sendEndBlock (stepped : c.step (.sendEndBlock i) = some d) :
    ∃ temp j rest n m, (c.manager i).phase = .sendEndBlocks temp (j :: rest) n ∧
      (c.manager i).step (.sendEndBlock true : Event ι α) = some m ∧
      d = (c.setManager i m).put i j (.endBlock temp) := by
  simp only [step] at stepped
  split at stepped
  next temp j rest n sending =>
    obtain ⟨m, moved, rfl⟩ := Option.map_eq_some_iff.mp stepped
    exact ⟨temp, j, rest, n, m, sending, moved, rfl⟩
  next => cases stepped

theorem step_select {answer : Poll ι} (stepped : c.step (.select i answer) = some d) :
    answer ≠ .fails ∧ ∃ m, (c.manager i).step (.select answer : Event ι α) = some m ∧
      d = c.setManager i m := by
  cases answer with
  | timeout =>
    obtain ⟨m, moved, rfl⟩ := Option.map_eq_some_iff.mp stepped
    exact ⟨by simp, m, moved, rfl⟩
  | readable mask =>
    simp only [step] at stepped
    split at stepped
    next =>
      obtain ⟨m, moved, rfl⟩ := Option.map_eq_some_iff.mp stepped
      exact ⟨by simp, m, moved, rfl⟩
    next => cases stepped
  | fails => cases stepped

theorem step_recv (stepped : c.step (.recv i) = some d) :
    ∃ n done ready j rest p tail m, (c.manager i).phase = .receive n done ready j rest ∧
      c.link j i = p :: tail ∧ (c.manager i).step (.recv (.packet p)) = some m ∧
      d = (c.setManager i m).take i j p tail := by
  simp only [step] at stepped
  split at stepped
  next n done ready j rest receiving =>
    split at stepped
    next => cases stepped
    next p tail arrived =>
      obtain ⟨m, moved, rfl⟩ := Option.map_eq_some_iff.mp stepped
      exact ⟨n, done, ready, j, rest, p, tail, m, receiving, arrived, moved, rfl⟩
  next => cases stepped

theorem step_next (stepped : c.step (.next i) = some d) :
    ∃ m, (c.manager i).next = some m ∧
      ((m.phase = .idle ∧ d = { c.setManager i m with
          updates := Function.update c.updates i (c.updates i + 1) }) ∨
        (m.phase ≠ .idle ∧ d = c.setManager i m)) := by
  obtain ⟨m, moved, rfl⟩ := Option.map_eq_some_iff.mp stepped
  refine ⟨m, moved, ?_⟩
  by_cases idle : m.phase = .idle
  · exact Or.inl ⟨idle, by simp only [idle, if_true]⟩
  · exact Or.inr ⟨idle, by simp only [idle, if_false]⟩

@[simp] theorem setManager_self (c : Cluster ι α) (i : ι) (m : Manager ι) :
    (c.setManager i m).manager i = m := Function.update_self _ _ _
theorem setManager_of_ne (c : Cluster ι α) {i j : ι} (m : Manager ι) (other : j ≠ i) :
    (c.setManager i m).manager j = c.manager j := Function.update_of_ne other _ _
@[simp] theorem setManager_link (c : Cluster ι α) (i : ι) (m : Manager ι) :
    (c.setManager i m).link = c.link := rfl
@[simp] theorem setManager_sent (c : Cluster ι α) (i : ι) (m : Manager ι) :
    (c.setManager i m).sent = c.sent := rfl
@[simp] theorem setManager_handled (c : Cluster ι α) (i : ι) (m : Manager ι) :
    (c.setManager i m).handled = c.handled := rfl
@[simp] theorem setManager_updates (c : Cluster ι α) (i : ι) (m : Manager ι) :
    (c.setManager i m).updates = c.updates := rfl

end Cluster

/-! ### The star -/

/-- The hosts of a cluster with `n` slaves. -/
inductive Host (n : Nat) where
  | master
  | slave (k : Fin n)
  deriving DecidableEq, Repr

instance Host.decidableForall {n : Nat} {p : Host n → Prop} [DecidablePred p] :
    Decidable (∀ h, p h) :=
  decidable_of_iff (p .master ∧ ∀ k, p (.slave k))
    ⟨fun both h => match h with | .master => both.1 | .slave k => both.2 k,
      fun all => ⟨all _, fun _ => all _⟩⟩

/-- The master is connected to every slave, a slave to the master only. -/
def starNeighbours {n : Nat} : Host n → List (Host n)
  | .master => (List.finRange n).map .slave
  | .slave _ => [.master]

theorem starNeighbours_nodup {n : Nat} (h : Host n) : (starNeighbours h).Nodup := by
  cases h with
  | master => exact (List.nodup_finRange n).map fun _ _ equal => Host.slave.inj equal
  | slave k => exact List.nodup_singleton _

theorem starNeighbours_symm {n : Nat} {g h : Host n} (adjacent : g ∈ starNeighbours h) :
    h ∈ starNeighbours g := by
  cases h with
  | master =>
    obtain ⟨k, -, rfl⟩ := List.mem_map.mp adjacent
    exact List.mem_singleton.mpr rfl
  | slave k =>
    obtain rfl := List.mem_singleton.mp adjacent
    exact List.mem_map.mpr ⟨k, List.mem_finRange k, rfl⟩

end VRJuggler.Gadget
