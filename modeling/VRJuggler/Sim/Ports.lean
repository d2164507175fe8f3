import VRJuggler.Sim.Routes

/-!
# Port tables

Each node has a table of ports for each type of sockets. `addSocket` overwrites what
stands under a port, and `removeSocket` removes what stands there, whoever it is. The
tables hold just the open, bound sockets as long as only open sockets are bound, a socket
is bound to a free port, and none is unbound behind its back.
-/
namespace VRJuggler.Sim

variable {σ : Type} {g : NetworkGraph}

/-! ### Ports that nobody has -/

theorem lt_unassignedAfter {keys : List Nat} (nonempty : keys ≠ []) (sorted : keys.Pairwise (· < ·))
    (small : ∀ k ∈ keys, k + 1 < 2 ^ 32) : ∀ k ∈ keys.head?, k < unassignedAfter keys := by
  induction keys with
  | nil => exact absurd rfl nonempty
  | cons k keys ih =>
    intro j hj
    obtain rfl := Option.some.inj hj
    obtain ⟨first, rest⟩ := List.pairwise_cons.mp sorted
    have succ : (k + 1) % 2 ^ 32 = k + 1 := Nat.mod_eq_of_lt (small k (List.mem_cons_self ..))
    cases keys with
    | nil =>
      rw [unassignedAfter, succ]
      exact Nat.lt_succ_self k
    | cons next keys =>
      rw [unassignedAfter, succ]
      split
      · exact Nat.lt_succ_self k
      · have later := ih (List.cons_ne_nil _ _) rest
          (fun j hj => small j (List.mem_cons_of_mem _ hj)) next rfl
        exact Nat.lt_trans (first next (List.mem_cons_self ..)) later

/-- As long as the port after the last one does not wrap around, the automatic choice is
a port that is not in the table. -/
theorem unassignedAfter_notMem {keys : List Nat} (sorted : keys.Pairwise (· < ·))
    (small : ∀ k ∈ keys, k + 1 < 2 ^ 32) : unassignedAfter keys ∉ keys := by
  induction keys with
  | nil => simp
  | cons k keys ih =>
    obtain ⟨first, rest⟩ := List.pairwise_cons.mp sorted
    have succ : (k + 1) % 2 ^ 32 = k + 1 := Nat.mod_eq_of_lt (small k (List.mem_cons_self ..))
    cases keys with
    | nil =>
      rw [unassignedAfter, succ, List.mem_singleton]
      exact Nat.succ_ne_self k
    | cons next keys =>
      have after := first next (List.mem_cons_self ..)
      have smaller : ∀ j ∈ next :: keys, j + 1 < 2 ^ 32 := fun j hj =>
        small j (List.mem_cons_of_mem _ hj)
      rw [unassignedAfter, succ]
      split
      next gap =>
        -- the gap is before `next`, and all others come after it
        intro member
        rcases List.mem_cons.mp member with here | there
        · exact Nat.succ_ne_self k here
        · rcases List.mem_cons.mp there with here | there
          · exact gap here.symm
          · have later := (List.pairwise_cons.mp rest).1 _ there
            omega
      next =>
        intro member
        rcases List.mem_cons.mp member with here | there
        · have above := lt_unassignedAfter (List.cons_ne_nil _ _) rest smaller next rfl
          omega
        · exact ih rest smaller there

namespace NetworkNode

/-- The port that a socket without one is given is free. -/
theorem getSocket_getUnassignedPortNumber (n : NetworkNode σ) (type : SocketType)
    (small : ∀ port, (n.getSocket port type).isSome → port + 1 < 2 ^ 32) :
    n.getSocket (n.getUnassignedPortNumber type) type = none := by
  have fresh : unassignedAfter (n.socketMap type).keys ∉ (n.socketMap type).keys := by
    apply unassignedAfter_notMem
    · exact List.pairwise_map.mpr (n.socketMap type).sorted
    · intro k hk
      exact small k (((n.socketMap type).mem_keys_iff k).mp hk)
  rw [SortedMap.mem_keys_iff] at fresh
  exact Option.not_isSome_iff_eq_none.mp fresh

theorem getSocket_addSocket_self (n : NetworkNode σ) (port : Nat) (type : SocketType) (sock : σ) :
    (n.addSocket port type sock).getSocket port type = some sock := by
  simp [getSocket, addSocket]

theorem getSocket_addSocket_of_ne (n : NetworkNode σ) {port p : Nat} {type ty : SocketType}
    (sock : σ) (other : ¬ (p = port ∧ ty = type)) :
    (n.addSocket port type sock).getSocket p ty = n.getSocket p ty := by
  simp only [getSocket, addSocket]
  by_cases same : ty = type
  · subst same
    rw [Function.update_self, SortedMap.find_insert_of_ne]
    exact fun port => other ⟨port, rfl⟩
  · rw [Function.update_of_ne same]

theorem getSocket_removeSocket_self (n : NetworkNode σ) (port : Nat) (type : SocketType) :
    (n.removeSocket port type).getSocket port type = none := by
  simp [getSocket, removeSocket]

theorem getSocket_removeSocket_of_ne (n : NetworkNode σ) {port p : Nat} {type ty : SocketType}
    (other : ¬ (p = port ∧ ty = type)) :
    (n.removeSocket port type).getSocket p ty = n.getSocket p ty := by
  simp only [getSocket, removeSocket]
  by_cases same : ty = type
  · subst same
    rw [Function.update_self, SortedMap.find_erase_of_ne]
    exact fun port => other ⟨port, rfl⟩
  · rw [Function.update_of_ne same]

end NetworkNode

/-! ### Who belongs where -/

/-- What the tables have to know of a socket. -/
def Socket.registration (s : Socket σ) :
    SocketType × Bool × Bool × InetAddr × Option Vertex :=
  (s.mType, s.mOpen, s.mBound, s.mLocalAddr, s.mNetworkNode)

/-- An open socket of that type, bound to that port of that node. -/
structure Socket.BelongsAt (s : Socket σ) (v : Vertex) (port : Nat) (type : SocketType) :
    Prop where
  opened : s.mOpen = true
  bound : s.mBound = true
  type : s.mType = type
  node : s.mNetworkNode = some v
  port : s.mLocalAddr.port = port

theorem Socket.BelongsAt.congr {s t : Socket σ} {v : Vertex} {port : Nat} {type : SocketType}
    (same : t.registration = s.registration) :
    t.BelongsAt v port type ↔ s.BelongsAt v port type := by
  simp only [registration, Prod.mk.injEq] at same
  obtain ⟨hType, hOpen, hBound, hAddr, hNode⟩ := same
  constructor
  · rintro ⟨o, b, y, n, p⟩
    exact ⟨hOpen ▸ o, hBound ▸ b, hType ▸ y, hNode ▸ n, hAddr ▸ p⟩
  · rintro ⟨o, b, y, n, p⟩
    exact ⟨hOpen.trans o, hBound.trans b, hType.trans y, hNode.trans n, hAddr ▸ p⟩

namespace Endpoints

/-- The table of each node for a type maps the ports to the open, bound sockets of that
node and type, each under the port of its address. -/
def PortsMatch (e : Endpoints σ) : Prop :=
  ∀ v port type i, (e.node v).getSocket port type = some i ↔ (e.sock i).BelongsAt v port type

/-- The registered nodes are those of the graph, a bound socket is open and knows the node
of its address. -/
structure Tables (g : NetworkGraph) (e : Endpoints σ) : Prop where
  known : ∀ ip v, e.mNetworkNodes ip = some v → g.getNodeWithAddr ip = some v
  assigned : ∀ i, (e.sock i).mBound = true → ∃ v, (e.sock i).mNetworkNode = some v ∧
    g.getNodeWithAddr (e.sock i).mLocalAddr.address = some v
  opened : ∀ i, (e.sock i).mBound = true → (e.sock i).mOpen = true

/-- A bound socket belongs to its node, under its port. -/
theorem Tables.belongsAt {e : Endpoints σ} (tables : Tables g e) {i : σ}
    (bound : (e.sock i).mBound = true) : ∃ v, (e.sock i).mNetworkNode = some v ∧
      g.getNodeWithAddr (e.sock i).mLocalAddr.address = some v ∧
      (e.sock i).BelongsAt v (e.sock i).mLocalAddr.port (e.sock i).mType := by
  obtain ⟨v, here, found⟩ := tables.assigned i bound
  exact ⟨v, here, found, tables.opened i bound, bound, rfl, here, rfl⟩

theorem Tables.congr {e t : Endpoints σ} (tables : Tables g e)
    (same : ∀ i, (t.sock i).registration = (e.sock i).registration)
    (nodes : t.mNetworkNodes = e.mNetworkNodes) : Tables g t := by
  simp only [Socket.registration, Prod.mk.injEq] at same
  refine ⟨fun ip v here => ?_, fun i bound => ?_, fun i bound => ?_⟩
  · exact tables.known ip v (nodes ▸ here)
  · obtain ⟨-, -, hBound, hAddr, hNode⟩ := same i
    rw [hAddr, hNode]
    exact tables.assigned i (hBound ▸ bound)
  · obtain ⟨-, hOpen, hBound, -⟩ := same i
    rw [hOpen]
    exact tables.opened i (hBound ▸ bound)

/-- Nothing that the tables are about changes. -/
structure SameRegistry (e t : Endpoints σ) : Prop where
  sock : ∀ i, (t.sock i).registration = (e.sock i).registration
  nodes : t.mNetworkNodes = e.mNetworkNodes
  node : t.node = e.node

namespace SameRegistry

theorem refl (e : Endpoints σ) : SameRegistry e e := ⟨fun _ => rfl, rfl, rfl⟩

theorem trans {e t u : Endpoints σ} (first : SameRegistry e t) (second : SameRegistry t u) :
    SameRegistry e u :=
  ⟨fun i => (second.sock i).trans (first.sock i), second.nodes.trans first.nodes,
    second.node.trans first.node⟩

theorem portsMatch_iff {e t : Endpoints σ} (same : SameRegistry e t) :
    PortsMatch t ↔ PortsMatch e := by
  simp only [PortsMatch, same.node, Socket.BelongsAt.congr (same.sock _)]

end SameRegistry

variable [DecidableEq σ]

theorem SameRegistry.setSock {e : Endpoints σ} {i : σ} {s : Socket σ}
    (same : s.registration = (e.sock i).registration) : SameRegistry e (e.setSock i s) :=
  ⟨view_setSock Socket.registration same, rfl, rfl⟩

/-- A socket that is not bound may change as long as it is not bound. -/
theorem tables_setSock {e : Endpoints σ} (tables : Tables g e) {i : σ} {s : Socket σ}
    (after : s.mBound = false) : Tables g (e.setSock i s) where
  known := tables.known
  assigned := forall_setSock (P := fun _ s => s.mBound = true →
    ∃ v, s.mNetworkNode = some v ∧ g.getNodeWithAddr s.mLocalAddr.address = some v)
    tables.assigned (by simp [after])
  opened := forall_setSock (P := fun _ s => s.mBound = true → s.mOpen = true)
    tables.opened (by simp [after])

theorem portsMatch_setSock {e : Endpoints σ} (ports : PortsMatch e) {i : σ} {s : Socket σ}
    (before : (e.sock i).mBound = false) (after : s.mBound = false) :
    PortsMatch (e.setSock i s) := by
  intro v port type
  refine forall_setSock (P := fun j s => (e.node v).getSocket port type = some j ↔
    s.BelongsAt v port type) (ports v port type) ?_
  rw [ports v port type i]
  constructor
  · intro belongs
    exact absurd (before.symm.trans belongs.bound) Bool.false_ne_true
  · intro belongs
    exact absurd (after.symm.trans belongs.bound) Bool.false_ne_true

/-! ### Binding -/

/-- The port under which the socket would be entered is free or already its own. -/
def Ready (e : Endpoints σ) (g : NetworkGraph) (i : σ) : Prop :=
  (e.sock i).mOpen = true ∧ ((e.sock i).mBound = true ∨
    ∀ v ∈ g.getNodeWithAddr (e.sock i).mLocalAddr.address,
      (e.node v).getSocket (e.chosenPort v i) (e.sock i).mType = none)

omit [DecidableEq σ] in
/-- An open socket may be bound to an automatic port as long as no socket of the node has the
last port of all. -/
theorem ready_of_automatic {e : Endpoints σ} {i : σ} (opened : (e.sock i).mOpen = true)
    (automatic : (e.sock i).mLocalAddr.port = 0)
    (small : ∀ v port, ((e.node v).getSocket port (e.sock i).mType).isSome → port + 1 < 2 ^ 32) :
    e.Ready g i := by
  refine ⟨opened, ?_⟩
  cases bound : (e.sock i).mBound with
  | true => exact Or.inl rfl
  | false =>
    right
    intro v _
    have port : e.chosenPort v i = (e.node v).getUnassignedPortNumber (e.sock i).mType := by
      simp [chosenPort, bound, automatic]
    rw [port]
    exact NetworkNode.getSocket_getUnassignedPortNumber _ _ (small v)

/-- What the tables know after `bind`. -/
theorem bind_registry {e t : Endpoints σ} {i : σ}
    (known : ∀ ip v, e.mNetworkNodes ip = some v → g.getNodeWithAddr ip = some v)
    (bound : e.bind g i = some t) :
    ∃ v, g.getNodeWithAddr (e.sock i).mLocalAddr.address = some v ∧
      t.sock = Function.update e.sock i (e.boundSocket v v i) ∧
      (t.node v).getSocket (e.chosenPort v i) (e.sock i).mType = some i ∧
      (∀ w port type, ¬ (w = v ∧ port = e.chosenPort v i ∧ type = (e.sock i).mType) →
        (t.node w).getSocket port type = (e.node w).getSocket port type) ∧
      ∀ ip w, t.mNetworkNodes ip = some w → g.getNodeWithAddr ip = some w := by
  obtain ⟨v, node_vertex, found, registered, rfl⟩ := bind_spec bound
  obtain rfl : v = node_vertex := by
    rcases registered with registered | ⟨-, same⟩
    · exact Option.some.inj ((known _ v registered).symm.trans found)
    · exact same
  refine ⟨v, found, rfl, ?_, fun w port type other => ?_, fun ip w here => ?_⟩
  · simp only [Function.update_self, NetworkNode.getSocket_addSocket_self]
  · by_cases same : w = v
    · subst same
      simp only [Function.update_self]
      exact NetworkNode.getSocket_addSocket_of_ne _ _ fun place => other ⟨rfl, place⟩
    · simp only [Function.update_of_ne same]
  · by_cases same : ip = (e.sock i).mLocalAddr.address
    · subst same
      simp only [Function.update_self] at here
      rw [← here, found]
    · simp only [Function.update_of_ne same] at here
      exact known ip w here

omit [DecidableEq σ] in
/-- Where the socket belongs once it is bound. -/
theorem belongsAt_boundSocket {e : Endpoints σ} {v w : Vertex} {i : σ} {port : Nat}
    {type : SocketType} : (e.boundSocket v v i).BelongsAt w port type ↔
      (e.sock i).mOpen = true ∧ w = v ∧ port = e.chosenPort v i ∧ type = (e.sock i).mType := by
  constructor
  · rintro ⟨opened, -, hType, hNode, hPort⟩
    exact ⟨opened, (Option.some.inj hNode).symm, hPort.symm, hType.symm⟩
  · rintro ⟨opened, rfl, rfl, rfl⟩
    exact ⟨opened, rfl, rfl, rfl, rfl⟩

omit [DecidableEq σ] in
theorem chosenPort_of_bound {e : Endpoints σ} {i : σ} (bound : (e.sock i).mBound = true)
    (v : Vertex) : e.chosenPort v i = (e.sock i).mLocalAddr.port := by
  rw [chosenPort, bound]
  rfl

/-- After `bind` the tables are right just when the socket was open and its port was not
taken by another socket. -/
theorem portsMatch_bind_iff {e t : Endpoints σ} {i : σ} (tables : Tables g e)
    (ports : PortsMatch e) (bound : e.bind g i = some t) :
    PortsMatch t ↔ e.Ready g i := by
  obtain ⟨v, found, sock, entered, others, -⟩ := bind_registry tables.known bound
  have self : t.sock i = e.boundSocket v v i := by rw [sock, Function.update_self]
  have other : ∀ j, j ≠ i → t.sock j = e.sock j := fun j hj => by
    rw [sock, Function.update_of_ne hj]
  constructor
  · intro after
    have belongs := (after v _ _ i).mp entered
    rw [self, belongsAt_boundSocket] at belongs
    refine ⟨belongs.1, ?_⟩
    cases before : (e.sock i).mBound with
    | true => exact Or.inl rfl
    | false =>
      right
      intro w hw
      obtain rfl : v = w := Option.some.inj (found.symm.trans hw)
      -- a socket that was there is not `i`, and still belongs there
      refine Option.eq_none_iff_forall_ne_some.mpr fun k taken => ?_
      have belonged := (ports v _ _ k).mp taken
      have distinct : k ≠ i := fun same =>
        Bool.false_ne_true (before.symm.trans (same ▸ belonged.bound))
      have still := (after v _ _ k).mpr (other k distinct ▸ belonged)
      exact distinct (Option.some.inj (still.symm.trans entered))
  · rintro ⟨opened, free⟩ w port type j
    -- nobody else belongs where `i` is entered, and `i` belonged nowhere else
    have alone : ∀ k, (e.sock k).BelongsAt v (e.chosenPort v i) (e.sock i).mType → k = i := by
      intro k belongs
      have there := (ports v _ _ k).mpr belongs
      rcases free with isBound | free
      · obtain ⟨u, -, known, mine⟩ := tables.belongsAt isBound
        obtain rfl : v = u := Option.some.inj (found.symm.trans known)
        rw [← chosenPort_of_bound isBound v] at mine
        exact Option.some.inj (there.symm.trans ((ports v _ _ i).mpr mine))
      · rw [free v found] at there
        simp at there
    have nowhere : ¬ (w = v ∧ port = e.chosenPort v i ∧ type = (e.sock i).mType) →
        ¬ (e.sock i).BelongsAt w port type := by
      rintro elsewhere ⟨-, isBound, rfl, hNode, rfl⟩
      obtain ⟨u, here, known⟩ := tables.assigned i isBound
      obtain rfl : v = u := Option.some.inj (found.symm.trans known)
      apply elsewhere
      exact ⟨Option.some.inj (hNode.symm.trans here), (chosenPort_of_bound isBound v).symm, rfl⟩
    by_cases place : w = v ∧ port = e.chosenPort v i ∧ type = (e.sock i).mType
    · obtain ⟨rfl, rfl, rfl⟩ := place
      rw [entered]
      constructor
      · intro same
        obtain rfl := Option.some.inj same
        rw [self, belongsAt_boundSocket]
        exact ⟨opened, rfl, rfl, rfl⟩
      · intro belongs
        by_cases same : j = i
        · rw [same]
        · rw [other j same] at belongs
          rw [alone j belongs]
    · rw [others w port type place]
      by_cases same : j = i
      · subst same
        rw [ports, self, belongsAt_boundSocket]
        exact ⟨fun belongs => absurd belongs (nowhere place), fun there => absurd there.2 place⟩
      · rw [ports, other j same]

theorem Tables.bind {e t : Endpoints σ} {i : σ} (tables : Tables g e)
    (bound : e.bind g i = some t) (after : PortsMatch t) : Tables g t := by
  obtain ⟨v, found, sock, entered, -, known⟩ := bind_registry tables.known bound
  refine ⟨known, fun j isBound => ?_, fun j isBound => ?_⟩
  · by_cases same : j = i
    · subst same
      rw [sock, Function.update_self]
      exact ⟨v, rfl, found⟩
    · rw [sock, Function.update_of_ne same] at isBound ⊢
      exact tables.assigned j isBound
  · by_cases same : j = i
    · subst same
      exact ((after v _ _ j).mp entered).opened
    · rw [sock, Function.update_of_ne same] at isBound ⊢
      exact tables.opened j isBound

/-! ### Unbinding -/

/-- What the tables know once the socket under the address of `i` was removed. -/
theorem unbind_registry {e t : Endpoints σ} {i : σ} (unbound : e.unbind i = some t) :
    ∃ v, e.mNetworkNodes (e.sock i).mLocalAddr.address = some v ∧
      (∀ j, (t.sock j).registration = (e.sock j).registration) ∧
      t.mNetworkNodes = e.mNetworkNodes ∧
      (t.node v).getSocket (e.sock i).mLocalAddr.port (e.sock i).mType = none ∧
      ∀ w port type, ¬ (w = v ∧ port = (e.sock i).mLocalAddr.port ∧ type = (e.sock i).mType) →
        (t.node w).getSocket port type = (e.node w).getSocket port type := by
  obtain ⟨v, registered, rfl⟩ := unbind_spec unbound
  refine ⟨v, registered, view_setSock Socket.registration rfl, rfl, ?_, fun w port type other => ?_⟩
  · simp only [setSock_node, setNode, Function.update_self,
      NetworkNode.getSocket_removeSocket_self]
  · by_cases same : w = v
    · subst same
      simp only [setSock_node, setNode, Function.update_self]
      exact NetworkNode.getSocket_removeSocket_of_ne _ fun place => other ⟨rfl, place⟩
    · simp only [setSock_node, setNode, Function.update_of_ne same]

/-- The socket itself is not told, so nobody may be in its place. -/
theorem portsMatch_unbind_iff {e t : Endpoints σ} {i : σ} (ports : PortsMatch e)
    (unbound : e.unbind i = some t) :
    PortsMatch t ↔ ∀ v ∈ e.mNetworkNodes (e.sock i).mLocalAddr.address,
      (e.node v).getSocket (e.sock i).mLocalAddr.port (e.sock i).mType = none := by
  obtain ⟨v, registered, sock, -, removed, others⟩ := unbind_registry unbound
  constructor
  · intro after w hw
    obtain rfl : v = w := Option.some.inj (registered.symm.trans hw)
    refine Option.eq_none_iff_forall_ne_some.mpr fun k there => ?_
    have still := (after v _ _ k).mpr ((Socket.BelongsAt.congr (sock k)).mpr
      ((ports v _ _ k).mp there))
    rw [removed] at still
    simp at still
  · intro free w port type j
    rw [Socket.BelongsAt.congr (sock j), ← ports]
    by_cases place : w = v ∧ port = (e.sock i).mLocalAddr.port ∧ type = (e.sock i).mType
    · obtain ⟨rfl, rfl, rfl⟩ := place
      rw [removed, free w registered]
    · rw [others w port type place]

/-- `close` removes the entry of the socket and no other. -/
theorem portsMatch_release {e t : Endpoints σ} {i : σ} (tables : Tables g e)
    (ports : PortsMatch e) (released : e.release i = some t) :
    Tables g t ∧ PortsMatch t ∧ (t.sock i).mBound = false := by
  rcases release_spec released with ⟨free, rfl⟩ | ⟨u, bound, unbound, rfl⟩
  · exact ⟨tables, ports, free⟩
  · obtain ⟨v, registered, sock, nodes, removed, others⟩ := unbind_registry unbound
    obtain ⟨w, -, known, belongs⟩ := tables.belongsAt bound
    obtain rfl : v = w := Option.some.inj ((tables.known _ v registered).symm.trans known)
    refine ⟨?_, fun w port type j => ?_, by rw [setSock_self]⟩
    · exact tables_setSock (tables.congr sock nodes) rfl
    · by_cases place : w = v ∧ port = (e.sock i).mLocalAddr.port ∧ type = (e.sock i).mType
      · obtain ⟨rfl, rfl, rfl⟩ := place
        rw [setSock_node, removed]
        constructor
        · intro there
          simp at there
        · intro there
          by_cases same : j = i
          · subst same
            rw [setSock_self] at there
            exact absurd there.bound Bool.false_ne_true
          · -- two sockets would have been in one place
            rw [setSock_of_ne _ _ same, Socket.BelongsAt.congr (sock j), ← ports,
              (ports w _ _ i).mpr belongs] at there
            exact absurd (Option.some.inj there).symm same
      · rw [setSock_node, others w port type place, ports]
        by_cases same : j = i
        · subst same
          rw [setSock_self]
          constructor
          · rintro ⟨-, -, rfl, hNode, rfl⟩
            exact absurd ⟨Option.some.inj (hNode.symm.trans belongs.node), rfl, rfl⟩ place
          · intro there
            exact absurd there.bound Bool.false_ne_true
        · rw [setSock_of_ne _ _ same, Socket.BelongsAt.congr (sock j)]

theorem portsMatch_close {e t : Endpoints σ} {i : σ} (tables : Tables g e)
    (ports : PortsMatch e) (done : e.close i = some t) : Tables g t ∧ PortsMatch t := by
  obtain ⟨h, r, hangs, released, rfl⟩ := close_spec done
  have same : SameRegistry e h := by
    rcases hangUp_spec hangs with ⟨-, rfl⟩ | ⟨peer, -, -, rfl⟩
    · exact .refl _
    · have forgets : ∀ (u : Endpoints σ) (k : σ), SameRegistry u (u.disconnect k) :=
        fun u k => .setSock rfl
      exact (forgets e peer).trans (forgets _ i)
  obtain ⟨tables, ports, unbound⟩ := portsMatch_release (tables.congr same.sock same.nodes)
    (same.portsMatch_iff.mpr ports) released
  exact ⟨tables_setSock tables unbound, portsMatch_setSock ports unbound unbound⟩

/-! ### Connections -/

theorem sameRegistry_connectTo {e t : Endpoints σ} {i : σ} {asked : Option σ}
    (done : e.connectTo i = some (t, asked)) : SameRegistry e t := by
  rcases connectTo_spec done with ⟨l, -, -, rfl⟩ | ⟨-, -, rfl⟩
  · exact .setSock rfl
  · exact .refl t

theorem sameRegistry_findRoute {e t : Endpoints σ} {src dest : σ}
    (done : e.findRoute g src dest = some t) : SameRegistry e t := by
  obtain ⟨path, -, rfl⟩ := findRoute_spec done
  have first : SameRegistry e (e.setSock src { e.sock src with mPathToPeer := some path }) :=
    .setSock rfl
  exact first.trans (.setSock rfl)

/-- The client gets an automatic port at the node of the listening socket, which has to be
free. If it is bound already, it keeps the node and the port that it has in the tables only
if these are that node and port 0. -/
def ReadyClient (e : Endpoints σ) (g : NetworkGraph) (i clientSock : σ) : Prop :=
  if (e.sock clientSock).mBound then
    (e.sock clientSock).mNetworkNode = g.getNodeWithAddr (e.sock i).mLocalAddr.address ∧
      (e.sock clientSock).mLocalAddr.port = 0
  else ∀ v ∈ g.getNodeWithAddr (e.sock i).mLocalAddr.address,
    (e.node v).getSocket ((e.node v).getUnassignedPortNumber (e.sock clientSock).mType)
      (e.sock clientSock).mType = none

/-- What the tables have to know when a connector was taken from the queue of `i`: only the
client differs. -/
structure Prepared (e p : Endpoints σ) (i clientSock : σ) : Prop where
  client : (p.sock clientSock).registration = ((e.sock clientSock).mType, true,
    (e.sock clientSock).mBound, ⟨(e.sock i).mLocalAddr.address, 0⟩,
    (e.sock clientSock).mNetworkNode)
  same : ∀ j, j ≠ clientSock → (p.sock j).registration = (e.sock j).registration
  nodes : p.mNetworkNodes = e.mNetworkNodes
  node : p.node = e.node

theorem prepared_prepareClient (e : Endpoints σ) (i clientSock peer_ptr : σ) (rest : List σ) :
    Prepared e (e.prepareClient i clientSock peer_ptr rest) i clientSock := by
  have popped := view_setSock (e := e) (i := i) (s := { e.sock i with mConnectorQueue := rest })
    Socket.registration rfl
  refine ⟨?_, fun j other => ?_, rfl, rfl⟩
  · have client := popped clientSock
    simp only [Socket.registration, Prod.mk.injEq] at client
    simp only [prepareClient, setSock_self, Socket.registration, Socket.setConnectState, client]
  · rw [prepareClient, setSock_of_ne _ _ other]
    exact popped j

omit [DecidableEq σ] in
/-- A client that is not bound gets a port of its own at the node of the listening socket. -/
theorem Prepared.ready_iff {e p : Endpoints σ} {i clientSock : σ}
    (prepared : Prepared e p i clientSock) (free : (e.sock clientSock).mBound = false) :
    p.Ready g clientSock ↔ e.ReadyClient g i clientSock := by
  have client := prepared.client
  simp only [Socket.registration, Prod.mk.injEq] at client
  obtain ⟨hType, hOpen, hBound, hAddr, -⟩ := client
  simp [Ready, ReadyClient, chosenPort, hType, hOpen, hBound, hAddr, free, prepared.node]

/-- Nothing depends on the address of a client that is not bound. -/
theorem Prepared.tables_of_free {e p : Endpoints σ} {i clientSock : σ}
    (prepared : Prepared e p i clientSock) (free : (e.sock clientSock).mBound = false)
    (tables : Tables g e) (ports : PortsMatch e) : Tables g p ∧ PortsMatch p := by
  have client := prepared.client
  simp only [Socket.registration, Prod.mk.injEq] at client
  have unbound : (p.sock clientSock).mBound = false := client.2.2.1.trans free
  have change : SameRegistry (e.setSock clientSock (p.sock clientSock)) p := by
    refine ⟨fun j => ?_, prepared.nodes, prepared.node⟩
    by_cases self : j = clientSock
    · rw [self, setSock_self]
    · rw [setSock_of_ne _ _ self]
      exact prepared.same j self
  constructor
  · exact (tables_setSock tables unbound).congr change.sock change.nodes
  · exact change.portsMatch_iff.mpr (portsMatch_setSock ports free unbound)

/-- A client that is bound keeps its place if it is ready. -/
theorem Prepared.tables_of_bound {e p : Endpoints σ} {i clientSock : σ}
    (prepared : Prepared e p i clientSock) (bound : (e.sock clientSock).mBound = true)
    (tables : Tables g e) (ports : PortsMatch e) (ready : e.ReadyClient g i clientSock) :
    Tables g p ∧ PortsMatch p ∧ p.Ready g clientSock := by
  obtain ⟨client, same, nodes, node⟩ := prepared
  simp only [Socket.registration, Prod.mk.injEq] at client same
  obtain ⟨hType, hOpen, hBound, hAddr, hNode⟩ := client
  rw [ReadyClient, if_pos bound] at ready
  obtain ⟨atNode, atPort⟩ := ready
  obtain ⟨v, here, -, belongs⟩ := tables.belongsAt bound
  refine ⟨⟨nodes ▸ tables.known, fun j isBound => ?_, fun j isBound => ?_⟩,
    fun w port type j => ?_, hOpen, Or.inl (hBound.trans bound)⟩
  · by_cases self : j = clientSock
    · subst self
      rw [hNode, hAddr]
      exact ⟨v, here, atNode.symm.trans here⟩
    · obtain ⟨-, -, jBound, jAddr, jNode⟩ := same j self
      rw [jAddr, jNode]
      exact tables.assigned j (jBound ▸ isBound)
  · by_cases self : j = clientSock
    · rw [self, hOpen]
    · obtain ⟨-, jOpen, jBound, -⟩ := same j self
      rw [jOpen]
      exact tables.opened j (jBound ▸ isBound)
  · rw [node, ports]
    by_cases self : j = clientSock
    · subst self
      constructor
      · rintro ⟨-, -, rfl, hv, rfl⟩
        exact ⟨hOpen, hBound.trans bound, hType, hNode.trans hv, by rw [hAddr, atPort]⟩
      · rintro ⟨-, -, rfl, hv, rfl⟩
        exact ⟨belongs.opened, bound, hType.symm, hNode.symm.trans hv, by rw [hAddr, atPort]⟩
    · have equal : (p.sock j).registration = (e.sock j).registration := by
        simpa only [Socket.registration, Prod.mk.injEq] using same j self
      rw [Socket.BelongsAt.congr equal]

/-- A client that was bound elsewhere still stands there when it is bound again. -/
theorem Prepared.readyClient {e p b : Endpoints σ} {i clientSock : σ}
    (prepared : Prepared e p i clientSock) (bound : (e.sock clientSock).mBound = true)
    (tables : Tables g e) (ports : PortsMatch e) (binds : p.bind g clientSock = some b)
    (after : PortsMatch b) : e.ReadyClient g i clientSock := by
  obtain ⟨client, -, nodes, node⟩ := prepared
  simp only [Socket.registration, Prod.mk.injEq] at client
  obtain ⟨hType, -, hBound, hAddr, -⟩ := client
  obtain ⟨v, found, sock, -, others, -⟩ := bind_registry (nodes ▸ tables.known) binds
  obtain ⟨u, here, -, belongs⟩ := tables.belongsAt bound
  have port := chosenPort_of_bound (hBound.trans bound) v
  rw [hAddr] at found port
  rw [port, hType] at others
  rw [ReadyClient, if_pos bound, here, found]
  by_contra elsewhere
  have entry := others u (e.sock clientSock).mLocalAddr.port (e.sock clientSock).mType
    fun place => elsewhere ⟨congrArg some place.1, place.2.1⟩
  rw [node, (ports u _ _ clientSock).mpr belongs] at entry
  have still := (after u _ _ clientSock).mp entry
  rw [sock, Function.update_self, belongsAt_boundSocket, port] at still
  exact elsewhere ⟨congrArg some still.2.1, still.2.2.1⟩

/-- After the client was bound the tables are right just when it was ready. -/
theorem portsMatch_client_iff {e p b : Endpoints σ} {i clientSock : σ}
    (prepared : Prepared e p i clientSock) (tables : Tables g e) (ports : PortsMatch e)
    (binds : p.bind g clientSock = some b) :
    (PortsMatch b ↔ e.ReadyClient g i clientSock) ∧ (PortsMatch b → Tables g b) := by
  cases bound : (e.sock clientSock).mBound with
  | false =>
    obtain ⟨tables, ports⟩ := prepared.tables_of_free bound tables ports
    rw [← prepared.ready_iff bound]
    exact ⟨portsMatch_bind_iff tables ports binds, tables.bind binds⟩
  | true =>
    have necessary := prepared.readyClient bound tables ports binds
    constructor
    · refine ⟨necessary, fun ready => ?_⟩
      obtain ⟨tables, ports, ready⟩ := prepared.tables_of_bound bound tables ports ready
      exact (portsMatch_bind_iff tables ports binds).mpr ready
    · intro after
      obtain ⟨tables, -, -⟩ := prepared.tables_of_bound bound tables ports (necessary after)
      exact tables.bind binds after

theorem portsMatch_accept_iff {e t : Endpoints σ} {i clientSock : σ} {completed : Option σ}
    (tables : Tables g e) (ports : PortsMatch e)
    (done : e.accept g i clientSock = some (t, completed)) :
    (PortsMatch t ↔ ((e.sock i).mConnectorQueue = [] ∨ e.ReadyClient g i clientSock)) ∧
      (PortsMatch t → Tables g t) := by
  rcases accept_spec done with ⟨empty, -, rfl⟩ | ⟨peer, rest, b, f, queue, -, binds, routes, rfl⟩
  · exact ⟨⟨fun _ => Or.inl empty, fun _ => ports⟩, fun _ => tables⟩
  · have same : SameRegistry b (f.completeConnection peer clientSock) :=
      (sameRegistry_findRoute routes).trans (.setSock rfl)
    obtain ⟨clientIff, after⟩ := portsMatch_client_iff
      (prepared_prepareClient e i clientSock peer rest) tables ports binds
    rw [same.portsMatch_iff, clientIff, queue]
    constructor
    · simp
    · intro ready
      exact (after (clientIff.mpr ready)).congr same.sock same.nodes

end Endpoints

/-! ### Runs -/

namespace Simulator

open Endpoints

variable [DecidableEq σ]

/-- Sockets are bound while they are open, to ports that no other socket of the node has,
and a socket that is unbound without being closed was not in the tables. -/
def Registrable (s : Simulator σ g) : Op σ → Prop
  | .bind i | .connect i | .sendto i _ _ => s.ends.Ready g i
  | .unbind i => ∀ v ∈ s.ends.mNetworkNodes (s.ends.sock i).mLocalAddr.address,
      (s.ends.node v).getSocket (s.ends.sock i).mLocalAddr.port (s.ends.sock i).mType = none
  | .accept i clientSock =>
      (s.ends.sock i).mConnectorQueue = [] ∨ s.ends.ReadyClient g i clientSock
  | _ => True

instance (e : Endpoints σ) (i : σ) : Decidable (e.Ready g i) :=
  inferInstanceAs (Decidable (_ ∧ (_ ∨ ∀ v ∈ g.getNodeWithAddr (e.sock i).mLocalAddr.address,
    (e.node v).getSocket (e.chosenPort v i) (e.sock i).mType = none)))

instance (e : Endpoints σ) (i clientSock : σ) : Decidable (e.ReadyClient g i clientSock) :=
  inferInstanceAs (Decidable (if (e.sock clientSock).mBound = true then
    _ = g.getNodeWithAddr (e.sock i).mLocalAddr.address ∧ _ = 0
    else ∀ v ∈ g.getNodeWithAddr (e.sock i).mLocalAddr.address, (e.node v).getSocket
      ((e.node v).getUnassignedPortNumber (e.sock clientSock).mType)
        (e.sock clientSock).mType = none))

instance (s : Simulator σ g) : ∀ op : Op σ, Decidable (Registrable s op)
  | .bind i | .connect i | .sendto i _ _ => inferInstanceAs (Decidable (s.ends.Ready g i))
  | .unbind i => inferInstanceAs (Decidable (∀ v ∈ s.ends.mNetworkNodes
      (s.ends.sock i).mLocalAddr.address, (s.ends.node v).getSocket
        (s.ends.sock i).mLocalAddr.port (s.ends.sock i).mType = none))
  | .accept i clientSock => inferInstanceAs (Decidable (_ ∨ s.ends.ReadyClient g i clientSock))
  | .open_ _ | .setLocalAddr _ _ | .setRemoteAddr _ _ | .listen _ | .close _ | .write _ _
  | .read _ _ | .processNextEvent | .processEvents _ => isTrue trivial

omit [DecidableEq σ] in
theorem tables_start (type : σ → SocketType) (blocking : σ → Bool) :
    Tables g (start type blocking : Simulator σ g).ends where
  known := fun ip v here => by simp [start, Endpoints.start] at here
  assigned := fun i bound => by simp [start, Endpoints.start, Socket.new] at bound
  opened := fun i bound => by simp [start, Endpoints.start, Socket.new] at bound

omit [DecidableEq σ] in
theorem portsMatch_start (type : σ → SocketType) (blocking : σ → Bool) :
    PortsMatch (start type blocking : Simulator σ g).ends := by
  intro v port type' i
  constructor
  · intro here
    simp [start, Endpoints.start, NetworkNode.getSocket] at here
  · intro belongs
    exact absurd belongs.bound Bool.false_ne_true

/-- A socket that is bound before it does something else. -/
theorem portsMatch_bound_iff {e b : Endpoints σ} {i : σ} (tables : Tables g e)
    (ports : PortsMatch e)
    (binds : (e.sock i).mBound = true ∧ b = e ∨ (e.sock i).mBound = false ∧ e.bind g i = some b) :
    (PortsMatch b ↔ e.Ready g i) ∧ (PortsMatch b → Tables g b) := by
  rcases binds with ⟨bound, rfl⟩ | ⟨-, binds⟩
  · exact ⟨⟨fun _ => ⟨tables.opened i bound, Or.inl bound⟩, fun _ => ports⟩, fun _ => tables⟩
  · exact ⟨portsMatch_bind_iff tables ports binds, tables.bind binds⟩

/-- A step keeps the tables right just when it is registrable. -/
theorem ports_step_iff {s t : Simulator σ g} (tables : Tables g s.ends)
    (ports : PortsMatch s.ends) (op : Op σ) (stepped : s.step op = some t) :
    (PortsMatch t.ends ↔ Registrable s op) ∧ (PortsMatch t.ends → Tables g t.ends) := by
  have unchanged : t.ends = s.ends →
      (PortsMatch t.ends ↔ True) ∧ (PortsMatch t.ends → Tables g t.ends) := by
    intro same
    rw [same]
    exact ⟨iff_true_intro ports, fun _ => tables⟩
  have alike : SameRegistry s.ends t.ends →
      (PortsMatch t.ends ↔ True) ∧ (PortsMatch t.ends → Tables g t.ends) := fun same =>
    ⟨iff_true_intro (same.portsMatch_iff.mpr ports), fun _ => tables.congr same.sock same.nodes⟩
  -- only binding, connecting, accepting, unbinding and closing change what is registered
  cases op with
  | open_ i =>
    obtain rfl := Option.some.inj stepped
    cases bound : (s.ends.sock i).mBound with
    | true =>
      refine alike (.setSock ?_)
      simp only [Socket.registration, tables.opened i bound]
    | false =>
      constructor
      · exact iff_true_intro (portsMatch_setSock ports bound bound)
      · exact fun _ => tables_setSock tables bound
  | setLocalAddr i addr =>
    obtain rfl := Option.some.inj stepped
    simp only [setLocalAddr]
    split
    next => exact ⟨iff_true_intro ports, fun _ => tables⟩
    next free =>
      have unbound := Bool.eq_false_iff.mpr free
      constructor
      · exact iff_true_intro (portsMatch_setSock ports unbound unbound)
      · exact fun _ => tables_setSock tables unbound
  | setRemoteAddr i addr =>
    obtain rfl := Option.some.inj stepped
    refine alike ?_
    simp only [setRemoteAddr]
    split
    · exact .refl _
    · exact .setSock rfl
  | bind i =>
    obtain ⟨ends, bound, rfl⟩ := Option.map_eq_some_iff.mp stepped
    exact ⟨portsMatch_bind_iff tables ports bound, tables.bind bound⟩
  | unbind i =>
    obtain ⟨ends, unbound, rfl⟩ := Option.map_eq_some_iff.mp stepped
    obtain ⟨v, -, sock, nodes, -⟩ := unbind_registry unbound
    exact ⟨portsMatch_unbind_iff ports unbound, fun _ => tables.congr sock nodes⟩
  | listen i =>
    obtain ⟨ends, listens, rfl⟩ := Option.map_eq_some_iff.mp stepped
    refine alike ?_
    unfold Endpoints.listen at listens
    split at listens
    next =>
      obtain rfl := Option.some.inj listens
      exact ⟨view_setSock Socket.registration rfl, rfl, rfl⟩
    next => simp at listens
  | connect i =>
    obtain ⟨⟨ends, asked⟩, done, rfl⟩ := Option.map_eq_some_iff.mp stepped
    -- a socket that connects is bound first
    obtain ⟨b, binds, done⟩ := connect_spec done
    obtain ⟨boundIff, after⟩ := portsMatch_bound_iff tables ports binds
    have same := sameRegistry_connectTo done
    rw [same.portsMatch_iff]
    exact ⟨boundIff, fun ports => (after ports).congr same.sock same.nodes⟩
  | accept i clientSock =>
    obtain ⟨⟨ends, completed⟩, done, rfl⟩ := Option.map_eq_some_iff.mp stepped
    exact portsMatch_accept_iff tables ports done
  | close i =>
    obtain ⟨path, -, done, -⟩ := simClose_spec stepped
    obtain ⟨tables, ports⟩ := portsMatch_close tables ports done
    exact ⟨iff_true_intro ports, fun _ => tables⟩
  | write i buffer => exact unchanged (write_ends stepped)
  | sendto i msg dest => exact portsMatch_bound_iff tables ports (sendto_ends stepped).1
  | read i length =>
    obtain rfl := Option.some.inj stepped
    exact unchanged rfl
  | processNextEvent | processEvents time_step =>
    obtain ⟨wire, -, rfl⟩ := Option.map_eq_some_iff.mp stepped
    exact unchanged rfl

/-- The explicit port of the socket is taken by another one at that node. -/
def Taken (s : Simulator σ g) (i : σ) : Prop :=
  ∃ v k, g.getNodeWithAddr (s.ends.sock i).mLocalAddr.address = some v ∧
    (s.ends.sock i).mLocalAddr.port ≠ 0 ∧ k ≠ i ∧
    (s.ends.node v).getSocket (s.ends.sock i).mLocalAddr.port (s.ends.sock i).mType = some k

omit [DecidableEq σ] in
/-- A socket may not be bound to a port that is taken. -/
theorem not_ready_of_taken {s : Simulator σ g} (tables : Tables g s.ends)
    (ports : PortsMatch s.ends) {i : σ} (taken : s.Taken i) : ¬ s.ends.Ready g i := by
  obtain ⟨v, k, found, explicit, other, there⟩ := taken
  rintro ⟨-, bound | free⟩
  · -- then the port would be its own
    obtain ⟨u, -, known, belongs⟩ := tables.belongsAt bound
    obtain rfl : v = u := Option.some.inj (found.symm.trans known)
    rw [(ports v _ _ i).mpr belongs] at there
    exact other (Option.some.inj there).symm
  · have port : s.ends.chosenPort v i = (s.ends.sock i).mLocalAddr.port := by
      simp [chosenPort, explicit]
    have nobody := free v found
    rw [port, there] at nobody
    simp at nobody

/-- The port tables are right in all states of a run, and each `bind` to an explicit port
that is taken leaves everything as it was, just when its steps are registrable. -/
theorem ports_match_iff {type : σ → SocketType} {blocking : σ → Bool} {ops : List (Op σ)}
    {t : Simulator σ g} (reached : run step (start type blocking) ops = some t) :
    (∀ front u, front <+: ops → run step (start (g := g) type blocking) front = some u →
        PortsMatch u.ends ∧ ∀ i v, front ++ [.bind i] <+: ops → u.step (.bind i) = some v →
          u.Taken i → v = u) ↔
      Meets step Registrable (start (g := g) type blocking) ops := by
  have always := run_always_iff_meets (fun s : Simulator σ g => Tables g s.ends)
    (fun s => PortsMatch s.ends) Registrable
    (fun s op t tables ports stepped => ports_step_iff tables ports op stepped)
    (tables_start type blocking) (portsMatch_start type blocking) reached
  constructor
  · intro right
    exact always.mp fun front u part here => (right front u part here).1
  · intro meets front u part here
    have ports := always.mpr meets
    refine ⟨ports front u part here, fun i v more stepped taken => ?_⟩
    -- a registrable `bind` is never to a port that is taken
    have ready : Registrable u (.bind i) := allowed_of_meets meets more here stepped
    have kept : Tables g u.ends ∧ PortsMatch u.ends := by
      refine run_invariant_of_meets (fun s : Simulator σ g => Tables g s.ends ∧ PortsMatch s.ends)
        Registrable ?_ ⟨tables_start type blocking, portsMatch_start type blocking⟩
        (meets_of_front meets part) here
      intro s op t kept ok stepped
      obtain ⟨allowed, after⟩ := ports_step_iff kept.1 kept.2 op stepped
      exact ⟨after (allowed.mpr ok), allowed.mpr ok⟩
    exact absurd ready (not_ready_of_taken kept.1 kept.2 taken)

/-- The sockets of a connection, each under its port. -/
theorem ports_match_accept : ∃ t : Simulator (Fin 3) .twoNodes,
    run step (startStreams 3) oneConnection = some t ∧ PortsMatch t.ends ∧
      (t.ends.node 0).getSocket 80 .stream = some 0 ∧
      (t.ends.node 0).getSocket 81 .stream = some 2 := by
  obtain ⟨t, reached, values⟩ := Option.map_eq_some_iff.mp (show
    (run step (startStreams 3) oneConnection).map (fun t =>
      ((t.ends.node 0).getSocket 80 .stream, (t.ends.node 0).getSocket 81 .stream)) =
      some (some 0, some 2) by decide +kernel)
  have always := (ports_match_iff reached).mpr (by decide +kernel)
  exact ⟨t, reached, (always _ t (List.prefix_refl _) reached).1, Prod.mk.inj values⟩

/-- Two sockets that are bound to one port of one node. -/
def bindTwice (i j : σ) : List (Op σ) :=
  [.setLocalAddr i ⟨1, 80⟩, .open_ i, .bind i, .setLocalAddr j ⟨1, 80⟩, .open_ j, .bind j]

/-- Both are open and bound, and the second one has taken the place of the first. -/
theorem ports_mismatch_bind_twice : ∃ t : Simulator (Fin 2) .twoNodes,
    run step (startStreams 2) (bindTwice 0 1) = some t ∧
      (∀ i, (t.ends.sock i).mOpen = true ∧ (t.ends.sock i).mBound = true) ∧
      (t.ends.node 0).getSocket 80 .stream = some 1 ∧ ¬ PortsMatch t.ends := by
  obtain ⟨t, reached, values⟩ := Option.map_eq_some_iff.mp (show
    (run step (startStreams 2) (bindTwice 0 1)).map (fun t =>
      ((t.ends.node 0).getSocket 80 .stream, (t.ends.sock 0).mType,
        (t.ends.sock 0).mNetworkNode, (t.ends.sock 0).mLocalAddr,
        decide (∀ i, (t.ends.sock i).mOpen = true ∧ (t.ends.sock i).mBound = true))) =
      some (some 1, .stream, some 0, ⟨1, 80⟩, true) by decide +kernel)
  simp only [Prod.mk.injEq, decide_eq_true_eq] at values
  obtain ⟨entered, hType, hNode, hAddr, both⟩ := values
  refine ⟨t, reached, both, entered, fun ports => ?_⟩
  have first := (ports 0 80 .stream 0).mpr
    ⟨(both 0).1, (both 0).2, hType, hNode, by rw [hAddr]⟩
  rw [entered] at first
  simp at first

end Simulator

end VRJuggler.Sim
