import VRJuggler.Sim.Simulator

/-!
# What the operations on sockets do

One specification for each operation on sockets, and what it leaves alone. Proofs
about runs use these and do not look into the operations.
-/
namespace VRJuggler.Sim

variable {σ : Type} [DecidableEq σ] {g : NetworkGraph}

namespace Endpoints

@[simp] theorem setSock_self (e : Endpoints σ) (i : σ) (s : Socket σ) :
    (e.setSock i s).sock i = s := Function.update_self _ _ _
theorem setSock_of_ne (e : Endpoints σ) {i j : σ} (s : Socket σ) (other : j ≠ i) :
    (e.setSock i s).sock j = e.sock j := Function.update_of_ne other _ _
@[simp] theorem setSock_mListenerList (e : Endpoints σ) (i : σ) (s : Socket σ) :
    (e.setSock i s).mListenerList = e.mListenerList := rfl
@[simp] theorem setSock_mNetworkNodes (e : Endpoints σ) (i : σ) (s : Socket σ) :
    (e.setSock i s).mNetworkNodes = e.mNetworkNodes := rfl
@[simp] theorem setSock_node (e : Endpoints σ) (i : σ) (s : Socket σ) :
    (e.setSock i s).node = e.node := rfl

/-- A property of all sockets survives a change of one of them to a socket that has it. -/
theorem forall_setSock {P : σ → Socket σ → Prop} {e : Endpoints σ} {i : σ} {s : Socket σ}
    (all : ∀ j, P j (e.sock j)) (changed : P i s) (j : σ) : P j ((e.setSock i s).sock j) := by
  by_cases same : j = i
  · subst same
    rwa [setSock_self]
  · rw [setSock_of_ne e s same]
    exact all j

/-- A change of one socket that does not show in a view of it shows nowhere. -/
theorem view_setSock {α : Type} (view : Socket σ → α) {e : Endpoints σ} {i : σ} {s : Socket σ}
    (same : view s = view (e.sock i)) (j : σ) : view ((e.setSock i s).sock j) = view (e.sock j) :=
  forall_setSock (P := fun j s => view s = view (e.sock j)) (fun _ => rfl) same j

/-! ### Binding -/

/-- The socket after a successful `bind` to the node `v`. -/
def boundSocket (e : Endpoints σ) (v node_vertex : Vertex) (i : σ) : Socket σ :=
  let s := e.sock i
  { s with
    mLocalAddr := ⟨s.mLocalAddr.address, e.chosenPort v i⟩
    mNetworkNode := some node_vertex
    mBound := true }

/-- The wildcard address already is the one of the local host. -/
theorem localAddr_of_anyAddr (addr : InetAddr) :
    (if addr = .AnyAddr then (⟨LocalHostIpAddrValue, 0⟩ : InetAddr) else addr) = addr := by
  split
  next any => exact any.symm
  next => rfl

omit [DecidableEq σ] in
theorem ensureNetworkNodeIsRegistered_spec {e t : Endpoints σ} {ip : Nat}
    (registered : e.ensureNetworkNodeIsRegistered g ip = some t) :
    ∃ v, (e.mNetworkNodes ip = some v ∨
        e.mNetworkNodes ip = none ∧ g.getNodeWithAddr ip = some v) ∧
      t = { e with mNetworkNodes := Function.update e.mNetworkNodes ip (some v) } := by
  unfold ensureNetworkNodeIsRegistered at registered
  split at registered
  next v known =>
    obtain rfl := Option.some.inj registered
    exact ⟨v, Or.inl known, by rw [← known, Function.update_eq_self]⟩
  next unknown =>
    split at registered
    next v found =>
      obtain rfl := Option.some.inj registered
      exact ⟨v, Or.inr ⟨unknown, found⟩, rfl⟩
    next => simp at registered

theorem setLocalAddr_eq (e : Endpoints σ) (i : σ) (addr : InetAddr) :
    e.setLocalAddr i addr = e.setSock i { e.sock i with
      mLocalAddr := if (e.sock i).mBound then (e.sock i).mLocalAddr else addr } := by
  unfold setLocalAddr
  split
  · simp [setSock]
  · rfl

/-- What `bind` does: the node of the address is registered, the socket is entered in its
table under the chosen port, and gets the address and the node. -/
theorem bind_spec {e t : Endpoints σ} {i : σ} (bound : e.bind g i = some t) :
    ∃ v node_vertex, g.getNodeWithAddr (e.sock i).mLocalAddr.address = some node_vertex ∧
      (e.mNetworkNodes (e.sock i).mLocalAddr.address = some v ∨
        e.mNetworkNodes (e.sock i).mLocalAddr.address = none ∧ v = node_vertex) ∧
      t = { sock := Function.update e.sock i (e.boundSocket v node_vertex i)
            mListenerList := e.mListenerList
            mNetworkNodes :=
              Function.update e.mNetworkNodes (e.sock i).mLocalAddr.address (some v)
            node := Function.update e.node v
              ((e.node v).addSocket (e.chosenPort v i) (e.sock i).mType i) } := by
  obtain ⟨e', assigned, rfl⟩ := Option.map_eq_some_iff.mp bound
  simp only [assignToNode, localAddr_of_anyAddr] at assigned
  obtain ⟨e1, registered, assigned⟩ := Option.bind_eq_some_iff.mp assigned
  obtain ⟨v, known, rfl⟩ := ensureNetworkNodeIsRegistered_spec registered
  obtain ⟨v', here, assigned⟩ := Option.bind_eq_some_iff.mp assigned
  obtain rfl : v = v' := by simpa using here
  obtain ⟨node_vertex, found, rfl⟩ := Option.map_eq_some_iff.mp assigned
  refine ⟨v, node_vertex, found, ?_, ?_⟩
  · rcases known with known | ⟨unknown, same⟩
    · exact Or.inl known
    · exact Or.inr ⟨unknown, Option.some.inj (same.symm.trans found)⟩
  · have addr : (if (e.sock i).mBound then (e.sock i).mLocalAddr else
        ⟨(e.sock i).mLocalAddr.address,
          if (e.sock i).mLocalAddr.port = 0
          then (e.node v).getUnassignedPortNumber (e.sock i).mType
          else (e.sock i).mLocalAddr.port⟩) =
        (⟨(e.sock i).mLocalAddr.address, e.chosenPort v i⟩ : InetAddr) := by
      simp only [chosenPort]
      split <;> rfl
    simp only [setLocalAddr_eq, setSock, setNode, Function.update_self, addr,
      Function.update_idem, boundSocket]

/-! ### Connections -/

theorem connectTo_spec {e t : Endpoints σ} {i : σ} {asked : Option σ}
    (done : e.connectTo i = some (t, asked)) :
    (∃ l, e.mListenerList (e.sock i).mRemoteAddr = some l ∧ asked = some l ∧
      t = e.setSock l { e.sock l with mConnectorQueue := (e.sock l).mConnectorQueue ++ [i] }) ∨
    (e.mListenerList (e.sock i).mRemoteAddr = none ∧ asked = none ∧ t = e) := by
  unfold connectTo at done
  split at done
  · split at done
    next l listens =>
      obtain ⟨rfl, rfl⟩ := Prod.mk.inj (Option.some.inj done)
      exact Or.inl ⟨l, listens, rfl, rfl⟩
    next nobody =>
      obtain ⟨rfl, rfl⟩ := Prod.mk.inj (Option.some.inj done)
      exact Or.inr ⟨nobody, rfl, rfl⟩
  · simp at done

/-- A socket that is not bound is bound before it connects. -/
theorem connect_spec {e t : Endpoints σ} {i : σ} {asked : Option σ}
    (done : e.connect g i = some (t, asked)) :
    ∃ b, ((e.sock i).mBound = true ∧ b = e ∨
        (e.sock i).mBound = false ∧ e.bind g i = some b) ∧
      b.connectTo i = some (t, asked) := by
  unfold connect at done
  split at done
  next bound => exact ⟨e, Or.inl ⟨bound, rfl⟩, done⟩
  next unbound =>
    obtain ⟨b, binds, done⟩ := Option.bind_eq_some_iff.mp done
    exact ⟨b, Or.inr ⟨Bool.not_eq_true _ ▸ unbound, binds⟩, done⟩

/-- The listener that is asked was found under the remote address of the socket. -/
theorem asked_connect {e t : Endpoints σ} {i : σ} {asked : Option σ}
    (done : e.connect g i = some (t, asked)) :
    e.mListenerList (e.sock i).mRemoteAddr = asked := by
  obtain ⟨b, binds, done⟩ := connect_spec done
  have found : b.mListenerList (b.sock i).mRemoteAddr = asked := by
    rcases connectTo_spec done with ⟨l, found, rfl, -⟩ | ⟨found, rfl, -⟩
    · exact found
    · exact found
  rcases binds with ⟨-, rfl⟩ | ⟨-, binds⟩
  · exact found
  · obtain ⟨v, node_vertex, -, -, rfl⟩ := bind_spec binds
    simpa [boundSocket] using found

theorem findRoute_spec {e t : Endpoints σ} {src dest : σ}
    (done : e.findRoute g src dest = some t) :
    ∃ path, g.IsPath path ∧
      t = (e.setSock src { e.sock src with mPathToPeer := some path }).setSock dest
        { (e.setSock src { e.sock src with mPathToPeer := some path }).sock dest with
          mPathToPeer := some (NetworkGraph.reversePath path) } := by
  obtain ⟨u, -, done⟩ := Option.bind_eq_some_iff.mp done
  obtain ⟨v, -, rfl⟩ := Option.map_eq_some_iff.mp done
  exact ⟨_, NetworkGraph.isPath_getShortestPath u v, rfl⟩

theorem accept_spec {e t : Endpoints σ} {i clientSock : σ} {completed : Option σ}
    (done : e.accept g i clientSock = some (t, completed)) :
    ((e.sock i).mConnectorQueue = [] ∧ completed = none ∧ t = e) ∨
    ∃ peer rest b f, (e.sock i).mConnectorQueue = peer :: rest ∧ completed = some peer ∧
      (e.prepareClient i clientSock peer rest).bind g clientSock = some b ∧
      b.findRoute g peer clientSock = some f ∧ t = f.completeConnection peer clientSock := by
  unfold accept at done
  split at done
  · split at done
    next empty =>
      obtain ⟨rfl, rfl⟩ := Prod.mk.inj (Option.some.inj done)
      exact Or.inl ⟨empty, rfl, rfl⟩
    next peer rest waiting =>
      obtain ⟨b, binds, done⟩ := Option.bind_eq_some_iff.mp done
      obtain ⟨f, routes, done⟩ := Option.map_eq_some_iff.mp done
      obtain ⟨rfl, rfl⟩ := Prod.mk.inj done
      exact Or.inr ⟨peer, rest, b, f, waiting, rfl, binds, routes, rfl⟩
  · simp at done

/-- The connection of the socket that waits first is completed. -/
theorem completed_accept {e t : Endpoints σ} {i clientSock : σ} {completed : Option σ}
    (done : e.accept g i clientSock = some (t, completed)) :
    (e.sock i).mConnectorQueue.head? = completed := by
  rcases accept_spec done with ⟨empty, rfl, -⟩ | ⟨peer, rest, b, f, waiting, rfl, -⟩
  · rw [empty]
    rfl
  · rw [waiting]
    rfl

theorem hangUp_spec {e t : Endpoints σ} {i : σ} (done : e.hangUp i = some t) :
    ((e.sock i).mConnected = false ∧ t = e) ∨
    ∃ peer, (e.sock i).mConnected = true ∧ (e.sock i).mPeer = some peer ∧
      t = (e.disconnect peer).disconnect i := by
  unfold hangUp at done
  split at done
  next connected =>
    obtain ⟨peer, isPeer, rfl⟩ := Option.map_eq_some_iff.mp done
    exact Or.inr ⟨peer, connected, isPeer, rfl⟩
  next alone =>
    obtain rfl := Option.some.inj done
    exact Or.inl ⟨Bool.not_eq_true _ ▸ alone, rfl⟩

theorem unbind_spec {e t : Endpoints σ} {i : σ} (done : e.unbind i = some t) :
    ∃ v, e.mNetworkNodes (e.sock i).mLocalAddr.address = some v ∧
      t = (e.setNode v ((e.node v).removeSocket (e.sock i).mLocalAddr.port
        (e.sock i).mType)).setSock i { e.sock i with calledListen := false } := by
  obtain ⟨v, registered, rfl⟩ := Option.map_eq_some_iff.mp done
  exact ⟨v, registered, rfl⟩

theorem release_spec {e t : Endpoints σ} {i : σ} (done : e.release i = some t) :
    ((e.sock i).mBound = false ∧ t = e) ∨
    ∃ u, (e.sock i).mBound = true ∧ e.unbind i = some u ∧
      t = u.setSock i { u.sock i with mBound := false } := by
  unfold release at done
  split at done
  next bound =>
    obtain ⟨u, unbound, rfl⟩ := Option.map_eq_some_iff.mp done
    exact Or.inr ⟨u, bound, unbound, rfl⟩
  next free =>
    obtain rfl := Option.some.inj done
    exact Or.inl ⟨Bool.not_eq_true _ ▸ free, rfl⟩

theorem close_spec {e t : Endpoints σ} {i : σ} (done : e.close i = some t) :
    ∃ h r, e.hangUp i = some h ∧ h.release i = some r ∧
      t = r.setSock i { r.sock i with mOpen := false, calledListen := false } := by
  obtain ⟨h, hangs, done⟩ := Option.bind_eq_some_iff.mp done
  obtain ⟨r, released, rfl⟩ := Option.map_eq_some_iff.mp done
  exact ⟨h, r, hangs, released, rfl⟩

end Endpoints

end VRJuggler.Sim
