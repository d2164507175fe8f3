import VRJuggler.Sim.EndpointLemmas
import VRJuggler.Sim.Moves

/-!
# Steps of the simulator as moves of the wire

The paths that the sockets hold are paths of the graph, and so every step of the
simulator is a sequence of moves on the wire.
-/
namespace VRJuggler.Sim

variable {σ : Type} [DecidableEq σ] {g : NetworkGraph}

/-! ### Paths of the sockets -/

namespace Endpoints

/-- The paths of all sockets lead over lines of the graph. -/
def Routed (g : NetworkGraph) (e : Endpoints σ) : Prop :=
  ∀ i path, (e.sock i).mPathToPeer = some path → g.IsPath path

/-- A socket that is given a path of the graph. -/
theorem Routed.setPath {e : Endpoints σ} (routed : e.Routed g) (i : σ) {s : Socket σ}
    (isPath : ∀ path, s.mPathToPeer = some path → g.IsPath path) : (e.setSock i s).Routed g :=
  forall_setSock (P := fun _ s => ∀ path, s.mPathToPeer = some path → g.IsPath path) routed isPath

theorem Routed.setSock {e : Endpoints σ} (routed : e.Routed g) (i : σ) {s : Socket σ}
    (same : s.mPathToPeer = (e.sock i).mPathToPeer) : (e.setSock i s).Routed g :=
  routed.setPath i fun path here => routed i path (same ▸ here)

omit [DecidableEq σ] in
theorem Routed.of_sock {e t : Endpoints σ} (routed : e.Routed g) (same : t.sock = e.sock) :
    t.Routed g := fun i path here => routed i path (same ▸ here)

theorem Routed.setLocalAddr {e : Endpoints σ} (routed : e.Routed g) (i : σ) (addr : InetAddr) :
    (e.setLocalAddr i addr).Routed g := by
  rw [setLocalAddr_eq]
  exact routed.setSock i rfl

theorem Routed.bind {e t : Endpoints σ} (routed : e.Routed g) {i : σ}
    (bound : e.bind g i = some t) : t.Routed g := by
  obtain ⟨v, node_vertex, -, -, rfl⟩ := bind_spec bound
  exact (routed.setSock i (s := e.boundSocket v node_vertex i) rfl).of_sock rfl

theorem Routed.connect {e t : Endpoints σ} (routed : e.Routed g) {i : σ} {asked : Option σ}
    (done : e.connect g i = some (t, asked)) : t.Routed g := by
  obtain ⟨b, binds, done⟩ := connect_spec done
  have routed : b.Routed g := by
    rcases binds with ⟨-, rfl⟩ | ⟨-, binds⟩
    · exact routed
    · exact routed.bind binds
  rcases connectTo_spec done with ⟨l, -, -, rfl⟩ | ⟨-, -, rfl⟩
  · exact routed.setSock l rfl
  · exact routed

theorem Routed.prepareClient {e : Endpoints σ} (routed : e.Routed g) (i clientSock peer : σ)
    (rest : List σ) : (e.prepareClient i clientSock peer rest).Routed g :=
  (routed.setSock i (s := { e.sock i with mConnectorQueue := rest }) rfl).setSock clientSock rfl

theorem Routed.findRoute {e t : Endpoints σ} (routed : e.Routed g) {src dest : σ}
    (done : e.findRoute g src dest = some t) : t.Routed g := by
  obtain ⟨path, isPath, rfl⟩ := findRoute_spec done
  refine Routed.setPath (Routed.setPath routed src fun p here => ?_) dest fun p here => ?_
  · exact Option.some.inj here ▸ isPath
  · exact Option.some.inj here ▸ isPath.reverse

theorem Routed.accept {e t : Endpoints σ} (routed : e.Routed g) {i clientSock : σ}
    {completed : Option σ} (done : e.accept g i clientSock = some (t, completed)) :
    t.Routed g := by
  rcases accept_spec done with ⟨-, -, rfl⟩ | ⟨peer, rest, b, f, -, -, binds, routes, rfl⟩
  · exact routed
  · exact (((routed.prepareClient i clientSock peer rest).bind binds).findRoute routes).setSock
      peer rfl

theorem Routed.unbind {e t : Endpoints σ} (routed : e.Routed g) {i : σ}
    (unbound : e.unbind i = some t) : t.Routed g := by
  obtain ⟨v, -, rfl⟩ := unbind_spec unbound
  refine Routed.setSock ?_ i rfl
  exact routed.of_sock rfl

theorem Routed.close {e t : Endpoints σ} (routed : e.Routed g) {i : σ}
    (done : e.close i = some t) : t.Routed g := by
  obtain ⟨h, r, hangs, released, rfl⟩ := close_spec done
  have routed : h.Routed g := by
    rcases hangUp_spec hangs with ⟨-, rfl⟩ | ⟨peer, -, -, rfl⟩
    · exact routed
    · exact (routed.setSock peer (s := (e.sock peer).setConnectState none) rfl).setSock i rfl
  have routed : r.Routed g := by
    rcases release_spec released with ⟨-, rfl⟩ | ⟨u, -, unbound, rfl⟩
    · exact routed
    · exact (routed.unbind unbound).setSock i rfl
  exact routed.setSock i rfl

end Endpoints

namespace Simulator

/-! ### What a step leaves to the sockets -/

/-- Sending changes the sockets at most by binding the sender. -/
theorem sendto_ends {s t : Simulator σ g} {i : σ} {msg : List UInt8} {dest : InetAddr}
    (sent : s.sendto i msg dest = some t) :
    ((s.ends.sock i).mBound = true ∧ t.ends = s.ends ∨
        (s.ends.sock i).mBound = false ∧ s.ends.bind g i = some t.ends) ∧
      ({ s with ends := t.ends } : Simulator σ g).sendMessageTo i msg dest = some t := by
  have keeps : ∀ u : Simulator σ g, u.sendMessageTo i msg dest = some t → t.ends = u.ends := by
    intro u sent
    unfold sendMessageTo at sent
    split at sent
    next => exact congrArg Simulator.ends (Option.some.inj sent).symm
    next =>
      obtain ⟨node, -, sent⟩ := Option.bind_eq_some_iff.mp sent
      obtain ⟨wire, -, rfl⟩ := Option.map_eq_some_iff.mp sent
      rfl
  unfold sendto at sent
  split at sent
  · split at sent
    next bound =>
      have same := keeps s sent
      exact ⟨Or.inl ⟨bound, same⟩, by rwa [same]⟩
    next unbound =>
      obtain ⟨ends, binds, sent⟩ := Option.bind_eq_some_iff.mp sent
      have same := keeps _ sent
      exact ⟨Or.inr ⟨Bool.not_eq_true _ ▸ unbound, same ▸ binds⟩, by rwa [same]⟩
  · simp at sent

theorem write_ends {s t : Simulator σ g} {i : σ} {buffer : List UInt8}
    (written : s.write i buffer = some t) : t.ends = s.ends := by
  unfold write at written
  split at written
  next => exact congrArg Simulator.ends (Option.some.inj written).symm
  next =>
    obtain ⟨path, -, written⟩ := Option.bind_eq_some_iff.mp written
    obtain ⟨wire, -, rfl⟩ := Option.map_eq_some_iff.mp written
    rfl

/-- Closing a socket, on both sides. -/
theorem simClose_spec {s t : Simulator σ g} {i : σ} (closed : s.close i = some t) :
    ∃ path, flushedPath s.ends i = some path ∧ s.ends.close i = some t.ends ∧
      t.wire = s.wire.flushPath i path := by
  obtain ⟨path, flushed, closed⟩ := Option.bind_eq_some_iff.mp closed
  obtain ⟨ends, done, rfl⟩ := Option.map_eq_some_iff.mp closed
  exact ⟨path, flushed, done, rfl⟩

theorem routed_step {s t : Simulator σ g} (routed : s.ends.Routed g) (op : Op σ)
    (stepped : s.step op = some t) : t.ends.Routed g := by
  cases op with
  | open_ i =>
    obtain rfl := Option.some.inj stepped
    exact routed.setSock i rfl
  | setLocalAddr i addr =>
    obtain rfl := Option.some.inj stepped
    exact routed.setLocalAddr i addr
  | setRemoteAddr i addr =>
    obtain rfl := Option.some.inj stepped
    simp only [Endpoints.setRemoteAddr]
    split
    · exact routed
    · exact routed.setSock i rfl
  | bind i =>
    obtain ⟨ends, bound, rfl⟩ := Option.map_eq_some_iff.mp stepped
    exact routed.bind bound
  | unbind i =>
    obtain ⟨ends, unbound, rfl⟩ := Option.map_eq_some_iff.mp stepped
    exact routed.unbind unbound
  | listen i =>
    obtain ⟨ends, listens, rfl⟩ := Option.map_eq_some_iff.mp stepped
    unfold Endpoints.listen at listens
    split at listens
    next =>
      obtain rfl := Option.some.inj listens
      exact (routed.of_sock rfl).setSock i rfl
    next => simp at listens
  | connect i =>
    obtain ⟨⟨ends, asked⟩, done, rfl⟩ := Option.map_eq_some_iff.mp stepped
    exact routed.connect done
  | accept i clientSock =>
    obtain ⟨⟨ends, completed⟩, done, rfl⟩ := Option.map_eq_some_iff.mp stepped
    exact routed.accept done
  | close i =>
    obtain ⟨path, -, done, -⟩ := simClose_spec stepped
    exact routed.close done
  | write i buffer =>
    rw [write_ends stepped]
    exact routed
  | sendto i msg dest =>
    rcases (sendto_ends stepped).1 with ⟨-, same⟩ | ⟨-, bound⟩
    · rwa [same]
    · exact routed.bind bound
  | read i length =>
    obtain rfl := Option.some.inj stepped
    exact routed
  | processNextEvent =>
    obtain ⟨wire, -, rfl⟩ := Option.map_eq_some_iff.mp stepped
    exact routed
  | processEvents time_step =>
    obtain ⟨wire, -, rfl⟩ := Option.map_eq_some_iff.mp stepped
    exact routed

omit [DecidableEq σ] in
theorem routed_start (type : σ → SocketType) (blocking : σ → Bool) :
    (start type blocking : Simulator σ g).ends.Routed g := fun i path here => by
  simp [start, Endpoints.start, Socket.new] at here

/-! ### Steps are moves -/

/-- The sockets that a step sends something to: a message, or an event of its own. -/
def Targets (s t : Simulator σ g) : Op σ → σ → Prop
  | .connect i, l => s.ends.mListenerList (s.ends.sock i).mRemoteAddr = some l
  | .accept i _, p => (s.ends.sock i).mConnectorQueue.head? = some p
  | .write i _, p => (s.ends.sock i).mPeer = some p
  | .sendto _ _ dest, p => ∃ v, receiver t.ends g dest = some (v, p)
  | _, _ => False

variable {flushes : Wire σ g → σ → g.Lane → Prop}

open Wire (Move Moves)

theorem addEventNow_moves {target : σ → Prop} (w : Wire σ g) (data : Option (EventData σ g))
    (ok : ∀ d ∈ data, ∃ s, d.socket? = some s ∧ target s) :
    Moves target flushes w (addEventNow w data) := by
  cases data with
  | none => exact .refl
  | some d =>
    obtain ⟨s, about, ok⟩ := ok d rfl
    exact .single (.notify w w.mCurrentTime d s about ok)

theorem step_moves {s t : Simulator σ g} (routed : s.ends.Routed g) (op : Op σ)
    (stepped : s.step op = some t)
    (stays : ∀ (i : σ) (w : Wire σ g) (hop : Vertex × g.NetEdge) (lane : g.Lane),
      flushes w i lane → flushes (w.flushLine i hop.1 hop.2) i lane)
    (ok : ∀ i, op = .close i → ∀ path, flushedPath s.ends i = some path →
      ∀ hop ∈ g.route path, flushes s.wire i (hop.2.line, Wire.direction hop.1 hop.2)) :
    Moves (Targets s t op) flushes s.wire t.wire := by
  cases op with
  | open_ i | setLocalAddr i addr | setRemoteAddr i addr =>
    obtain rfl := Option.some.inj stepped
    exact .refl
  | bind i | unbind i | listen i =>
    obtain ⟨ends, -, rfl⟩ := Option.map_eq_some_iff.mp stepped
    exact .refl
  | connect i =>
    obtain ⟨⟨ends, asked⟩, done, rfl⟩ := Option.map_eq_some_iff.mp stepped
    apply addEventNow_moves
    intro d hd
    obtain ⟨l, rfl, rfl⟩ := Option.map_eq_some_iff.mp hd
    exact ⟨l, rfl, Endpoints.asked_connect done⟩
  | accept i clientSock =>
    obtain ⟨⟨ends, completed⟩, done, rfl⟩ := Option.map_eq_some_iff.mp stepped
    apply addEventNow_moves
    intro d hd
    obtain ⟨p, rfl, rfl⟩ := Option.map_eq_some_iff.mp hd
    exact ⟨p, rfl, Endpoints.completed_accept done⟩
  | close i =>
    obtain ⟨path, flushed, -, wire⟩ := simClose_spec stepped
    rw [wire]
    exact Wire.flushPath_moves (stays i) (ok i rfl path flushed)
  | write i buffer =>
    simp only [step, write] at stepped
    split at stepped
    next =>
      obtain rfl := Option.some.inj stepped
      exact .refl
    next peer isPeer =>
      obtain ⟨path, set, stepped⟩ := Option.bind_eq_some_iff.mp stepped
      obtain ⟨wire, posted, rfl⟩ := Option.map_eq_some_iff.mp stepped
      exact .single (Wire.post_move (routed i path set) isPeer posted)
  | sendto i msg dest =>
    have sent := (sendto_ends stepped).2
    unfold sendMessageTo at sent
    split at sent
    next =>
      rw [← congrArg Simulator.wire (Option.some.inj sent)]
    next v peer found =>
      obtain ⟨node, -, sent⟩ := Option.bind_eq_some_iff.mp sent
      obtain ⟨wire, posted, same⟩ := Option.map_eq_some_iff.mp sent
      rw [← same]
      refine .single (Wire.post_move (NetworkGraph.isPath_getShortestPath node v) ?_ posted)
      exact ⟨v, same ▸ found⟩
  | read i length =>
    obtain rfl := Option.some.inj stepped
    exact Wire.read_moves s.wire i length
  | processNextEvent =>
    obtain ⟨wire, processed, rfl⟩ := Option.map_eq_some_iff.mp stepped
    exact Wire.processNextEvent_moves processed
  | processEvents time_step =>
    obtain ⟨wire, processed, rfl⟩ := Option.map_eq_some_iff.mp stepped
    exact Wire.processEvents_moves processed

/-! ### A connection -/

def startStreams (n : Nat) : Simulator (Fin n) .twoNodes := start (fun _ => .stream) fun _ => true

/-- A socket that listens on one node and a socket that asks it from the other one. -/
def connectOnce : List (Op (Fin 3)) :=
  [.setLocalAddr 0 ⟨1, 80⟩, .open_ 0, .bind 0, .listen 0,
    .setLocalAddr 1 ⟨2, 0⟩, .setRemoteAddr 1 ⟨1, 80⟩, .open_ 1, .connect 1]

/-- The listening socket accepts. -/
def oneConnection : List (Op (Fin 3)) := connectOnce ++ [.accept 0 2]

/-- A connection whose events are processed, and a message to the accepted socket. -/
def writeOnce : List (Op (Fin 3)) :=
  oneConnection ++ List.replicate 2 .processNextEvent ++ [.write 1 [7]]

end Simulator

end VRJuggler.Sim
