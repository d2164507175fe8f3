import VRJuggler.Sim.Routes

/-!
# Connected sockets

Two connected sockets have each other as their peers. `close` tells the peer of a
socket, so that it keeps this. `accept` connects the first socket that waits with the
client socket and does not look at either: it keeps this just when the waiting socket
is still open and neither of the two is connected to a third one.
-/
namespace VRJuggler.Sim

variable {σ : Type} [DecidableEq σ] {g : NetworkGraph}

/-! ### The connection state of a socket -/

/-- Whether the socket is open, whether it is connected, and with whom. -/
structure Connection (σ : Type) where
  mOpen : Bool
  mConnected : Bool
  mPeer : Option σ
  deriving DecidableEq

def Socket.connection (s : Socket σ) : Connection σ := ⟨s.mOpen, s.mConnected, s.mPeer⟩

/-- Connected sockets are those that have a peer; the peer is open and connected, and has
the socket as its own peer. -/
structure Matched (c : σ → Connection σ) : Prop where
  connected : ∀ i, (c i).mConnected = true ↔ ∃ p, (c i).mPeer = some p
  mutually : ∀ i p, (c i).mPeer = some p →
    (c p).mOpen = true ∧ (c p).mConnected = true ∧ (c p).mPeer = some i

/-- Nobody else is connected to `peer` and `client`, and `peer` is open. -/
def Joinable (c : σ → Connection σ) (peer client : σ) : Prop :=
  (peer = client ∨ (c peer).mOpen = true) ∧
    (∀ p ∈ (c peer).mPeer, p = peer ∨ p = client) ∧ ∀ p ∈ (c client).mPeer, p = peer ∨ p = client

instance (c : σ → Connection σ) (peer client : σ) : Decidable (Joinable c peer client) :=
  inferInstanceAs (Decidable (_ ∧ _))

/-- `peer` and `client` are made each other's peers. -/
def join (c : σ → Connection σ) (peer client : σ) : σ → Connection σ :=
  let c := Function.update c client ⟨true, true, some peer⟩
  Function.update c peer ⟨(c peer).mOpen, true, some client⟩

theorem join_peer (c : σ → Connection σ) (peer client : σ) :
    join c peer client peer = ⟨decide (peer = client) || (c peer).mOpen, true, some client⟩ := by
  by_cases same : peer = client
  · subst same
    simp [join]
  · simp [join, same]

theorem join_client (c : σ → Connection σ) {peer client : σ} (ne : client ≠ peer) :
    join c peer client client = ⟨true, true, some peer⟩ := by
  simp [join, ne]

theorem join_of_ne (c : σ → Connection σ) {peer client j : σ} (notPeer : j ≠ peer)
    (notClient : j ≠ client) : join c peer client j = c j := by
  simp [join, notPeer, notClient]

/-- Both ends of a new connection point to each other. -/
theorem join_mutually {c : σ → Connection σ} {peer client : σ} (joinable : Joinable c peer client) :
    ((join c peer client peer).mPeer = some client ∧
        (join c peer client client).mPeer = some peer) ∧
      ∀ i, i = peer ∨ i = client →
        (join c peer client i).mOpen = true ∧ (join c peer client i).mConnected = true := by
  by_cases same : client = peer
  · subst same
    simp [join_peer]
  · have opened : (c peer).mOpen = true := joinable.1.resolve_left (Ne.symm same)
    rw [join_client c same, join_peer]
    refine ⟨⟨rfl, rfl⟩, ?_⟩
    rintro i (rfl | rfl)
    · simp [join_peer, opened]
    · simp [join_client c same]

theorem Matched.join_iff {c : σ → Connection σ} (matched : Matched c) (peer client : σ) :
    Matched (join c peer client) ↔ Joinable c peer client := by
  constructor
  · intro joined
    have ends : (join c peer client peer).mPeer = some client := by rw [join_peer]
    refine ⟨?_, fun p hp => ?_, fun p hp => ?_⟩
    · by_cases same : client = peer
      · exact Or.inl same.symm
      · have back := joined.mutually client peer (by rw [join_client c same])
        rw [join_peer] at back
        simpa [Ne.symm same] using back.1
    · -- a third socket would still point to `peer`, which has a new peer
      by_contra other
      rw [not_or] at other
      have third := (matched.mutually peer p hp).2.2
      rw [← join_of_ne c other.1 other.2] at third
      have back := (joined.mutually p peer third).2.2
      exact other.2 (Option.some.inj (back.symm.trans ends))
    · by_contra other
      rw [not_or] at other
      have third := (matched.mutually client p hp).2.2
      rw [← join_of_ne c other.1 other.2] at third
      have back := (joined.mutually p client third).2.2
      by_cases same : client = peer
      · subst same
        exact other.2 (Option.some.inj (back.symm.trans ends))
      · rw [join_client c same] at back
        exact other.1 (Option.some.inj back).symm
  · intro joinable
    obtain ⟨⟨toClient, toPeer⟩, live⟩ := join_mutually joinable
    -- a third socket has a peer that is neither of the two
    have elsewhere : ∀ i p, i ≠ peer → i ≠ client → (c i).mPeer = some p →
        p ≠ peer ∧ p ≠ client := by
      intro i p notPeer notClient hp
      have back := (matched.mutually i p hp).2.2
      constructor
      · rintro rfl
        rcases joinable.2.1 i back with here | here
        · exact notPeer here
        · exact notClient here
      · rintro rfl
        rcases joinable.2.2 i back with here | here
        · exact notPeer here
        · exact notClient here
    refine ⟨fun i => ?_, fun i p hp => ?_⟩
    · by_cases isPeer : i = peer
      · subst isPeer
        simp [live, toClient]
      · by_cases isClient : i = client
        · subst isClient
          simp [live, toPeer]
        · rw [join_of_ne c isPeer isClient]
          exact matched.connected i
    · by_cases isPeer : i = peer
      · subst isPeer
        obtain rfl := Option.some.inj (toClient.symm.trans hp)
        exact ⟨(live _ (Or.inr rfl)).1, (live _ (Or.inr rfl)).2, toPeer⟩
      · by_cases isClient : i = client
        · subst isClient
          obtain rfl := Option.some.inj (toPeer.symm.trans hp)
          exact ⟨(live _ (Or.inl rfl)).1, (live _ (Or.inl rfl)).2, toClient⟩
        · rw [join_of_ne c isPeer isClient] at hp
          obtain ⟨notPeer, notClient⟩ := elsewhere i p isPeer isClient hp
          rw [join_of_ne c notPeer notClient]
          exact matched.mutually i p hp

/-- `i` is closed, and forgotten by its peer. -/
def hang (c : σ → Connection σ) (i : σ) : σ → Connection σ :=
  match (c i).mPeer with
  | some peer => Function.update (Function.update c peer ⟨(c peer).mOpen, false, none⟩) i
      ⟨false, false, none⟩
  | none => Function.update c i ⟨false, false, none⟩

theorem hang_self (c : σ → Connection σ) (i : σ) : hang c i i = ⟨false, false, none⟩ := by
  cases isPeer : (c i).mPeer <;> simp [hang, isPeer]

theorem hang_peer (c : σ → Connection σ) {i peer : σ} (isPeer : (c i).mPeer = some peer)
    (ne : peer ≠ i) : hang c i peer = ⟨(c peer).mOpen, false, none⟩ := by
  simp [hang, isPeer, ne]

theorem hang_of_ne (c : σ → Connection σ) {i j : σ} (ne : j ≠ i)
    (notPeer : (c i).mPeer ≠ some j) : hang c i j = c j := by
  cases isPeer : (c i).mPeer with
  | none => simp [hang, isPeer, ne]
  | some peer =>
    have other : j ≠ peer := fun same => notPeer (same ▸ isPeer)
    simp [hang, isPeer, ne, other]

theorem Matched.hang {c : σ → Connection σ} (matched : Matched c) (i : σ) :
    Matched (hang c i) := by
  have gone : ∀ j, j = i ∨ (c i).mPeer = some j →
      (Sim.hang c i j).mConnected = false ∧ (Sim.hang c i j).mPeer = none := by
    intro j hj
    by_cases same : j = i
    · subst same
      rw [hang_self]
      exact ⟨rfl, rfl⟩
    · rw [hang_peer c (hj.resolve_left same) same]
      exact ⟨rfl, rfl⟩
  refine ⟨fun j => ?_, fun j p hp => ?_⟩
  · by_cases here : j = i ∨ (c i).mPeer = some j
    · simp [gone j here]
    · rw [not_or] at here
      rw [hang_of_ne c here.1 here.2]
      exact matched.connected j
  · by_cases here : j = i ∨ (c i).mPeer = some j
    · rw [(gone j here).2] at hp
      simp at hp
    · -- the peer of a third socket is not one of the two either
      rw [not_or] at here
      rw [hang_of_ne c here.1 here.2] at hp
      have back := matched.mutually j p hp
      have notSelf : p ≠ i := by
        rintro rfl
        exact here.2 back.2.2
      have notPeer : (c i).mPeer ≠ some p := by
        intro isPeer
        have other := (matched.mutually i p isPeer).2.2
        exact here.1 (Option.some.inj (back.2.2.symm.trans other))
      rw [hang_of_ne c notSelf notPeer]
      exact back

/-- Whoever notices a close is the closed socket or has it as its peer. -/
theorem Matched.hang_changes {c : σ → Connection σ} (matched : Matched c) {i j : σ}
    (changed : Sim.hang c i j ≠ c j) : j = i ∨ (c j).mPeer = some i := by
  by_contra other
  rw [not_or] at other
  refine changed (hang_of_ne c other.1 fun isPeer => ?_)
  exact other.2 (matched.mutually i j isPeer).2.2

namespace Endpoints

def connection (e : Endpoints σ) (i : σ) : Connection σ := (e.sock i).connection

theorem connection_setSock (e : Endpoints σ) (i : σ) {s : Socket σ}
    (same : s.connection = e.connection i) : (e.setSock i s).connection = e.connection :=
  funext (view_setSock Socket.connection same)

theorem connection_setSock_update (e : Endpoints σ) (i : σ) (s : Socket σ) :
    (e.setSock i s).connection = Function.update e.connection i s.connection := by
  funext j
  by_cases same : j = i
  · subst same
    simp [connection]
  · simp [connection, setSock_of_ne e s same, same]

theorem connection_bind {e t : Endpoints σ} {i : σ} (bound : e.bind g i = some t) :
    t.connection = e.connection := by
  obtain ⟨v, node_vertex, -, -, rfl⟩ := bind_spec bound
  exact e.connection_setSock i (s := e.boundSocket v node_vertex i) rfl

theorem connection_connect {e t : Endpoints σ} {i : σ} {asked : Option σ}
    (done : e.connect g i = some (t, asked)) : t.connection = e.connection := by
  obtain ⟨b, binds, done⟩ := connect_spec done
  have bound : b.connection = e.connection := by
    rcases binds with ⟨-, rfl⟩ | ⟨-, binds⟩
    · rfl
    · exact connection_bind binds
  rw [← bound]
  rcases connectTo_spec done with ⟨l, -, -, rfl⟩ | ⟨-, -, rfl⟩
  · exact b.connection_setSock l rfl
  · rfl

theorem connection_findRoute {e t : Endpoints σ} {src dest : σ}
    (done : e.findRoute g src dest = some t) : t.connection = e.connection := by
  obtain ⟨path, -, rfl⟩ := findRoute_spec done
  refine (connection_setSock _ dest ?_).trans (e.connection_setSock src ?_) <;> rfl

theorem connection_unbind {e t : Endpoints σ} {i : σ} (unbound : e.unbind i = some t) :
    t.connection = e.connection := by
  obtain ⟨v, -, rfl⟩ := unbind_spec unbound
  exact connection_setSock _ i rfl

theorem connection_release {e t : Endpoints σ} {i : σ} (done : e.release i = some t) :
    t.connection = e.connection := by
  rcases release_spec done with ⟨-, rfl⟩ | ⟨u, -, unbound, rfl⟩
  · rfl
  · rw [← connection_unbind unbound]
    exact u.connection_setSock i rfl

theorem connection_prepareClient (e : Endpoints σ) (i clientSock peer : σ) (rest : List σ) :
    (e.prepareClient i clientSock peer rest).connection =
      Function.update e.connection clientSock ⟨true, true, some peer⟩ := by
  have popped : (e.setSock i { e.sock i with mConnectorQueue := rest }).connection =
      e.connection := e.connection_setSock i rfl
  rw [← popped]
  exact connection_setSock_update _ clientSock _

/-- `accept` connects the first socket that waits with the client, whatever they were. -/
theorem connection_accept {e t : Endpoints σ} {i clientSock : σ} {completed : Option σ}
    (done : e.accept g i clientSock = some (t, completed)) :
    ((e.sock i).mConnectorQueue = [] ∧ t.connection = e.connection) ∨
    ∃ peer rest, (e.sock i).mConnectorQueue = peer :: rest ∧
      t.connection = join e.connection peer clientSock := by
  rcases accept_spec done with ⟨empty, -, rfl⟩ | ⟨peer, rest, b, f, waiting, -, binds, routes, rfl⟩
  · exact Or.inl ⟨empty, rfl⟩
  · refine Or.inr ⟨peer, rest, waiting, ?_⟩
    have before : f.connection =
        Function.update e.connection clientSock ⟨true, true, some peer⟩ := by
      rw [connection_findRoute routes, connection_bind binds, connection_prepareClient]
    rw [completeConnection, connection_setSock_update, join, ← before]
    rfl

/-- `close` disconnects the socket and its peer. -/
theorem connection_close {e t : Endpoints σ} (matched : Matched e.connection) {i : σ}
    (done : e.close i = some t) : t.connection = hang e.connection i := by
  obtain ⟨h, r, hangs, released, rfl⟩ := close_spec done
  have kept := connection_release released
  have alone : ∀ c, h.connection = c → (c i).mConnected = false → (c i).mPeer = none →
      (r.setSock i { r.sock i with mOpen := false, calledListen := false }).connection =
        Function.update c i ⟨false, false, none⟩ := by
    rintro c rfl connected peer
    rw [← kept] at connected peer ⊢
    rw [connection_setSock_update]
    simp only [connection, Socket.connection] at connected peer ⊢
    rw [connected, peer]
  rcases hangUp_spec hangs with ⟨single, rfl⟩ | ⟨peer, connected, isPeer, rfl⟩
  · have nobody : (h.connection i).mPeer = none := by
      cases isPeer : (h.connection i).mPeer with
      | none => rfl
      | some p =>
        have connected : (h.sock i).mConnected = true := (matched.connected i).mpr ⟨p, isPeer⟩
        rw [single] at connected
        simp at connected
    rw [alone _ rfl single nobody, hang, nobody]
  · have both : ((e.disconnect peer).disconnect i).connection =
        Function.update (Function.update e.connection peer ⟨(e.sock peer).mOpen, false, none⟩) i
          ⟨((e.disconnect peer).sock i).mOpen, false, none⟩ := by
      simp only [disconnect, connection_setSock_update]
      rfl
    have isPeer : (e.connection i).mPeer = some peer := isPeer
    rw [alone _ both (by simp) (by simp), hang, isPeer, Function.update_idem]
    rfl

end Endpoints

/-! ### Runs -/

namespace Simulator

open Endpoints

/-- The listening socket and the client of an `accept`. -/
def accepting : Op σ → Option (σ × σ)
  | .accept i clientSock => some (i, clientSock)
  | _ => none

/-- The socket that `accept` takes from the queue can be joined with the client. -/
def Acceptable (s : Simulator σ g) (op : Op σ) : Prop :=
  ∀ a ∈ accepting op, ∀ peer ∈ (s.ends.sock a.1).mConnectorQueue.head?,
    Joinable s.ends.connection peer a.2

instance (s : Simulator σ g) (op : Op σ) : Decidable (Acceptable s op) :=
  inferInstanceAs (Decidable (∀ a ∈ accepting op,
    ∀ peer ∈ (s.ends.sock a.1).mConnectorQueue.head?, Joinable s.ends.connection peer a.2))

omit [DecidableEq σ] in
theorem matched_start (type : σ → SocketType) (blocking : σ → Bool) :
    Matched (start type blocking : Simulator σ g).ends.connection where
  connected := fun i => by
    simp [connection, Socket.connection, start, Endpoints.start, Socket.new]
  mutually := fun i p hp => by
    simp [connection, Socket.connection, start, Endpoints.start, Socket.new] at hp

/-- Opening a socket does not matter to the others. -/
theorem Matched.opened {e : Endpoints σ} (matched : Matched e.connection) (i : σ) :
    Matched (e.open_ i).connection := by
  have opened : ∀ j, ((e.open_ i).connection j).mOpen = true ∨
      ((e.open_ i).connection j).mOpen = (e.connection j).mOpen := by
    intro j
    rw [open_, connection_setSock_update]
    by_cases same : j = i
    · subst same
      simp [Socket.connection]
    · simp [same]
  have connected : ∀ j, ((e.open_ i).connection j).mConnected = (e.connection j).mConnected :=
    view_setSock Socket.mConnected rfl
  have peer : ∀ j, ((e.open_ i).connection j).mPeer = (e.connection j).mPeer :=
    view_setSock Socket.mPeer rfl
  refine ⟨fun j => ?_, fun j p hp => ?_⟩
  · rw [connected, peer]
    exact matched.connected j
  · rw [peer] at hp
    have back := matched.mutually j p hp
    rw [connected, peer]
    exact ⟨(opened p).elim id fun same => same.trans back.1, back.2⟩

/-- The operations that open, connect or disconnect a socket. -/
def connects : Op σ → Bool
  | .open_ _ | .accept _ _ | .close _ => true
  | _ => false

theorem connection_step {s t : Simulator σ g} {op : Op σ} (other : connects op = false)
    (stepped : s.step op = some t) : t.ends.connection = s.ends.connection := by
  cases op with
  | open_ i | accept i clientSock | close i => simp [connects] at other
  | setLocalAddr i addr =>
    obtain rfl := Option.some.inj stepped
    dsimp only
    rw [setLocalAddr_eq]
    exact s.ends.connection_setSock i rfl
  | setRemoteAddr i addr =>
    obtain rfl := Option.some.inj stepped
    simp only [setRemoteAddr]
    split
    · rfl
    · exact s.ends.connection_setSock i rfl
  | bind i =>
    obtain ⟨ends, bound, rfl⟩ := Option.map_eq_some_iff.mp stepped
    exact connection_bind bound
  | unbind i =>
    obtain ⟨ends, unbound, rfl⟩ := Option.map_eq_some_iff.mp stepped
    exact connection_unbind unbound
  | listen i =>
    obtain ⟨ends, listens, rfl⟩ := Option.map_eq_some_iff.mp stepped
    unfold Endpoints.listen at listens
    split at listens
    next =>
      obtain rfl := Option.some.inj listens
      exact connection_setSock _ i rfl
    next => simp at listens
  | connect i =>
    obtain ⟨⟨ends, asked⟩, done, rfl⟩ := Option.map_eq_some_iff.mp stepped
    exact connection_connect done
  | write i buffer => rw [write_ends stepped]
  | sendto i msg dest =>
    rcases (sendto_ends stepped).1 with ⟨-, kept⟩ | ⟨-, bound⟩
    · rw [kept]
    · exact connection_bind bound
  | read i length =>
    obtain rfl := Option.some.inj stepped
    rfl
  | processNextEvent | processEvents time_step =>
    obtain ⟨wire, -, rfl⟩ := Option.map_eq_some_iff.mp stepped
    rfl

theorem matched_step_iff {s t : Simulator σ g} (matched : Matched s.ends.connection) {op : Op σ}
    (stepped : s.step op = some t) : Matched t.ends.connection ↔ Acceptable s op := by
  cases op with
  | open_ i =>
    obtain rfl := Option.some.inj stepped
    exact iff_of_true (Matched.opened matched i) fun a ha => by simp [accepting] at ha
  | accept i clientSock =>
    obtain ⟨⟨ends, completed⟩, done, rfl⟩ := Option.map_eq_some_iff.mp stepped
    rcases connection_accept done with ⟨empty, kept⟩ | ⟨peer, rest, waiting, joined⟩
    · rw [kept]
      refine iff_of_true matched fun a ha peer hp => ?_
      obtain rfl := Option.some.inj ha
      simp [empty] at hp
    · rw [joined, matched.join_iff]
      constructor
      · intro joinable a ha p hp
        obtain rfl := Option.some.inj ha
        rw [waiting] at hp
        exact Option.some.inj hp ▸ joinable
      · intro acceptable
        exact acceptable (i, clientSock) rfl peer (by simp [waiting])
  | close i =>
    obtain ⟨path, -, done, -⟩ := simClose_spec stepped
    rw [connection_close matched done]
    exact iff_of_true (matched.hang i) fun a ha => by simp [accepting] at ha
  | _ =>
    rw [connection_step rfl stepped]
    exact iff_of_true matched fun a ha => by simp [accepting] at ha

/-- Connected sockets are each other's peers, and a close changes nothing but the closed
socket and those that have it as their peer. -/
structure PeersMatch (s : Simulator σ g) : Prop where
  matched : Matched s.ends.connection
  closing : ∀ i t, s.step (.close i) = some t → ∀ j,
    t.ends.connection j ≠ s.ends.connection j → j = i ∨ (s.ends.connection j).mPeer = some i

theorem peersMatch_iff (s : Simulator σ g) : PeersMatch s ↔ Matched s.ends.connection := by
  constructor
  · exact PeersMatch.matched
  · intro matched
    refine ⟨matched, fun i t closed j changed => ?_⟩
    obtain ⟨path, -, done, -⟩ := simClose_spec closed
    rw [connection_close matched done] at changed
    exact matched.hang_changes changed

/-- The peers match in all states of a run just when each `accept` takes a socket that can
be joined with its client. -/
theorem peers_match_iff {type : σ → SocketType} {blocking : σ → Bool} {ops : List (Op σ)}
    {t : Simulator σ g} (reached : run step (start type blocking) ops = some t) :
    (∀ front u, front <+: ops → run step (start (g := g) type blocking) front = some u →
        PeersMatch u) ↔
      Meets step Acceptable (start (g := g) type blocking) ops := by
  simp only [peersMatch_iff]
  exact run_always_iff_meets (fun _ => True) (fun s => Matched s.ends.connection) Acceptable
    (fun s op t _ matched stepped => ⟨matched_step_iff matched stepped, fun _ => trivial⟩)
    trivial (matched_start type blocking) reached

/-- The two ends of a connection. -/
theorem peers_match_accept : ∃ t : Simulator (Fin 3) .twoNodes,
    run step (startStreams 3) oneConnection = some t ∧ PeersMatch t ∧
      (t.ends.sock 1).mPeer = some 2 := by
  obtain ⟨t, reached, peer⟩ := Option.map_eq_some_iff.mp (show
    (run step (startStreams 3) oneConnection).map (fun t => (t.ends.sock 1).mPeer) =
      some (some 2) by decide +kernel)
  have always := (peers_match_iff reached).mpr (by decide +kernel)
  exact ⟨t, reached, always _ t (List.prefix_refl _) reached, peer⟩

/-- A socket that connects twice and is accepted twice. -/
def connectTwice : List (Op (Fin 4)) :=
  [.setLocalAddr 0 ⟨1, 80⟩, .open_ 0, .bind 0, .listen 0, .setLocalAddr 1 ⟨2, 0⟩,
    .setRemoteAddr 1 ⟨1, 80⟩, .open_ 1, .connect 1, .connect 1, .accept 0 2, .accept 0 3]

/-- The first client still has it as its peer. -/
theorem peers_mismatch_accept_twice : ∃ t : Simulator (Fin 4) .twoNodes,
    run step (startStreams 4) connectTwice = some t ∧ ¬ PeersMatch t := by
  obtain ⟨t, reached, peers⟩ := Option.map_eq_some_iff.mp (show
    (run step (startStreams 4) connectTwice).map (fun t =>
      ((t.ends.connection 2).mPeer, (t.ends.connection 1).mPeer)) =
      some (some 1, some 3) by decide +kernel)
  refine ⟨t, reached, fun agree => ?_⟩
  obtain ⟨ofClient, ofPeer⟩ := Prod.mk.inj peers
  have back := (agree.matched.mutually 2 1 ofClient).2.2
  rw [ofPeer] at back
  exact absurd back (by decide)

end Simulator

end VRJuggler.Sim
