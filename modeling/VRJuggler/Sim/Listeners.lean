import VRJuggler.Sim.Routes

/-!
# Listening sockets

The socket manager keeps a socket for each address on which one listens, and each
listening socket a queue of those that want to connect. `close` and `unbind` clean
neither, `listen` does not look at the socket, and nothing keeps a socket from waiting
twice. The registry is right as long as no listening or waiting socket is closed or
unbound and every socket waits once.
-/
namespace VRJuggler.Sim

variable {σ : Type} [DecidableEq σ] {g : NetworkGraph}

namespace Endpoints

/-- The list of listeners knows open, bound sockets that called `listen`, under their
addresses, and each of these addresses; and only open sockets that are not connected
wait to be accepted. -/
structure Listed (e : Endpoints σ) : Prop where
  listed : ∀ addr l, e.mListenerList addr = some l →
    (e.sock l).mLocalAddr = addr ∧ (e.sock l).calledListen = true
  listening : ∀ i, (e.sock i).calledListen = true → (e.sock i).mOpen = true ∧
    (e.sock i).mBound = true ∧ (e.mListenerList (e.sock i).mLocalAddr).isSome = true
  waiting : ∀ l, ∀ c ∈ (e.sock l).mConnectorQueue,
    (e.sock c).mOpen = true ∧ (e.sock c).mConnected = false

/-- A socket waits to be accepted. -/
def Waits (e : Endpoints σ) (c : σ) : Prop := ∃ l, c ∈ (e.sock l).mConnectorQueue

/-- A change of a socket: if it listens, it stays open and bound to its address, and if
it waits, it stays open and unconnected. -/
theorem Listed.setSock {e : Endpoints σ} (listed : Listed e) {i : σ} {s : Socket σ}
    (listens : s.calledListen = (e.sock i).calledListen)
    (stays : s.calledListen = true →
      s.mLocalAddr = (e.sock i).mLocalAddr ∧ s.mOpen = true ∧ s.mBound = true)
    (fewer : s.mConnectorQueue ⊆ (e.sock i).mConnectorQueue)
    (waits : (e.setSock i s).Waits i → s.mOpen = true ∧ s.mConnected = false) :
    Listed (e.setSock i s) where
  listed := fun addr l here => by
    obtain ⟨address, called⟩ := listed.listed addr l here
    by_cases same : l = i
    · subst same
      rw [setSock_self, listens]
      exact ⟨(stays (listens.trans called)).1.trans address, called⟩
    · rw [setSock_of_ne e s same]
      exact ⟨address, called⟩
  listening := fun j called => by
    by_cases same : j = i
    · subst same
      rw [setSock_self] at called ⊢
      obtain ⟨address, opened, bound⟩ := stays called
      refine ⟨opened, bound, ?_⟩
      rw [address]
      exact (listed.listening j (listens.symm.trans called)).2.2
    · rw [setSock_of_ne e s same] at called ⊢
      exact listed.listening j called
  waiting := fun l c hc => by
    by_cases same : c = i
    · subst same
      rw [setSock_self]
      exact waits ⟨l, hc⟩
    · rw [setSock_of_ne e s same]
      by_cases here : l = i
      · subst here
        rw [setSock_self] at hc
        exact listed.waiting l c (fewer hc)
      · rw [setSock_of_ne e s here] at hc
        exact listed.waiting l c hc

/-- Queues that were not made longer hold nobody new. -/
theorem Waits.of_setSock {e : Endpoints σ} {i c : σ} {s : Socket σ}
    (fewer : s.mConnectorQueue ⊆ (e.sock i).mConnectorQueue) (waits : (e.setSock i s).Waits c) :
    e.Waits c := by
  obtain ⟨l, hc⟩ := waits
  by_cases here : l = i
  · subst here
    rw [setSock_self] at hc
    exact ⟨l, fewer hc⟩
  · rw [setSock_of_ne e s here] at hc
    exact ⟨l, hc⟩

theorem Waits.of_same {e : Endpoints σ} {i c : σ} {s : Socket σ} (waits : (e.setSock i s).Waits c)
    (same : s.mConnectorQueue = (e.sock i).mConnectorQueue) : e.Waits c :=
  waits.of_setSock (same ▸ List.Subset.refl _)

omit [DecidableEq σ] in
theorem Listed.open_of_waits {e : Endpoints σ} (listed : Listed e) {c : σ} (waits : e.Waits c) :
    (e.sock c).mOpen = true ∧ (e.sock c).mConnected = false := by
  obtain ⟨l, hc⟩ := waits
  exact listed.waiting l c hc

/-- A change of a socket that shows in nothing that matters to listeners. -/
theorem Listed.setSock_same {e : Endpoints σ} (listed : Listed e) {i : σ} {s : Socket σ}
    (called : s.calledListen = (e.sock i).calledListen)
    (addr : s.calledListen = true → s.mLocalAddr = (e.sock i).mLocalAddr)
    (opened : s.mOpen = (e.sock i).mOpen)
    (bound : (e.sock i).mBound = true → s.mBound = true)
    (connected : s.mConnected = (e.sock i).mConnected)
    (queue : s.mConnectorQueue = (e.sock i).mConnectorQueue) : Listed (e.setSock i s) := by
  have fewer : s.mConnectorQueue ⊆ (e.sock i).mConnectorQueue := queue ▸ List.Subset.refl _
  refine listed.setSock called (fun listens => ?_) fewer fun waits => ?_
  · have before := listed.listening i (called.symm.trans listens)
    exact ⟨addr listens, opened.trans before.1, bound before.2.1⟩
  · rw [opened, connected]
    exact listed.open_of_waits (waits.of_setSock fewer)

omit [DecidableEq σ] in
theorem Listed.of_eq {e t : Endpoints σ} (listed : Listed e) (sock : t.sock = e.sock)
    (list : t.mListenerList = e.mListenerList) : Listed t where
  listed := fun addr l here => sock ▸ listed.listed addr l (list ▸ here)
  listening := fun i called => by
    rw [sock] at called ⊢
    rw [list]
    exact listed.listening i called
  waiting := fun l c hc => by
    rw [sock] at hc ⊢
    exact listed.waiting l c hc

/-! ### The operations -/

theorem Listed.setLocalAddr {e : Endpoints σ} (listed : Listed e) (i : σ) (addr : InetAddr) :
    Listed (e.setLocalAddr i addr) := by
  rw [setLocalAddr_eq]
  refine listed.setSock_same rfl (fun called => ?_) rfl id rfl rfl
  exact if_pos (listed.listening i called).2.1

theorem Listed.bind {e t : Endpoints σ} (listed : Listed e) {i : σ}
    (bound : e.bind g i = some t) : Listed t := by
  obtain ⟨v, node_vertex, -, -, rfl⟩ := bind_spec bound
  refine (listed.setSock_same (i := i) (s := e.boundSocket v node_vertex i) rfl (fun called => ?_)
    rfl (fun _ => rfl) rfl rfl).of_eq rfl rfl
  -- a listening socket is bound and keeps its port
  simp only [boundSocket, chosenPort, (listed.listening i called).2.1, if_true]

theorem Listed.listen {e t : Endpoints σ} (listed : Listed e) {i : σ}
    (opened : (e.sock i).mOpen = true) (bound : (e.sock i).mBound = true)
    (done : e.listen i = some t) : Listed t := by
  unfold Endpoints.listen at done
  split at done
  next =>
    obtain rfl := Option.some.inj done
    refine ⟨fun addr l here => ?_, fun j called => ?_, fun l c hc => ?_⟩
    · by_cases same : addr = (e.sock i).mLocalAddr
      · subst same
        simp only [setSock_mListenerList, Function.update_self] at here
        obtain rfl := Option.some.inj here
        simp
      · simp only [setSock_mListenerList, Function.update_of_ne same] at here
        obtain ⟨address, called⟩ := listed.listed addr l here
        by_cases self : l = i
        · subst self
          exact absurd address.symm same
        · simp only [setSock_of_ne _ _ self]
          exact ⟨address, called⟩
    · by_cases self : j = i
      · subst self
        simp [opened, bound]
      · simp only [setSock_of_ne _ _ self, setSock_mListenerList] at called ⊢
        obtain ⟨open', bound', known⟩ := listed.listening j called
        refine ⟨open', bound', ?_⟩
        by_cases same : (e.sock j).mLocalAddr = (e.sock i).mLocalAddr
        · simp [same]
        · rwa [Function.update_of_ne same]
    · have queues : ∀ k, (((Endpoints.mk e.sock (Function.update e.mListenerList
          (e.sock i).mLocalAddr (some i)) e.mNetworkNodes e.node).setSock i
          { e.sock i with calledListen := true }).sock k).mConnectorQueue =
            (e.sock k).mConnectorQueue := view_setSock Socket.mConnectorQueue rfl
      have same := view_setSock (e := e) (i := i) (s := { e.sock i with calledListen := true })
        (fun s => (s.mOpen, s.mConnected)) rfl c
      obtain ⟨open', connected'⟩ := Prod.mk.inj same
      have before := listed.waiting l c (queues l ▸ hc)
      exact ⟨open'.trans before.1, connected'.trans before.2⟩
  next => simp at done

theorem Listed.connect {e t : Endpoints σ} (listed : Listed e) {i : σ} {asked : Option σ}
    (allowed : ∀ l ∈ e.mListenerList (e.sock i).mRemoteAddr,
      (e.sock i).mOpen = true ∧ (e.sock i).mConnected = false)
    (done : e.connect g i = some (t, asked)) : Listed t := by
  have found := asked_connect done
  obtain ⟨b, binds, done⟩ := connect_spec done
  have bound : Listed b ∧ (b.sock i).mOpen = (e.sock i).mOpen ∧
      (b.sock i).mConnected = (e.sock i).mConnected := by
    rcases binds with ⟨-, rfl⟩ | ⟨-, binds⟩
    · exact ⟨listed, rfl, rfl⟩
    · refine ⟨listed.bind binds, ?_⟩
      obtain ⟨v, node_vertex, -, -, rfl⟩ := bind_spec binds
      simp [boundSocket]
  obtain ⟨listed, opened, connected⟩ := bound
  rcases connectTo_spec done with ⟨l, -, rfl, rfl⟩ | ⟨-, -, rfl⟩
  · obtain ⟨isOpen, notConnected⟩ := allowed l found
    have kept := view_setSock (e := b) (i := l)
      (s := { b.sock l with mConnectorQueue := (b.sock l).mConnectorQueue ++ [i] })
      (fun s => (s.mLocalAddr, s.calledListen, s.mOpen, s.mBound, s.mConnected)) rfl
    simp only [Prod.mk.injEq] at kept
    refine ⟨fun addr k here => ?_, fun j called => ?_, fun k c hc => ?_⟩
    · rw [(kept k).1, (kept k).2.1]
      exact listed.listed addr k here
    · rw [(kept j).2.1] at called
      rw [(kept j).1, (kept j).2.2.1, (kept j).2.2.2.1]
      exact listed.listening j called
    · rw [(kept c).2.2.1, (kept c).2.2.2.2]
      by_cases here : k = l
      · subst here
        rw [setSock_self] at hc
        rcases List.mem_append.mp hc with old | new
        · exact listed.waiting k c old
        · rw [List.mem_singleton.mp new]
          exact ⟨opened.trans isOpen, connected.trans notConnected⟩
      · rw [setSock_of_ne _ _ here] at hc
        exact listed.waiting k c hc
  · exact listed

theorem Listed.findRoute {e t : Endpoints σ} (listed : Listed e) {src dest : σ}
    (done : e.findRoute g src dest = some t) : Listed t := by
  obtain ⟨path, -, rfl⟩ := findRoute_spec done
  have first : Listed (e.setSock src { e.sock src with mPathToPeer := some path }) :=
    listed.setSock_same rfl (fun _ => rfl) rfl id rfl rfl
  exact first.setSock_same rfl (fun _ => rfl) rfl id rfl rfl

theorem Waits.of_bind {e t : Endpoints σ} {i c : σ} (bound : e.bind g i = some t)
    (waits : t.Waits c) : e.Waits c := by
  obtain ⟨v, node_vertex, -, -, rfl⟩ := bind_spec bound
  exact Waits.of_setSock (s := e.boundSocket v node_vertex i) (List.Subset.refl _) waits

theorem Waits.of_findRoute {e t : Endpoints σ} {src dest c : σ}
    (done : e.findRoute g src dest = some t) (waits : t.Waits c) : e.Waits c := by
  obtain ⟨path, -, rfl⟩ := findRoute_spec done
  exact (waits.of_same rfl).of_same rfl

/-- Once the first socket that waits is taken from the queue of `i`, somebody waits. -/
def WaitsBehind (e : Endpoints σ) (i c : σ) : Prop :=
  ∃ l, c ∈ if l = i then (e.sock i).mConnectorQueue.tail else (e.sock l).mConnectorQueue

theorem Listed.accept {e t : Endpoints σ} (listed : Listed e) {i clientSock : σ}
    {completed : Option σ}
    (allowed : ∀ peer ∈ (e.sock i).mConnectorQueue.head?,
      (e.sock clientSock).calledListen = false ∧ ¬ e.WaitsBehind i peer ∧
        ¬ e.WaitsBehind i clientSock)
    (done : e.accept g i clientSock = some (t, completed)) : Listed t := by
  rcases accept_spec done with ⟨-, -, rfl⟩ | ⟨peer, rest, b, f, queue, -, binds, routes, rfl⟩
  · exact listed
  · obtain ⟨silent, peerOnce, clientOnce⟩ := allowed peer (by simp [queue])
    -- `peer` is taken from the queue
    have popped : Listed (e.setSock i { e.sock i with mConnectorQueue := rest }) := by
      have fewer : rest ⊆ (e.sock i).mConnectorQueue := queue ▸ List.subset_cons_self _ _
      refine listed.setSock rfl (fun called => ?_) fewer fun waits => ?_
      · exact ⟨rfl, (listed.listening i called).1, (listed.listening i called).2.1⟩
      · exact listed.open_of_waits (waits.of_setSock fewer)
    have behind : ∀ c, (e.setSock i { e.sock i with mConnectorQueue := rest }).Waits c →
        e.WaitsBehind i c := by
      rintro c ⟨l, hc⟩
      refine ⟨l, ?_⟩
      by_cases here : l = i
      · subst here
        rw [setSock_self] at hc
        simpa [queue] using hc
      · rw [setSock_of_ne _ _ here] at hc
        rwa [if_neg here]
    have prepared : Listed (e.prepareClient i clientSock peer rest) := by
      refine popped.setSock rfl (fun called => ?_) (List.Subset.refl _) fun waits => ?_
      · have same := view_setSock (e := e) (i := i)
          (s := { e.sock i with mConnectorQueue := rest }) Socket.calledListen rfl clientSock
        have called : (e.sock clientSock).calledListen = true := same.symm.trans called
        rw [silent] at called
        simp at called
      · exact absurd (behind _ (waits.of_same rfl)) clientOnce
    refine ((prepared.bind binds).findRoute routes).setSock rfl (fun called => ?_)
      (List.Subset.refl _) fun waits => ?_
    · have before := ((prepared.bind binds).findRoute routes).listening peer called
      exact ⟨rfl, before.1, before.2.1⟩
    · have waits := Waits.of_bind binds
        (Waits.of_findRoute routes (waits.of_same rfl))
      have waits : (e.setSock i { e.sock i with mConnectorQueue := rest }).Waits peer :=
        waits.of_same rfl
      exact absurd (behind _ waits) peerOnce

theorem Listed.unbind {e t : Endpoints σ} (listed : Listed e) {i : σ}
    (silent : (e.sock i).calledListen = false) (unbound : e.unbind i = some t) : Listed t := by
  obtain ⟨v, -, rfl⟩ := unbind_spec unbound
  refine Listed.setSock_same ?_ silent.symm (fun called => ?_) rfl id rfl rfl
  · exact listed.of_eq rfl rfl
  · simp at called

theorem Listed.disconnect {e : Endpoints σ} (listed : Listed e) (i : σ) :
    Listed (e.disconnect i) := by
  refine listed.setSock rfl (fun called => ?_) (List.Subset.refl _) fun waits => ?_
  · exact ⟨rfl, (listed.listening i called).1, (listed.listening i called).2.1⟩
  · exact ⟨(listed.open_of_waits (waits.of_same rfl)).1, rfl⟩

theorem Listed.close {e t : Endpoints σ} (listed : Listed e) {i : σ}
    (silent : (e.sock i).calledListen = false) (notWaiting : ¬ e.Waits i)
    (done : e.close i = some t) : Listed t := by
  obtain ⟨h, r, hangs, released, rfl⟩ := close_spec done
  have hung : Listed h ∧ (h.sock i).calledListen = false ∧ ¬ h.Waits i := by
    rcases hangUp_spec hangs with ⟨-, rfl⟩ | ⟨peer, -, -, rfl⟩
    · exact ⟨listed, silent, notWaiting⟩
    · refine ⟨(listed.disconnect peer).disconnect i, ?_, fun waits => notWaiting ?_⟩
      · have single : ∀ (u : Endpoints σ) (k : σ), ((u.disconnect k).sock i).calledListen =
            (u.sock i).calledListen := fun u k =>
          view_setSock (s := (u.sock k).setConnectState none) Socket.calledListen rfl i
        rw [single, single, silent]
      · have single : ∀ (u : Endpoints σ) (k : σ), (u.disconnect k).Waits i → u.Waits i :=
          fun u k waits => waits.of_same rfl
        exact single _ peer (single _ i waits)
  obtain ⟨listed, silent, notWaiting⟩ := hung
  have released : Listed r ∧ (r.sock i).calledListen = false ∧ ¬ r.Waits i := by
    rcases release_spec released with ⟨-, rfl⟩ | ⟨u, -, unbound, rfl⟩
    · exact ⟨listed, silent, notWaiting⟩
    · have unlisted := listed.unbind silent unbound
      obtain ⟨v, -, rfl⟩ := unbind_spec unbound
      refine ⟨unlisted.setSock rfl (fun called => ?_) (List.Subset.refl _) fun waits => ?_, ?_,
        fun waits => ?_⟩
      · simp at called
      · have waits := waits.of_same rfl
        exact unlisted.open_of_waits waits
      · simp
      · have waits := waits.of_same rfl
        exact notWaiting (Waits.of_same (e := h.setNode v _) waits rfl)
  obtain ⟨listed, silent, notWaiting⟩ := released
  refine listed.setSock silent.symm (fun called => ?_) (List.Subset.refl _) fun waits => ?_
  · simp at called
  · exact absurd (waits.of_same rfl) notWaiting

end Endpoints

/-! ### Runs -/

namespace Simulator

open Endpoints

/-- Only open and bound sockets listen, only open and unconnected ones wait, each of them
once, and no listening or waiting socket is closed, unbound or used as a client. -/
def Orderly (s : Simulator σ g) : Op σ → Prop
  | .unbind i => (s.ends.sock i).calledListen = false
  | .listen i => (s.ends.sock i).mOpen = true ∧ (s.ends.sock i).mBound = true
  | .connect i => ∀ l ∈ s.ends.mListenerList (s.ends.sock i).mRemoteAddr,
      (s.ends.sock i).mOpen = true ∧ (s.ends.sock i).mConnected = false
  | .accept i clientSock => ∀ peer ∈ (s.ends.sock i).mConnectorQueue.head?,
      (s.ends.sock clientSock).calledListen = false ∧ ¬ s.ends.WaitsBehind i peer ∧
        ¬ s.ends.WaitsBehind i clientSock
  | .close i => (s.ends.sock i).calledListen = false ∧ ¬ s.ends.Waits i
  | _ => True

instance [Fintype σ] (e : Endpoints σ) (c : σ) : Decidable (e.Waits c) :=
  inferInstanceAs (Decidable (∃ l, c ∈ (e.sock l).mConnectorQueue))

instance [Fintype σ] (e : Endpoints σ) (i c : σ) : Decidable (e.WaitsBehind i c) :=
  inferInstanceAs (Decidable (∃ l, c ∈ if l = i then (e.sock i).mConnectorQueue.tail
    else (e.sock l).mConnectorQueue))

instance [Fintype σ] (s : Simulator σ g) : ∀ op : Op σ, Decidable (Orderly s op)
  | .unbind i => inferInstanceAs (Decidable ((s.ends.sock i).calledListen = false))
  | .listen _ => inferInstanceAs (Decidable (_ ∧ _))
  | .connect i => inferInstanceAs (Decidable (∀ l ∈ s.ends.mListenerList
      (s.ends.sock i).mRemoteAddr, (s.ends.sock i).mOpen = true ∧ _))
  | .accept i clientSock => inferInstanceAs (Decidable (∀ peer ∈
      (s.ends.sock i).mConnectorQueue.head?, (s.ends.sock clientSock).calledListen = false ∧
        ¬ s.ends.WaitsBehind i peer ∧ ¬ s.ends.WaitsBehind i clientSock))
  | .close i => inferInstanceAs (Decidable (_ ∧ ¬ s.ends.Waits i))
  | .open_ _ | .setLocalAddr _ _ | .setRemoteAddr _ _ | .bind _ | .write _ _ | .sendto _ _ _
  | .read _ _ | .processNextEvent | .processEvents _ => isTrue trivial

omit [DecidableEq σ] in
theorem listed_start (type : σ → SocketType) (blocking : σ → Bool) :
    Listed (start type blocking : Simulator σ g).ends where
  listed := fun addr l here => by simp [start, Endpoints.start] at here
  listening := fun i called => by simp [start, Endpoints.start, Socket.new] at called
  waiting := fun l c hc => by simp [start, Endpoints.start, Socket.new] at hc

theorem listed_step {s t : Simulator σ g} (listed : Listed s.ends) {op : Op σ}
    (ok : Orderly s op) (stepped : s.step op = some t) : Listed t.ends := by
  cases op with
  | open_ i =>
    obtain rfl := Option.some.inj stepped
    refine listed.setSock rfl (fun called => ?_) (List.Subset.refl _) fun waits => ?_
    · exact ⟨rfl, rfl, (listed.listening i called).2.1⟩
    · exact ⟨rfl, (listed.open_of_waits (waits.of_same rfl)).2⟩
  | setLocalAddr i addr =>
    obtain rfl := Option.some.inj stepped
    exact listed.setLocalAddr i addr
  | setRemoteAddr i addr =>
    obtain rfl := Option.some.inj stepped
    simp only [setRemoteAddr]
    split
    · exact listed
    · exact listed.setSock_same rfl (fun _ => rfl) rfl id rfl rfl
  | bind i =>
    obtain ⟨ends, bound, rfl⟩ := Option.map_eq_some_iff.mp stepped
    exact listed.bind bound
  | unbind i =>
    obtain ⟨ends, unbound, rfl⟩ := Option.map_eq_some_iff.mp stepped
    exact listed.unbind ok unbound
  | listen i =>
    obtain ⟨ends, listens, rfl⟩ := Option.map_eq_some_iff.mp stepped
    exact listed.listen ok.1 ok.2 listens
  | connect i =>
    obtain ⟨⟨ends, asked⟩, done, rfl⟩ := Option.map_eq_some_iff.mp stepped
    exact listed.connect ok done
  | accept i clientSock =>
    obtain ⟨⟨ends, completed⟩, done, rfl⟩ := Option.map_eq_some_iff.mp stepped
    exact listed.accept ok done
  | close i =>
    obtain ⟨path, -, done, -⟩ := simClose_spec stepped
    exact listed.close ok.1 ok.2 done
  | write i buffer =>
    rw [write_ends stepped]
    exact listed
  | sendto i msg dest =>
    rcases (sendto_ends stepped).1 with ⟨-, same⟩ | ⟨-, bound⟩
    · rwa [same]
    · exact listed.bind bound
  | read i length =>
    obtain rfl := Option.some.inj stepped
    exact listed
  | processNextEvent | processEvents time_step =>
    obtain ⟨wire, -, rfl⟩ := Option.map_eq_some_iff.mp stepped
    exact listed

/-- An address is listening just when an open socket bound to it has called `listen` and was
not closed or unbound since, and those that wait for a listening socket are open and not
connected. -/
structure ListenersMatch (e : Endpoints σ) : Prop where
  isListening : ∀ addr, e.isListening addr = true ↔ ∃ i, (e.sock i).mOpen = true ∧
    (e.sock i).mBound = true ∧ (e.sock i).mLocalAddr = addr ∧ (e.sock i).calledListen = true
  waiting : ∀ l, (e.sock l).calledListen = true → ∀ c ∈ (e.sock l).mConnectorQueue,
    (e.sock c).mOpen = true ∧ (e.sock c).mConnected = false

omit [DecidableEq σ] in
theorem listenersMatch_of_listed {e : Endpoints σ} (listed : Listed e) : ListenersMatch e where
  isListening := fun addr => by
    constructor
    · intro known
      obtain ⟨l, here⟩ := Option.isSome_iff_exists.mp known
      obtain ⟨address, called⟩ := listed.listed addr l here
      obtain ⟨opened, bound, -⟩ := listed.listening l called
      exact ⟨l, opened, bound, address, called⟩
    · rintro ⟨i, -, -, rfl, called⟩
      exact (listed.listening i called).2.2
  waiting := fun l _ => listed.waiting l

/-- The registries of listeners are right in every state of a run whose steps are orderly. -/
theorem listeners_match {type : σ → SocketType} {blocking : σ → Bool} {ops : List (Op σ)}
    {t : Simulator σ g} (meets : Meets step Orderly (start (g := g) type blocking) ops)
    (reached : run step (start type blocking) ops = some t) : ListenersMatch t.ends := by
  apply listenersMatch_of_listed
  exact run_invariant_of_meets (fun s => Listed s.ends) Orderly
    (fun s op t listed ok stepped => listed_step listed ok stepped) (listed_start type blocking)
    meets reached

/-- A socket listens and another one waits for it. -/
theorem listeners_match_connect : ∃ t : Simulator (Fin 3) .twoNodes,
    run step (startStreams 3) connectOnce = some t ∧ ListenersMatch t.ends ∧
      t.ends.isListening ⟨1, 80⟩ = true ∧ (t.ends.sock 0).mConnectorQueue = [1] := by
  obtain ⟨t, reached, values⟩ := Option.map_eq_some_iff.mp (show
    (run step (startStreams 3) connectOnce).map (fun t =>
      (t.ends.isListening ⟨1, 80⟩, (t.ends.sock 0).mConnectorQueue)) = some (true, [1])
    by decide +kernel)
  exact ⟨t, reached, listeners_match (by decide +kernel) reached, Prod.mk.inj values⟩

/-- When the listening socket and the one that waits are closed, its address still counts as
listening, and the closed socket still waits. -/
theorem listeners_mismatch_close :
    (∃ t : Simulator (Fin 3) .twoNodes,
      run step (startStreams 3) (connectOnce ++ [.close 0]) = some t ∧
        t.ends.isListening ⟨1, 80⟩ = true ∧ ¬ ListenersMatch t.ends) ∧
    ∃ t : Simulator (Fin 3) .twoNodes,
      run step (startStreams 3) (connectOnce ++ [.close 1]) = some t ∧
        ¬ ListenersMatch t.ends := by
  constructor
  · obtain ⟨t, reached, values⟩ := Option.map_eq_some_iff.mp (show
      (run step (startStreams 3) (connectOnce ++ [.close 0])).map (fun t =>
        (t.ends.isListening ⟨1, 80⟩, decide (∀ i, (t.ends.sock i).calledListen = false))) =
        some (true, true) by decide +kernel)
    obtain ⟨listening, silent⟩ := Prod.mk.inj values
    refine ⟨t, reached, listening, fun agree => ?_⟩
    obtain ⟨i, -, -, -, called⟩ := (agree.isListening ⟨1, 80⟩).mp listening
    rw [of_decide_eq_true silent i] at called
    simp at called
  · obtain ⟨t, reached, values⟩ := Option.map_eq_some_iff.mp (show
      (run step (startStreams 3) (connectOnce ++ [.close 1])).map (fun t =>
        ((t.ends.sock 0).calledListen, (t.ends.sock 0).mConnectorQueue, (t.ends.sock 1).mOpen)) =
        some (true, [1], false) by decide +kernel)
    simp only [Prod.mk.injEq] at values
    refine ⟨t, reached, fun agree => ?_⟩
    have opened := (agree.waiting 0 values.1 1 (by simp [values.2.1])).1
    rw [values.2.2] at opened
    simp at opened

end Simulator

end VRJuggler.Sim
