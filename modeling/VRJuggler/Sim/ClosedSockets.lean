import VRJuggler.Sim.EventQueue
import VRJuggler.Sim.Peers

/-!
# Closed sockets

A message in a queue or a pending event about a socket is delivered to it whatever it has
become. `close` flushes the path of the socket, if it is connected; nothing else looks
for what is addressed to it, and nothing stops a socket from sending to a closed one.
-/
namespace VRJuggler.Sim

variable {σ : Type} [DecidableEq σ] {g : NetworkGraph}

/-! ### What is addressed to a socket -/

namespace Wire

/-- A queued message or a pending event is for the socket. -/
def Addressed (w : Wire σ g) (i : σ) : Prop :=
  (∃ lane, ∃ x ∈ w.queue lane, x.2.mDestSock = i) ∨
    ∃ b ∈ w.mEvents.entries, b.2.socket? = some i

omit [DecidableEq σ] in
theorem addressed_addEvent {w : Wire σ g} {time : Nat} {data : EventData σ g} {i : σ} :
    (w.addEvent time data).Addressed i ↔ w.Addressed i ∨ data.socket? = some i := by
  have entries : (∃ b ∈ (w.mEvents.insert time data).entries, b.2.socket? = some i) ↔
      (∃ b ∈ w.mEvents.entries, b.2.socket? = some i) ∨ data.socket? = some i := by
    have perm := w.mEvents.insert_perm time data
    constructor
    · rintro ⟨b, hb, about⟩
      rcases List.mem_cons.mp (perm.subset hb) with rfl | old
      · exact Or.inr about
      · exact Or.inl ⟨b, old, about⟩
    · rintro (⟨b, hb, about⟩ | about)
      · exact ⟨b, perm.symm.subset (List.mem_cons_of_mem _ hb), about⟩
      · exact ⟨_, perm.symm.subset (List.mem_cons_self ..), about⟩
  unfold Addressed
  simp only [addEvent]
  rw [entries]
  exact or_assoc.symm

omit [DecidableEq σ] in
theorem addressed_addMessage {w : Wire σ g} {msg : Message σ g} {vertex : Vertex}
    {edge : g.NetEdge} {curTime : Nat} {i : σ} :
    (w.addMessage msg vertex edge curTime).Addressed i ↔
      w.Addressed i ∨ msg.mDestSock = i := by
  simp only [addMessage]
  rw [addressed_addEvent]
  have queues : ∀ (lane : g.Lane) (x : Nat × Message σ g) (note : LineNote σ g),
      (w.setQueue lane (w.queue lane ++ [x]) note).Addressed i ↔
        w.Addressed i ∨ x.2.mDestSock = i := by
    intro lane x note
    constructor
    · rintro (⟨other, y, hy, dest⟩ | event)
      · by_cases same : other = lane
        · subst same
          rw [setQueue_queue_self] at hy
          rcases List.mem_append.mp hy with old | new
          · exact Or.inl (Or.inl ⟨other, y, old, dest⟩)
          · exact Or.inr (List.mem_singleton.mp new ▸ dest)
        · rw [setQueue_queue_of_ne _ _ _ same] at hy
          exact Or.inl (Or.inl ⟨other, y, hy, dest⟩)
      · exact Or.inl (Or.inr event)
    · rintro ((⟨other, y, hy, dest⟩ | event) | new)
      · refine Or.inl ⟨other, y, ?_, dest⟩
        by_cases same : other = lane
        · subst same
          rw [setQueue_queue_self]
          exact List.mem_append_left _ hy
        · rwa [setQueue_queue_of_ne _ _ _ same]
      · exact Or.inr event
      · exact Or.inl ⟨lane, x, by rw [setQueue_queue_self]; simp, new⟩
  rw [queues]
  simp [EventData.socket?, calculateMessageEventTimes]

/-- What is sent is addressed to its destination, and nothing else changes. -/
theorem addressed_post {w t : Wire σ g} {body : List UInt8} {path : List Vertex}
    {source dest i : σ} (isPath : g.IsPath path) (posted : w.post body path source dest = some t) :
    t.Addressed i ↔ w.Addressed i ∨ dest = i := by
  cases path with
  | nil => simp [post, sendMessage, Message.withPath, Message.getNextHop] at posted
  | cons u path =>
    cases path with
    | nil =>
      obtain rfl := Option.some.inj posted
      rw [addressed_addEvent]
      exact or_congr Iff.rfl (by simp [EventData.socket?, Message.withPath])
    | cons v rest =>
      obtain ⟨edge, found⟩ := Option.isSome_iff_exists.mp (List.isChain_cons_cons.mp isPath).1
      simp only [post, sendMessage, Message.withPath, Message.getNextHop, Message.incNextHop,
        List.getElem?_cons_zero, Nat.zero_add, List.getElem?_cons_succ, found] at posted
      obtain rfl := Option.some.inj posted
      exact addressed_addMessage (w := { w with sent := w.sent + 1 })

/-- A flush removes the messages for its socket in the queues on the path. -/
theorem addressed_flushPath (w : Wire σ g) (sock : σ) (path : List Vertex) :
    (∀ i, i ≠ sock → (w.flushPath sock path).Addressed i → w.Addressed i) ∧
      (¬ (w.flushPath sock path).Addressed sock ↔
        (∀ lane, ∀ x ∈ w.queue lane, x.2.mDestSock = sock → lane ∈ pathLanes path) ∧
          ∀ b ∈ w.mEvents.entries, b.2.socket? ≠ some sock) := by
  have events : ∀ i, (∃ b ∈ (w.flushPath sock path).mEvents.entries, b.2.socket? = some i) ↔
      ∃ b ∈ w.mEvents.entries, b.2.socket? = some i := by
    intro i
    have same := w.flushPath_filter_entries sock path none (by simp)
    have mem : ∀ b : Nat × EventData σ g, b.2.socket? = some i →
        (b ∈ (w.flushPath sock path).mEvents.entries ↔ b ∈ w.mEvents.entries) := by
      intro b about
      have noLane : b.2.lane? = none := by
        cases data : b.2 <;> simp_all [EventData.socket?, EventData.lane?]
      have := congrArg (b ∈ ·) same
      simpa [List.mem_filter, noLane] using this
    constructor
    · rintro ⟨b, hb, about⟩
      exact ⟨b, (mem b about).mp hb, about⟩
    · rintro ⟨b, hb, about⟩
      exact ⟨b, (mem b about).mpr hb, about⟩
  constructor
  · rintro i other (⟨lane, x, hx, dest⟩ | event)
    · rw [flushPath_queue] at hx
      split at hx
      · exact Or.inl ⟨lane, x, (List.mem_filter.mp hx).1, dest⟩
      · exact Or.inl ⟨lane, x, hx, dest⟩
    · exact Or.inr ((events i).mp event)
  · unfold Addressed
    rw [events, not_or]
    simp only [not_exists, not_and]
    refine and_congr ?_ Iff.rfl
    constructor
    · intro nothing lane x hx dest
      by_contra elsewhere
      refine nothing lane x ?_ dest
      rwa [flushPath_queue, if_neg elsewhere]
    · intro onPath lane x hx dest
      rw [flushPath_queue] at hx
      split at hx
      next =>
        have kept := (List.mem_filter.mp hx).2
        simp [addressedTo, dest] at kept
      next elsewhere => exact elsewhere (onPath lane x hx dest)

/-- Processing an event addresses nothing new, and delivers only what was addressed. -/
theorem addressed_moves {w t : Wire σ g}
    (moves : Moves (fun _ => False) (fun _ _ _ => False) w t) :
    (∀ i, t.Addressed i → w.Addressed i) ∧
      ∀ m ∈ t.delivered, m ∈ w.delivered ∨ w.Addressed m.mDestSock := by
  refine moves.keeps (fun t => (∀ i, t.Addressed i → w.Addressed i) ∧
    ∀ m ∈ t.delivered, m ∈ w.delivered ∨ w.Addressed m.mDestSock) ?_ ⟨fun _ => id, fun _ => Or.inl⟩
  rintro u v ⟨fewer, delivered⟩ move
  have taken : ∀ (lane : g.Lane) (x : Nat × Message σ g) (rest : MsgQueue σ g),
      u.queue lane = x :: rest → ∀ i, (u.takeFirst lane x rest).Addressed i → w.Addressed i := by
    rintro lane x rest head i (⟨other, y, hy, dest⟩ | ⟨b, hb, about⟩)
    · refine fewer i (Or.inl ⟨other, y, ?_, dest⟩)
      by_cases same : other = lane
      · subst same
        rw [takeFirst, setQueue_queue_self] at hy
        exact head ▸ List.mem_cons_of_mem x hy
      · rwa [takeFirst, setQueue_queue_of_ne _ _ _ same] at hy
    · exact fewer i (Or.inr ⟨b, List.mem_of_mem_tail hb, about⟩)
  have first : ∀ (lane : g.Lane) (x : Nat × Message σ g) (rest : MsgQueue σ g),
      u.queue lane = x :: rest → w.Addressed x.2.mDestSock := fun lane x rest head =>
    fewer _ (Or.inl ⟨lane, x, head ▸ List.mem_cons_self .., rfl⟩)
  cases move with
  | tick time | cut sock message rest length front | consume sock message rest front =>
    exact ⟨fewer, delivered⟩
  | notify time data s about ok | send body path source dest u v edge isPath first second found ok
  | loopback body u source dest ok | flush sock source dest edge found ok => exact ok.elim
  | skip time data rest front about =>
    refine ⟨fun i addressed => fewer i (addressed.imp id ?_), delivered⟩
    rintro ⟨b, hb, about⟩
    exact ⟨b, List.mem_of_mem_tail hb, about⟩
  | hop time edge next dir events x rest a b front head here there found =>
    refine ⟨fun i addressed => ?_, delivered⟩
    rcases addressed_addMessage.mp addressed with old | rfl
    · exact taken _ x rest head i old
    · exact first _ x rest head
  | arrive time edge dir events x rest a front head here last =>
    refine ⟨taken _ x rest head, List.forall_mem_append.mpr ⟨delivered, ?_⟩⟩
    exact List.forall_mem_singleton.mpr (Or.inr (first _ x rest head))

end Wire

namespace Endpoints

/-- A socket that is closed is not open any more, and the others stay what they were. -/
theorem mOpen_close {e t : Endpoints σ} {i : σ} (done : e.close i = some t) (j : σ) :
    (t.sock j).mOpen = if j = i then false else (e.sock j).mOpen := by
  obtain ⟨h, r, hangs, released, rfl⟩ := close_spec done
  have hung : (h.sock j).mOpen = (e.sock j).mOpen := by
    rcases hangUp_spec hangs with ⟨-, rfl⟩ | ⟨peer, -, -, rfl⟩
    · rfl
    · have single : ∀ (u : Endpoints σ) (k : σ), ((u.disconnect k).sock j).mOpen =
          (u.sock j).mOpen := fun u k =>
        view_setSock (s := (u.sock k).setConnectState none) Socket.mOpen rfl j
      rw [single, single]
  have kept : (r.sock j).mOpen = (h.sock j).mOpen :=
    congrArg Connection.mOpen (congrFun (connection_release released) j)
  by_cases same : j = i
  · subst same
    simp
  · rw [setSock_of_ne _ _ same, if_neg same, kept, hung]

/-- `accept` opens the client socket and no other. -/
theorem mOpen_accept {e t : Endpoints σ} {i clientSock : σ} {completed : Option σ}
    (done : e.accept g i clientSock = some (t, completed))
    (waiting : (e.sock i).mConnectorQueue ≠ []) (j : σ) :
    (t.sock j).mOpen = true ↔ (e.sock j).mOpen = true ∨ j = clientSock := by
  rcases connection_accept done with ⟨empty, -⟩ | ⟨peer, rest, -, joined⟩
  · exact absurd empty waiting
  · have opened : (t.sock j).mOpen = (join e.connection peer clientSock j).mOpen :=
      congrArg Connection.mOpen (congrFun joined j)
    have before : (e.connection j).mOpen = (e.sock j).mOpen := rfl
    rw [opened, ← before]
    by_cases isPeer : j = peer
    · subst isPeer
      rw [join_peer]
      simp [or_comm]
    · by_cases isClient : j = clientSock
      · subst isClient
        simp [join_client e.connection isPeer]
      · simp [join_of_ne e.connection isPeer isClient, isClient]

/-- The sockets when `sendto` looks for the receiver: the sender is bound first. -/
def senderBound (e : Endpoints σ) (g : NetworkGraph) (i : σ) : Option (Endpoints σ) :=
  if (e.sock i).mBound then some e else e.bind g i

end Endpoints

/-! ### Runs -/

namespace Simulator

open Endpoints

/-- The socket to which an operation sends a message or addresses an event. -/
def addressee (s : Simulator σ g) : Op σ → Option σ
  | .connect i => s.ends.mListenerList (s.ends.sock i).mRemoteAddr
  | .accept i _ => (s.ends.sock i).mConnectorQueue.head?
  | .write i _ => (s.ends.sock i).mPeer
  | .sendto i _ dest =>
    ((s.ends.senderBound g i).bind fun e => receiver e g dest).map Prod.snd
  | _ => none

/-- Nothing is sent to a closed socket, and everything for a socket that is closed is a
message in a queue on its path. -/
def Safe (s : Simulator σ g) (op : Op σ) : Prop :=
  (∀ p ∈ addressee s op, (s.ends.sock p).mOpen = true ∨ (accepting op).map Prod.snd = some p) ∧
    ∀ i ∈ closing op, ∀ path ∈ flushedPath s.ends i,
      (∀ lane, ∀ x ∈ s.wire.queue lane, x.2.mDestSock = i → lane ∈ Wire.pathLanes path) ∧
        ∀ b ∈ s.wire.mEvents.entries, b.2.socket? ≠ some i

instance (s : Simulator σ g) (op : Op σ) : Decidable (Safe s op) :=
  inferInstanceAs (Decidable (_ ∧ _))

/-- Messages and events are for open sockets only. -/
def NothingForClosed (s : Simulator σ g) : Prop :=
  ∀ i, s.wire.Addressed i → (s.ends.sock i).mOpen = true

omit [DecidableEq σ] in
theorem nothingForClosed_start (type : σ → SocketType) (blocking : σ → Bool) :
    NothingForClosed (start type blocking : Simulator σ g) := by
  rintro i (⟨lane, x, hx, -⟩ | ⟨b, hb, -⟩)
  · simp [start, Wire.start] at hx
  · simp [start, Wire.start, Multimap.empty] at hb

omit [DecidableEq σ] in
/-- Where an operation addresses one socket at most, that one must be open. -/
theorem nothingForClosed_iff {s t : Simulator σ g} (nothing : NothingForClosed s)
    {dest client : Option σ}
    (addressed : ∀ i, t.wire.Addressed i ↔ s.wire.Addressed i ∨ dest = some i)
    (opened : ∀ i, (t.ends.sock i).mOpen = true ↔ (s.ends.sock i).mOpen = true ∨ client = some i) :
    NothingForClosed t ↔ ∀ p ∈ dest, (s.ends.sock p).mOpen = true ∨ client = some p := by
  constructor
  · intro after p hp
    exact (opened p).mp (after p ((addressed p).mpr (Or.inr hp)))
  · intro live i hi
    rcases (addressed i).mp hi with old | new
    · exact (opened i).mpr (Or.inl (nothing i old))
    · exact (opened i).mpr (live i new)

omit [DecidableEq σ] in
theorem addressed_addEventNow {w : Wire σ g} {data : Option (EventData σ g)} {i : σ} :
    (addEventNow w data).Addressed i ↔ w.Addressed i ∨ data.bind EventData.socket? = some i := by
  cases data with
  | none => simp [addEventNow]
  | some d => exact Wire.addressed_addEvent

theorem addressed_connect {s t : Simulator σ g} {i : σ} (stepped : s.step (.connect i) = some t)
    (j : σ) :
    t.wire.Addressed j ↔ s.wire.Addressed j ∨ addressee s (.connect i) = some j := by
  obtain ⟨⟨e, asked⟩, done, rfl⟩ := Option.map_eq_some_iff.mp stepped
  rw [addressed_addEventNow, addressee, asked_connect done]
  cases asked <;> simp [EventData.socket?]

theorem addressed_accept {s t : Simulator σ g} {i clientSock : σ}
    (stepped : s.step (.accept i clientSock) = some t) (j : σ) :
    t.wire.Addressed j ↔ s.wire.Addressed j ∨ addressee s (.accept i clientSock) = some j := by
  obtain ⟨⟨e, completed⟩, done, rfl⟩ := Option.map_eq_some_iff.mp stepped
  rw [addressed_addEventNow, addressee, completed_accept done]
  cases completed <;> simp [EventData.socket?]

theorem addressed_write {s t : Simulator σ g} (routed : s.ends.Routed g) {i : σ}
    {buffer : List UInt8} (stepped : s.step (.write i buffer) = some t) (j : σ) :
    t.wire.Addressed j ↔ s.wire.Addressed j ∨ addressee s (.write i buffer) = some j := by
  simp only [step, write] at stepped
  split at stepped
  next alone =>
    obtain rfl := Option.some.inj stepped
    simp [addressee, alone]
  next peer isPeer =>
    obtain ⟨path, set, stepped⟩ := Option.bind_eq_some_iff.mp stepped
    obtain ⟨wire, posted, rfl⟩ := Option.map_eq_some_iff.mp stepped
    rw [Wire.addressed_post (routed i path set) posted, addressee, isPeer, Option.some_inj]

theorem addressed_sendto {s t : Simulator σ g} {i : σ} {msg : List UInt8} {dest : InetAddr}
    (stepped : s.step (.sendto i msg dest) = some t) (j : σ) :
    t.wire.Addressed j ↔ s.wire.Addressed j ∨ addressee s (.sendto i msg dest) = some j := by
  obtain ⟨ends, sent⟩ := sendto_ends stepped
  -- the receiver is looked for after the sender is bound
  have bound : s.ends.senderBound g i = some t.ends := by
    unfold senderBound
    rcases ends with ⟨bound, same⟩ | ⟨unbound, bound⟩
    · rw [if_pos bound, same]
    · simp [unbound, bound]
  rw [addressee, bound, Option.bind_some]
  unfold sendMessageTo at sent
  dsimp only at sent
  split at sent
  next nobody =>
    rw [nobody, ← congrArg Simulator.wire (Option.some.inj sent)]
    simp
  next v peer found =>
    obtain ⟨node, -, sent⟩ := Option.bind_eq_some_iff.mp sent
    obtain ⟨wire, posted, same⟩ := Option.map_eq_some_iff.mp sent
    rw [found, ← congrArg Simulator.wire same,
      Wire.addressed_post (NetworkGraph.isPath_getShortestPath node v) posted]
    simp

/-- Without a connector waiting `accept` opens nothing. -/
theorem mOpen_accept_empty {s t : Simulator σ g} {i clientSock : σ}
    (stepped : s.step (.accept i clientSock) = some t)
    (empty : (s.ends.sock i).mConnectorQueue = []) (j : σ) :
    (t.ends.sock j).mOpen = (s.ends.sock j).mOpen := by
  obtain ⟨⟨e, completed⟩, done, rfl⟩ := Option.map_eq_some_iff.mp stepped
  have same : e.connection = s.ends.connection := by
    rcases connection_accept done with ⟨-, same⟩ | ⟨peer, rest, waiting, -⟩
    · exact same
    · simp [empty] at waiting
  exact congrArg Connection.mOpen (congrFun same j)

/-- A closed socket is safe when the flush takes all that is for it. -/
theorem nothingForClosed_close_iff {s t : Simulator σ g} (nothing : NothingForClosed s) {i : σ}
    (stepped : s.step (.close i) = some t) : NothingForClosed t ↔ Safe s (.close i) := by
  obtain ⟨path, flushed, done, wire⟩ := simClose_spec stepped
  obtain ⟨others, self⟩ := Wire.addressed_flushPath s.wire i path
  rw [← wire] at others self
  have gone : NothingForClosed t ↔ ¬ t.wire.Addressed i := by
    constructor
    · intro after addressed
      have opened := after i addressed
      rw [mOpen_close done] at opened
      simp at opened
    · intro notI j addressed
      have other : j ≠ i := by
        rintro rfl
        exact notI addressed
      rw [mOpen_close done, if_neg other]
      exact nothing j (others j other addressed)
  rw [gone, self]
  constructor
  · intro clean
    refine ⟨fun p hp => by simp [addressee] at hp, fun k hk p hp => ?_⟩
    obtain rfl := Option.some.inj hk
    obtain rfl := Option.some.inj (flushed.symm.trans hp)
    exact clean
  · intro safe
    exact safe.2 i rfl path flushed

theorem safe_step_iff {s t : Simulator σ g} (routed : s.ends.Routed g)
    (nothing : NothingForClosed s) {op : Op σ} (stepped : s.step op = some t) :
    NothingForClosed t ↔ Safe s op := by
  have sameOpen : connects op = false →
      ∀ i, (t.ends.sock i).mOpen = (s.ends.sock i).mOpen := fun other i =>
    congrArg Connection.mOpen (congrFun (connection_step other stepped) i)
  have kept : connects op = false → accepting op = none → ∀ i, (t.ends.sock i).mOpen = true ↔
      (s.ends.sock i).mOpen = true ∨ (accepting op).map Prod.snd = some i := by
    intro other nobody i
    rw [sameOpen other, nobody]
    simp
  -- an operation that addresses one socket at most and closes nothing
  have sends : closing op = none →
      (∀ i, t.wire.Addressed i ↔ s.wire.Addressed i ∨ addressee s op = some i) →
      (∀ i, (t.ends.sock i).mOpen = true ↔
        (s.ends.sock i).mOpen = true ∨ (accepting op).map Prod.snd = some i) →
      (NothingForClosed t ↔ Safe s op) := by
    intro stays addressed opened
    rw [nothingForClosed_iff nothing addressed opened, Safe]
    exact (and_iff_left fun i hi => by simp [stays] at hi).symm
  cases op with
  | connect i => exact sends rfl (addressed_connect stepped) (kept rfl rfl)
  | accept i clientSock =>
    by_cases empty : (s.ends.sock i).mConnectorQueue = []
    · have nobody : addressee s (.accept i clientSock) = none := by simp [addressee, empty]
      refine iff_of_true (fun j hj => ?_) ⟨fun p hp => ?_, fun j hj => ?_⟩
      · rw [addressed_accept stepped, nobody] at hj
        rw [mOpen_accept_empty stepped empty]
        exact nothing j (hj.resolve_right (by simp))
      · simp [nobody] at hp
      · simp [closing] at hj
    · refine sends rfl (addressed_accept stepped) fun j => ?_
      obtain ⟨⟨e, completed⟩, done, rfl⟩ := Option.map_eq_some_iff.mp stepped
      rw [mOpen_accept done empty j]
      refine or_congr Iff.rfl ⟨fun same => ?_, fun same => (Option.some.inj same).symm⟩
      rw [same]
      rfl
  | close i => exact nothingForClosed_close_iff nothing stepped
  | write i buffer => exact sends rfl (addressed_write routed stepped) (kept rfl rfl)
  | sendto i msg dest => exact sends rfl (addressed_sendto stepped) (kept rfl rfl)
  | open_ i =>
    obtain rfl := Option.some.inj stepped
    refine iff_of_true (fun j addressed => ?_) ⟨fun p hp => by simp [addressee] at hp,
      fun k hk => by simp [closing] at hk⟩
    exact forall_setSock (P := fun j s' => (s.ends.sock j).mOpen = true → s'.mOpen = true)
      (fun _ => id) (fun _ => rfl) j (nothing j addressed)
  | _ =>
    -- nothing is addressed to anybody
    have moves : Wire.Moves (Targets s t _) (fun _ _ _ => False) s.wire t.wire :=
      step_moves routed _ stepped (fun _ _ _ _ => id) (by simp)
    refine iff_of_true (fun j addressed => ?_) ⟨fun p hp => by simp [addressee] at hp,
      fun k hk => by simp [closing] at hk⟩
    rw [sameOpen rfl]
    exact nothing j ((Wire.addressed_moves moves).1 j addressed)

/-- Nothing is addressed to a closed socket, and processing events delivers to open
sockets only. -/
structure OpenOnly (s : Simulator σ g) : Prop where
  addressed : NothingForClosed s
  delivered : ∀ op t, (op = .processNextEvent ∨ ∃ time_step, op = .processEvents time_step) →
    s.step op = some t → ∀ m ∈ t.wire.delivered,
      m ∈ s.wire.delivered ∨ (t.ends.sock m.mDestSock).mOpen = true

theorem openOnly_iff (s : Simulator σ g) : OpenOnly s ↔ NothingForClosed s := by
  constructor
  · exact OpenOnly.addressed
  · intro nothing
    refine ⟨nothing, fun op t processing stepped m hm => ?_⟩
    have delivers : ∀ wire : Wire σ g,
        Wire.Moves (fun _ => False) (fun _ _ _ => False) s.wire wire →
        m ∈ wire.delivered → m ∈ s.wire.delivered ∨ (s.ends.sock m.mDestSock).mOpen = true :=
      fun wire moves hm => ((Wire.addressed_moves moves).2 m hm).imp id (nothing _)
    rcases processing with rfl | ⟨time_step, rfl⟩
    · obtain ⟨wire, processed, rfl⟩ := Option.map_eq_some_iff.mp stepped
      exact delivers wire (Wire.processNextEvent_moves processed) hm
    · obtain ⟨wire, processed, rfl⟩ := Option.map_eq_some_iff.mp stepped
      exact delivers wire (Wire.processEvents_moves processed) hm

end Simulator

end VRJuggler.Sim
