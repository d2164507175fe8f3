import VRJuggler.Cluster.VirtualDevices
import VRJuggler.Gadget.LockStep

/-!
# Steps of remote input

What a step of the cluster can do, with what is known of it in lock-step; what other nodes see of
it; and what holds of every node by itself: its manager is at work while its thread is in `update`,
there are two updates in a frame, and the packets of slaves change no plugin.
-/
namespace VRJuggler.RemoteInput

open VRJuggler.Cluster (GUID Packet Outgoing)
open VRJuggler.Gadget (Host InputType SampleBuffer starNeighbours)
open VRJuggler.Io

variable {n : Nat} {τ π : Type} [DecidableEq π] {site : Site n τ}

/-! ## What a step does -/

section Moves

instance decidableWithin {α : Type} (b : SampleBuffer α) : Decidable b.Within :=
  inferInstanceAs (Decidable (_ ∧ _))

instance decidableEvery (p : {α : Type} → SampleBuffer α → Prop)
    [decide : ∀ {α : Type} (b : SampleBuffer α), Decidable (p b)] :
    (type : InputType) → (d : type.Device) → Decidable (type.Every p d)
  | .input, _ => isTrue trivial
  | .digital, d | .analog, d | .position, d | .command, d | .string, d | .glove, d => decide d
  | .inputMixer composedParent newParent, d =>
    have := decidableEvery p composedParent d.1
    have := decidableEvery p newParent d.2
    inferInstanceAs (Decidable (composedParent.Every p d.1 ∧ newParent.Every p d.2))

variable (site) in
/-- The device has few enough samples and values, and its data packet has a length that the header
can hold. -/
def Transmissible (id : GUID) (device : (site.type id).Device) : Prop :=
  (site.type id).Every (fun b => b.Within) device ∧
    (Outgoing.dataPacket mHandlerGUID id ((site.type id).writeObject device)).size < 2 ^ 32

instance decidableTransmissible (id : GUID) (device : (site.type id).Device) :
    Decidable (Transmissible site id device) :=
  inferInstanceAs (Decidable (_ ∧ _))

/-- The server whose device is written next. -/
def Thread.nextServer : Thread n → Option GUID
  | .postPostFrame servers => servers.head?
  | .beforeDraw | .sendAck .. | .updateDraw | .afterDraw | .sendData .. | .updatePost => none

variable (site) in
/-- What is asked of the master: a device that it is configured with has an id and a name that no
other has and a type that the factory knows, and what it sends is not too long. -/
def Proper (s : State n τ π site.type) : Act n site.type → Prop
  | .configAdd id => id ∉ s.mDeviceServers ∧
      (∀ other ∈ s.mDeviceServers, site.name other ≠ site.name id) ∧
      site.type id ∈ hackLoadKnownDevices ∧ (site.deviceAck id).size < 2 ^ 32
  | .updateLocalData =>
    ∀ id ∈ (s.thread .master).nextServer, Transmissible site id (s.devices id)
  | .change .. | .postPostFrame _ | .send | .update _ | .sendEndBlock _ | .select .. | .recv _
  | .next _ | .plugin .. => True

omit [DecidableEq π] in
instance decidableProper (s : State n τ π site.type) :
    ∀ act : Act n site.type, Decidable (Proper site s act)
  | .configAdd _ => inferInstanceAs (Decidable (_ ∧ _))
  | .updateLocalData => inferInstanceAs (Decidable (∀ id ∈ _, _))
  | .change .. | .postPostFrame _ | .send | .update _ | .sendEndBlock _ | .select .. | .recv _
  | .next _ | .plugin .. => isTrue trivial

/-- The manager of `i` has returned from `update`. -/
def completed (c : Gadget.Cluster (Host n) (List UInt8)) (i : Host n)
    (m : Gadget.Manager (Host n)) : Gadget.Cluster (Host n) (List UInt8) :=
  { c.setManager i m with updates := Function.update c.updates i (c.updates i + 1) }

/-- Between the calls of the cluster manager. -/
def resting (drawn : Bool) : Thread n := if drawn then .afterDraw else .beforeDraw

variable (site) in
/-- The steps of a node, with what is known of it. -/
inductive Move (s : State n τ π site.type) : Host n → State n τ π site.type → Prop where
  | change (drawn : Bool) (id : GUID) (device : (site.type id).Device)
      (rests : s.thread .master = resting drawn) :
      Move s .master { s with devices := Function.update s.devices id device }
  | configures {drawn : Bool} {id : GUID} (rests : s.thread .master = resting drawn)
      (proper : Proper site s (.configAdd id)) :
      Move s .master { s.setThread site .master
          (.sendAck drawn (starNeighbours .master) id (site.deviceAck id).packet) with
        mDeviceServers := s.mDeviceServers ++ [id] }
  | posts (rests : s.thread .master = .afterDraw) :
      Move s .master { s.setThread site .master (.postPostFrame s.mDeviceServers) with
        posted := s.posted ++ [⟨s.mDeviceServers, s.devices⟩] }
  | postPostFrame {k : Fin n} (rests : s.thread (.slave k) = .afterDraw) :
      Move s (.slave k) (s.setThread site (.slave k) (.postPostFrame []))
  | serialized {id : GUID} {servers : List GUID} {packet : Packet}
      (here : s.thread .master = .postPostFrame (id :: servers))
      (fits : Transmissible site id (s.devices id))
      (done : ApplicationData.serialize (site.order .master) (s.mDataPacket id)
        ((site.type id).writeObject (s.devices id)) = some packet) :
      Move s .master { s.setThread site .master
          (.sendData (starNeighbours .master) id servers) with
        mDataPacket := Function.update s.mDataPacket id packet }
  | acknowledged {drawn : Bool} {j : Host n} {nodes : List (Host n)} {id : GUID}
      {device_ack : Packet} {bytes : List UInt8}
      (here : s.thread .master = .sendAck drawn (j :: nodes) id device_ack)
      (done : Cluster.send device_ack [] = some bytes) :
      Move s .master { s.setThread site .master (.sendAck drawn nodes id device_ack) with
        cluster := s.cluster.put .master j (.other bytes) }
  | acknowledgedAll {drawn : Bool} {id : GUID} {device_ack : Packet}
      (here : s.thread .master = .sendAck drawn [] id device_ack) :
      Move s .master (s.setThread site .master (resting drawn))
  | sent {j : Host n} {nodes : List (Host n)} {id : GUID} {servers : List GUID}
      {bytes : List UInt8} (here : s.thread .master = .sendData (j :: nodes) id servers)
      (done : Cluster.send (s.mDataPacket id) [] = some bytes) :
      Move s .master { s.setThread site .master (.sendData nodes id servers) with
        cluster := s.cluster.put .master j (.other bytes) }
  | sentAll {id : GUID} {servers : List GUID}
      (here : s.thread .master = .sendData [] id servers) :
      Move s .master (s.setThread site .master (.postPostFrame servers))
  | begins {i : Host n} {m : Gadget.Manager (Host n)} {thread : Thread n}
      (here : (s.thread i = .beforeDraw ∧ thread = .updateDraw) ∨
        (s.thread i = .postPostFrame [] ∧ thread = .updatePost)) (busy : m.phase ≠ .idle) :
      Move s i { s.setThread site i thread with cluster := s.cluster.setManager i m }
  | goesOn {i : Host n} {m : Gadget.Manager (Host n)} (here : (s.thread i).updating)
      (busy : m.phase ≠ .idle) :
      Move s i { s with cluster := s.cluster.setManager i m }
  | ends {i j : Host n} {m : Gadget.Manager (Host n)} (frameNum : Nat)
      (here : (s.thread i).updating) (busy : m.phase ≠ .idle) :
      Move s i { s with cluster := (s.cluster.setManager i m).put i j (.endBlock frameNum) }
  | receives {i j : Host n} {m : Gadget.Manager (Host n)} {p : Gadget.Packet (List UInt8)}
      {tail : List (Gadget.Packet (List UInt8))} {plugin : Plugin τ π}
      (here : (s.thread i).updating) (busy : m.phase ≠ .idle) (neighbour : j ∈ starNeighbours i)
      (open_ : (s.cluster.manager i).gathered j = 0) (arrived : s.cluster.link j i = p :: tail)
      (handled : site.deliver i (s.plugin i) p = some plugin) :
      Move s i { s with
        cluster := (s.cluster.setManager i m).take i j p tail
        plugin := Function.update s.plugin i plugin }
  | drawReturns {i : Host n} {m : Gadget.Manager (Host n)} (here : s.thread i = .updateDraw)
      (idle : m.phase = .idle) :
      Move s i { s.setThread site i .afterDraw with cluster := completed s.cluster i m }
  | postReturns {i : Host n} {m : Gadget.Manager (Host n)} (here : s.thread i = .updatePost)
      (idle : m.phase = .idle) :
      Move s i { s.setThread site i .beforeDraw with
        cluster := completed s.cluster i m
        shown := Function.update s.shown i (s.shown i ++ [s.plugin i]) }
  | plugin {i j : Host n} {bytes : List UInt8}
      (ignored : ∀ (a : Host n) (plugin : Plugin τ π),
        site.deliver a plugin (.other bytes) = some plugin) :
      Move s i { s with cluster := s.cluster.put i j (.other bytes) }

variable {s t : State n τ π site.type}

theorem Thread.updating_cases {thread : Thread n} (here : thread.updating) :
    thread = .updateDraw ∨ thread = .updatePost := by
  cases thread with
  | updateDraw => exact Or.inl rfl
  | updatePost => exact Or.inr rfl
  | beforeDraw | sendAck drawn nodes id device_ack | afterDraw | postPostFrame servers
  | sendData nodes id servers => cases here

omit [DecidableEq π] in
theorem State.go_eq_some {i : Host n} {act : Gadget.Act (Host n) (List UInt8)}
    (stepped : s.go site i act = some t) :
    (s.thread i).updating ∧ ∃ d, s.cluster.step act = some d ∧ t = { s with cluster := d } := by
  simp only [State.go] at stepped
  split at stepped
  next here =>
    obtain ⟨d, moved, rfl⟩ := Option.map_eq_some_iff.mp stepped
    exact ⟨here, d, moved, rfl⟩
  next => cases stepped

omit [DecidableEq π] in
theorem State.sendTo_eq_some {j : Host n} {packet : Packet} {thread : Thread n}
    (stepped : s.sendTo site j packet thread = some t) :
    ∃ bytes, Cluster.send packet [] = some bytes ∧
      s.cluster.step (.send .master j bytes) = some (s.cluster.put .master j (.other bytes)) ∧
      t = { s.setThread site .master thread with
        cluster := s.cluster.put .master j (.other bytes) } := by
  obtain ⟨bytes, done, stepped⟩ := Option.bind_eq_some_iff.mp stepped
  obtain ⟨d, moved, rfl⟩ := Option.map_eq_some_iff.mp stepped
  obtain ⟨-, rfl⟩ := Gadget.Cluster.step_send moved
  exact ⟨bytes, done, moved, rfl⟩

omit [DecidableEq π] in
theorem State.returned_cluster (i : Host n) : (s.returned site i).cluster = s.cluster := by
  rw [State.returned]
  split <;> rfl

omit [DecidableEq π] in
theorem State.returned_updatePost {i : Host n} (here : s.thread i = .updatePost) :
    s.returned site i = { s.setThread site i .beforeDraw with
      shown := Function.update s.shown i (s.shown i ++ [s.plugin i]) } := by
  rw [State.returned, here]

omit [DecidableEq π] in
theorem State.returned_updateDraw {i : Host n} (here : s.thread i = .updateDraw) :
    s.returned site i = s.setThread site i .afterDraw := by
  rw [State.returned, here]

theorem move_of_configAdd (lock : Gadget.Cluster.LockStep starNeighbours s.cluster) {id : GUID}
    (proper : Proper site s (.configAdd id)) (stepped : s.configAdd site id = some t) :
    Move site s .master t := by
  have added (drawn : Bool) (rests : s.thread .master = resting drawn)
      (stepped : s.addDeviceServer site drawn id = some t) : Move site s .master t := by
    obtain ⟨device_ack, created, rfl⟩ := Option.map_eq_some_iff.mp stepped
    rw [Outgoing.create_of_small _ proper.2.2.2] at created
    obtain rfl := Option.some.inj created
    -- in lock step the master has all its neighbours as peers
    rw [(lock.steady .master).peers]
    exact .configures rests proper
  simp only [State.configAdd] at stepped
  split at stepped
  next rests => exact added false rests stepped
  next rests => exact added true rests stepped
  next => cases stepped

theorem move_of_updateLocalData (lock : Gadget.Cluster.LockStep starNeighbours s.cluster)
    (proper : Proper site s .updateLocalData) (stepped : s.updateLocalData site = some t) :
    Move site s .master t := by
  simp only [State.updateLocalData] at stepped
  split at stepped
  next id servers here =>
    obtain ⟨packet, done, rfl⟩ := Option.map_eq_some_iff.mp stepped
    rw [(lock.steady .master).peers]
    exact .serialized here (proper id (by rw [here]; rfl)) done
  next => cases stepped

theorem move_of_sendNext (stepped : s.sendNext site = some t) : Move site s .master t := by
  simp only [State.sendNext] at stepped
  split at stepped
  next drawn id device_ack here =>
    obtain rfl := Option.some.inj stepped
    exact .acknowledgedAll here
  next drawn j nodes id device_ack here =>
    obtain ⟨bytes, done, -, rfl⟩ := State.sendTo_eq_some stepped
    exact .acknowledged here done
  next id servers here =>
    obtain rfl := Option.some.inj stepped
    exact .sentAll here
  next j nodes id servers here =>
    obtain ⟨bytes, done, -, rfl⟩ := State.sendTo_eq_some stepped
    exact .sent here done
  next => cases stepped

theorem move_of_update {i : Host n} (stepped : s.update site i = some t) : Move site s i t := by
  simp only [State.update] at stepped
  split at stepped
  next here =>
    obtain ⟨d, moved, rfl⟩ := Option.map_eq_some_iff.mp stepped
    obtain ⟨m, began, rfl⟩ := Gadget.Cluster.step_update moved
    exact .begins (Or.inl ⟨here, rfl⟩) (Gadget.Manager.busy_of_update began)
  next here =>
    obtain ⟨d, moved, rfl⟩ := Option.map_eq_some_iff.mp stepped
    obtain ⟨m, began, rfl⟩ := Gadget.Cluster.step_update moved
    exact .begins (Or.inr ⟨here, rfl⟩) (Gadget.Manager.busy_of_update began)
  next => cases stepped

theorem move_of_recvNext (lock : Gadget.Cluster.LockStep starNeighbours s.cluster) {i : Host n}
    (stepped : s.recvNext site i = some t) : Move site s i t := by
  simp only [State.recvNext] at stepped
  split at stepped
  next here =>
    split at stepped
    next count done ready j rest receiving =>
      obtain ⟨p, head, stepped⟩ := Option.bind_eq_some_iff.mp stepped
      obtain ⟨plugin, handled, stepped⟩ := Option.bind_eq_some_iff.mp stepped
      obtain ⟨d, moved, rfl⟩ := Option.map_eq_some_iff.mp stepped
      obtain ⟨_, _, _, _, _, q, tail, m, receiving', arrived, went, rfl⟩ :=
        Gadget.Cluster.step_recv moved
      obtain ⟨-, -, -, rfl, -⟩ := Gadget.Phase.receive.inj (receiving.symm.trans receiving')
      rw [arrived] at head
      obtain rfl := Option.some.inj head
      -- a slave hears from the master only, and before its end block
      obtain ⟨-, neighbour, open_, -⟩ := (lock.steady i).recv receiving q went
      exact .receives here (Gadget.Manager.busy_of_recv went) neighbour open_ arrived handled
    next => cases stepped
  next => cases stepped

/-- The update ends here, or the thread stays in it. -/
theorem move_of_nextTest {i : Host n} (stepped : s.nextTest site i = some t) :
    Move site s i t := by
  obtain ⟨u, went, rfl⟩ := Option.map_eq_some_iff.mp stepped
  obtain ⟨here, d, moved, rfl⟩ := State.go_eq_some went
  obtain ⟨m, -, ⟨idle, rfl⟩ | ⟨busy, rfl⟩⟩ := Gadget.Cluster.step_next moved
  · simp only [Gadget.Cluster.setManager_self, idle, if_true]
    let u : State n τ π site.type := { s with cluster := completed s.cluster i m }
    show Move site s i (u.returned site i)
    rcases Thread.updating_cases here with draw | post
    · rw [State.returned_updateDraw (s := u) draw]
      exact .drawReturns draw idle
    · rw [State.returned_updatePost (s := u) post]
      exact .postReturns post idle
  · simp only [Gadget.Cluster.setManager_self, busy, if_false]
    exact .goesOn here busy

theorem move_of_pluginSend {i j : Host n} {out : Outgoing}
    (stepped : s.pluginSend site i j out = some t) : Move site s i t := by
  simp only [State.pluginSend] at stepped
  split at stepped
  next allowed =>
    obtain ⟨other, -, fits⟩ := allowed
    obtain ⟨packet, created, stepped⟩ := Option.bind_eq_some_iff.mp stepped
    obtain ⟨bytes, sent, stepped⟩ := Option.bind_eq_some_iff.mp stepped
    obtain ⟨d, moved, rfl⟩ := Option.map_eq_some_iff.mp stepped
    obtain ⟨-, rfl⟩ := Gadget.Cluster.step_send moved
    -- what fits into a packet arrives as it was sent
    obtain rfl := Option.some.inj ((out.create_of_small (site.order i) fits).symm.trans created)
    obtain rfl := Option.some.inj ((out.send_of_small fits []).symm.trans sent)
    exact .plugin fun a plugin => deliver_other other fits
  next => cases stepped

theorem move_of_step (lock : Gadget.Cluster.LockStep starNeighbours s.cluster)
    {act : Act n site.type} (proper : Proper site s act) (stepped : s.step site act = some t) :
    ∃ i, Move site s i t := by
  cases act with
  | change id device =>
    simp only [State.step, State.change] at stepped
    split at stepped
    next rests =>
      obtain rfl := Option.some.inj stepped
      exact ⟨_, .change false id device rests⟩
    next rests =>
      obtain rfl := Option.some.inj stepped
      exact ⟨_, .change true id device rests⟩
    next => cases stepped
  | configAdd id => exact ⟨_, move_of_configAdd lock proper stepped⟩
  | postPostFrame i =>
    cases i with
    | master =>
      simp only [State.step, State.postPostFrame] at stepped
      split at stepped
      next rests =>
        obtain rfl := Option.some.inj stepped
        exact ⟨_, .posts rests⟩
      next => cases stepped
    | slave k =>
      simp only [State.step, State.postPostFrame] at stepped
      split at stepped
      next rests =>
        obtain rfl := Option.some.inj stepped
        exact ⟨_, .postPostFrame rests⟩
      next => cases stepped
  | updateLocalData => exact ⟨_, move_of_updateLocalData lock proper stepped⟩
  | send => exact ⟨_, move_of_sendNext stepped⟩
  | update i => exact ⟨_, move_of_update stepped⟩
  | sendEndBlock i =>
    obtain ⟨here, d, moved, rfl⟩ := State.go_eq_some stepped
    obtain ⟨temp, j, rest, count, m, -, went, rfl⟩ := Gadget.Cluster.step_sendEndBlock moved
    exact ⟨_, .ends temp here (Gadget.Manager.busy_of_sendEndBlock went)⟩
  | select i answer =>
    obtain ⟨here, d, moved, rfl⟩ := State.go_eq_some stepped
    obtain ⟨-, m, went, rfl⟩ := Gadget.Cluster.step_select moved
    exact ⟨_, .goesOn here (Gadget.Manager.busy_of_select went)⟩
  | recv i => exact ⟨_, move_of_recvNext lock stepped⟩
  | next i => exact ⟨_, move_of_nextTest stepped⟩
  | plugin i j out => exact ⟨_, move_of_pluginSend stepped⟩

/-- The network takes a step of its own or none. -/
theorem cluster_of_step {act : Act n site.type} (stepped : s.step site act = some t) :
    t.cluster = s.cluster ∨ ∃ a, s.cluster.step a = some t.cluster := by
  cases act with
  | change id device =>
    simp only [State.step, State.change] at stepped
    split at stepped <;> cases stepped
    all_goals exact Or.inl rfl
  | configAdd id =>
    have added (drawn : Bool) (stepped : s.addDeviceServer site drawn id = some t) :
        t.cluster = s.cluster := by
      obtain ⟨device_ack, -, rfl⟩ := Option.map_eq_some_iff.mp stepped
      rfl
    simp only [State.step, State.configAdd] at stepped
    split at stepped
    · exact Or.inl (added _ stepped)
    · exact Or.inl (added _ stepped)
    · cases stepped
  | postPostFrame i =>
    cases i with
    | master | slave k =>
      simp only [State.step, State.postPostFrame] at stepped
      split at stepped <;> cases stepped
      exact Or.inl rfl
  | updateLocalData =>
    simp only [State.step, State.updateLocalData] at stepped
    split at stepped
    · obtain ⟨packet, -, rfl⟩ := Option.map_eq_some_iff.mp stepped
      exact Or.inl rfl
    · cases stepped
  | send =>
    simp only [State.step, State.sendNext] at stepped
    split at stepped
    · cases stepped
      exact Or.inl rfl
    · obtain ⟨bytes, -, moved, rfl⟩ := State.sendTo_eq_some stepped
      exact Or.inr ⟨_, moved⟩
    · cases stepped
      exact Or.inl rfl
    · obtain ⟨bytes, -, moved, rfl⟩ := State.sendTo_eq_some stepped
      exact Or.inr ⟨_, moved⟩
    · cases stepped
  | update i =>
    simp only [State.step, State.update] at stepped
    split at stepped
    · obtain ⟨d, moved, rfl⟩ := Option.map_eq_some_iff.mp stepped
      exact Or.inr ⟨_, moved⟩
    · obtain ⟨d, moved, rfl⟩ := Option.map_eq_some_iff.mp stepped
      exact Or.inr ⟨_, moved⟩
    · cases stepped
  | sendEndBlock i | select i answer =>
    obtain ⟨-, d, moved, rfl⟩ := State.go_eq_some stepped
    exact Or.inr ⟨_, moved⟩
  | recv i =>
    simp only [State.step, State.recvNext] at stepped
    split at stepped
    · split at stepped
      · obtain ⟨p, -, stepped⟩ := Option.bind_eq_some_iff.mp stepped
        obtain ⟨plugin, -, stepped⟩ := Option.bind_eq_some_iff.mp stepped
        obtain ⟨d, moved, rfl⟩ := Option.map_eq_some_iff.mp stepped
        exact Or.inr ⟨_, moved⟩
      · cases stepped
    · cases stepped
  | next i =>
    obtain ⟨u, went, rfl⟩ := Option.map_eq_some_iff.mp stepped
    obtain ⟨-, d, moved, rfl⟩ := State.go_eq_some went
    refine Or.inr ⟨.next i, ?_⟩
    split
    · rw [State.returned_cluster]
      exact moved
    · exact moved
  | plugin i j out =>
    simp only [State.step, State.pluginSend] at stepped
    split at stepped
    · obtain ⟨packet, -, stepped⟩ := Option.bind_eq_some_iff.mp stepped
      obtain ⟨bytes, -, stepped⟩ := Option.bind_eq_some_iff.mp stepped
      obtain ⟨d, moved, rfl⟩ := Option.map_eq_some_iff.mp stepped
      exact Or.inr ⟨_, moved⟩
    · cases stepped

theorem lockStep_of_step (lock : Gadget.Cluster.LockStep starNeighbours s.cluster)
    {act : Act n site.type} (stepped : s.step site act = some t) :
    Gadget.Cluster.LockStep starNeighbours t.cluster := by
  rcases cluster_of_step stepped with same | ⟨a, moved⟩
  · rwa [same]
  · exact Gadget.Cluster.lockStep_step Gadget.starNeighbours_nodup lock a moved

/-! ### What other nodes see of it -/

/-- What belongs to the node is as it was. -/
structure Same (s t : State n τ π site.type) (a : Host n) : Prop where
  manager : t.cluster.manager a = s.cluster.manager a
  sent : t.cluster.sent a = s.cluster.sent a
  handled : t.cluster.handled a = s.cluster.handled a
  updates : t.cluster.updates a = s.cluster.updates a
  thread : t.thread a = s.thread a
  plugin : t.plugin a = s.plugin a
  shown : t.shown a = s.shown a

omit [DecidableEq π] in
theorem State.setThread_self (i : Host n) (thread : Thread n) :
    (s.setThread site i thread).thread i = thread := Function.update_self ..

omit [DecidableEq π] in
theorem State.setThread_of_ne {i a : Host n} (thread : Thread n) (other : a ≠ i) :
    (s.setThread site i thread).thread a = s.thread a := Function.update_of_ne other ..

omit [DecidableEq π] in
@[simp] theorem State.setThread_mDeviceServers (i : Host n) (thread : Thread n) :
    (s.setThread site i thread).mDeviceServers = s.mDeviceServers := rfl

omit [DecidableEq π] in
@[simp] theorem State.setThread_posted (i : Host n) (thread : Thread n) :
    (s.setThread site i thread).posted = s.posted := rfl

theorem put_sent_of_ne (c : Gadget.Cluster (Host n) (List UInt8)) {i j a : Host n}
    (p : Gadget.Packet (List UInt8)) (other : a ≠ i) : (c.put i j p).sent a = c.sent a := by
  simp [Gadget.Cluster.put, other]

theorem take_handled_of_ne (c : Gadget.Cluster (Host n) (List UInt8)) {i j a : Host n}
    (p : Gadget.Packet (List UInt8)) (tail : List (Gadget.Packet (List UInt8))) (other : a ≠ i) :
    (c.take i j p tail).handled a = c.handled a := by
  simp [Gadget.Cluster.take, other]

theorem Move.same {i a : Host n} (move : Move site s i t) (other : a ≠ i) : Same s t a := by
  have moved (m : Gadget.Manager (Host n)) :
      (s.cluster.setManager i m).manager a = s.cluster.manager a :=
    s.cluster.setManager_of_ne m other
  cases move with
  | change drawn id device rests => exact ⟨rfl, rfl, rfl, rfl, rfl, rfl, rfl⟩
  | configures rests proper | posts rests | postPostFrame rests | serialized here fits done
  | acknowledgedAll here | sentAll here =>
    exact ⟨rfl, rfl, rfl, rfl, State.setThread_of_ne _ other, rfl, rfl⟩
  | acknowledged here done | sent here done =>
    exact ⟨rfl, put_sent_of_ne _ _ other, rfl, rfl, State.setThread_of_ne _ other, rfl, rfl⟩
  | begins here busy =>
    exact ⟨moved _, rfl, rfl, rfl, State.setThread_of_ne _ other, rfl, rfl⟩
  | goesOn here busy => exact ⟨moved _, rfl, rfl, rfl, rfl, rfl, rfl⟩
  | ends frameNum here busy => exact ⟨moved _, put_sent_of_ne _ _ other, rfl, rfl, rfl, rfl, rfl⟩
  | receives here busy neighbour open_ arrived handled =>
    exact ⟨moved _, rfl, take_handled_of_ne _ _ _ other, rfl, rfl,
      Function.update_of_ne other .., rfl⟩
  | drawReturns here idle =>
    exact ⟨moved _, rfl, rfl, Function.update_of_ne other .., State.setThread_of_ne _ other, rfl,
      rfl⟩
  | postReturns here idle =>
    exact ⟨moved _, rfl, rfl, Function.update_of_ne other .., State.setThread_of_ne _ other, rfl,
      Function.update_of_ne other ..⟩
  | plugin ignored => exact ⟨rfl, put_sent_of_ne _ _ other, rfl, rfl, rfl, rfl, rfl⟩

/-- Only the master has servers. -/
theorem Move.of_slave {i : Host n} (move : Move site s i t) (slave : i ≠ .master) :
    t.mDeviceServers = s.mDeviceServers ∧ t.devices = s.devices ∧
      t.mDataPacket = s.mDataPacket ∧ t.posted = s.posted := by
  cases move with
  | change drawn id device rests | configures rests proper | posts rests | serialized here fits done
  | acknowledged here done | acknowledgedAll here | sent here done | sentAll here =>
    exact absurd rfl slave
  | _ => exact ⟨rfl, rfl, rfl, rfl⟩

/-! ### The updates of a node -/

/-- The second half of a frame follows the return of `preDraw`. -/
def Thread.second : Thread n → Nat
  | .sendAck drawn _ _ _ => drawn.toNat
  | .afterDraw | .postPostFrame _ | .sendData .. | .updatePost => 1
  | .beforeDraw | .updateDraw => 0

@[simp] theorem updating_resting (drawn : Bool) : (resting drawn : Thread n).updating = false := by
  cases drawn <;> rfl

@[simp] theorem second_resting (drawn : Bool) :
    (resting drawn : Thread n).second = drawn.toNat := by
  cases drawn <;> rfl

/-- The manager of a node is at work while the thread is in `update`, and there are two updates
in a frame. -/
structure Paced (s : State n τ π site.type) (i : Host n) : Prop where
  idle : (s.cluster.manager i).phase = .idle ↔ (s.thread i).updating = false
  rounds : s.cluster.updates i = 2 * (s.shown i).length + (s.thread i).second

omit [DecidableEq π] in
theorem Paced.of_same {a : Host n} (paced : Paced s a) (same : Same s t a) : Paced t a := by
  constructor
  · rw [same.manager, same.thread]
    exact paced.idle
  · rw [same.updates, same.thread, same.shown]
    exact paced.rounds

omit [DecidableEq π] in
/-- The thread goes on to a place that is like the one before. -/
theorem Paced.goesOn {i : Host n} {before : Thread n} (paced : Paced s i)
    (here : s.thread i = before) (updating : (t.thread i).updating = before.updating)
    (second : (t.thread i).second = before.second)
    (manager : t.cluster.manager i = s.cluster.manager i)
    (updates : t.cluster.updates i = s.cluster.updates i) (shown : t.shown i = s.shown i) :
    Paced t i := by
  subst here
  constructor
  · rw [manager, updating]
    exact paced.idle
  · rw [updates, shown, second]
    exact paced.rounds

omit [DecidableEq π] in
/-- One more update is complete. -/
theorem Paced.completed {i : Host n} {m : Gadget.Manager (Host n)} {thread : Thread n}
    (shown : Host n → List (Plugin τ π)) (idle : m.phase = .idle)
    (rests : thread.updating = false)
    (rounds : s.cluster.updates i + 1 = 2 * (shown i).length + thread.second) :
    Paced { s.setThread site i thread with
      cluster := RemoteInput.completed s.cluster i m
      shown := shown } i := by
  have counted : (RemoteInput.completed s.cluster i m).updates i = s.cluster.updates i + 1 :=
    Function.update_self ..
  have now := State.setThread_self (s := s) i thread
  constructor
  · have stopped : ((RemoteInput.completed s.cluster i m).manager i).phase = .idle := by
      rw [← idle]
      exact congrArg _ (s.cluster.setManager_self i m)
    exact iff_of_true stopped (by rw [now, rests])
  · rw [counted, now]
    exact rounds

theorem Move.paced {i : Host n} (move : Move site s i t) (paced : ∀ a, Paced s a) (a : Host n) :
    Paced t a := by
  by_cases other : a = i
  · subst other
    have own := paced a
    cases move with
    | change drawn id device rests => exact ⟨own.idle, own.rounds⟩
    | configures here proper | posts here | postPostFrame here | serialized here fits done
    | acknowledged here done | acknowledgedAll here | sent here done | sentAll here =>
      -- neither `update` nor the second half of the frame is entered or left
      refine own.goesOn here ?_ ?_ rfl rfl rfl
      · simp only [State.setThread, Function.update_self, updating_resting]
        rfl
      · simp only [State.setThread, Function.update_self, second_resting]
        rfl
    | begins here busy =>
      obtain ⟨-, rounds⟩ := own
      constructor
      · rcases here with ⟨_, rfl⟩ | ⟨_, rfl⟩ <;> simp [State.setThread, Thread.updating, busy]
      · rcases here with ⟨now, rfl⟩ | ⟨now, rfl⟩ <;>
          simpa [State.setThread, Thread.second, now] using rounds
    | goesOn here busy => exact ⟨by simp [busy, here], own.rounds⟩
    | ends frameNum here busy =>
      exact ⟨by simp [Gadget.Cluster.put, busy, here], own.rounds⟩
    | receives here busy neighbour open_ arrived handled =>
      exact ⟨by simp [Gadget.Cluster.take, busy, here], own.rounds⟩
    | drawReturns here idle =>
      have rounds := own.rounds
      rw [here] at rounds
      exact Paced.completed s.shown idle rfl (by rw [rounds]; rfl)
    | postReturns here idle =>
      have rounds := own.rounds
      rw [here] at rounds
      apply Paced.completed _ idle rfl
      rw [Function.update_self, List.length_append, rounds]
      simp only [Thread.second, List.length_singleton]
      omega
    | plugin ignored => exact ⟨own.idle, own.rounds⟩
  · exact (paced a).of_same (move.same other)

/-! ### The packets of the slaves -/

/-- The packets that a slave has sent change no plugin. -/
def Silent (s : State n τ π site.type) (k : Fin n) : Prop :=
  ∀ j, ∀ p ∈ s.cluster.sent (.slave k) j, ∀ (a : Host n) (plugin : Plugin τ π),
    site.deliver a plugin p = some plugin

theorem mem_put_sent {c : Gadget.Cluster (Host n) (List UInt8)} {i j a b : Host n}
    {p q : Gadget.Packet (List UInt8)} (member : q ∈ (c.put i j p).sent a b) :
    q ∈ c.sent a b ∨ q = p := by
  simp only [Gadget.Cluster.put] at member
  split at member
  · simpa using member
  · exact Or.inl member

theorem Move.silent {i : Host n} (move : Move site s i t) {k : Fin n} (silent : Silent s k) :
    Silent t k := by
  by_cases other : Host.slave k = i
  · subst other
    cases move with
    | postPostFrame | begins | goesOn | receives | drawReturns | postReturns => exact silent
    | ends frameNum here busy =>
      intro b p member a plugin
      rcases mem_put_sent member with old | rfl
      · exact silent b p old a plugin
      · rfl
    | plugin ignored =>
      intro b p member a plugin
      rcases mem_put_sent member with old | rfl
      · exact silent b p old a plugin
      · exact ignored a plugin
  · rw [Silent, (move.same other).sent]
    exact silent

end Moves

end VRJuggler.RemoteInput
