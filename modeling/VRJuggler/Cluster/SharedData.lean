import VRJuggler.Cluster.ApplicationData
import VRJuggler.Gadget.LockStep
import VRJuggler.Io.ReadBack

/-!
# Shared application data

When a call of `preDraw` returns on a node of a star cluster, the node's objects are those that
the master had at its call of the same number. The packets of a frame are cut out of the stream
by the end blocks, and the updates of the nodes are in lock-step; what is kept along a run is
which objects the packets of each frame bring.
-/
namespace VRJuggler.ApplicationData

open VRJuggler (ByteOrder)
open VRJuggler.Cluster (GUID Outgoing)
open VRJuggler.Gadget (Host starNeighbours)
open VRJuggler.Io

variable {n : Nat} {V : GUID → Type} {object : (id : GUID) → SerializableObject (V id)}
  {ids : List GUID} {order : Host n → ByteOrder} {behind : Nat → UInt8}

/-! ## What packets bring -/

/-- An object reads back what it wrote, whatever it was before. -/
def Inverse (object : (id : GUID) → SerializableObject (V id)) : Prop :=
  ∀ (id : GUID) {σ : Type} (rd : ObjectReader σ) (old value : V id),
    ReadsBack rd ((object id).readObject rd old) ((object id).writeObject value) value

/-- The data of an object changes no other object. -/
theorem handlePacket_other {host : ByteOrder} {received : Cluster.Node.Received}
    {objects objects' : Values V} {id other : GUID} (data : received.body = .dataPacket id)
    (handled : handlePacket object ids behind host received objects = some objects')
    (differs : other ≠ id) : objects' other = objects other := by
  rw [handlePacket] at handled
  split at handled
  · rw [data] at handled
    simp only at handled
    split at handled
    · split at handled
      · obtain rfl := Option.some.inj handled
        exact Function.update_of_ne differs ..
      · cases handled
    · obtain rfl := Option.some.inj handled
      rfl
  · obtain rfl := Option.some.inj handled
    rfl

theorem handlePacket_data {host : ByteOrder} {received : Cluster.Node.Received}
    {objects : Values V} {id : GUID} {value : V id} (plugin : received.mPluginId = mPluginGUID)
    (data : received.body = .dataPacket id) (registered : id ∈ ids)
    (read : ((object id).readObject (BufferObjectReader.reader behind host) (objects id)
      received.mPacketReader).1 = .ok value) :
    handlePacket object ids behind host received objects =
      some (Function.update objects id value) := by
  rw [handlePacket, if_pos plugin, data]
  simp only [registered, if_true]
  rw [read]

/-- A packet that is short enough is received as it was sent. -/
theorem deliver_sent {host : ByteOrder} {out : Outgoing} (small : out.size < 2 ^ 32)
    (objects : Values V) :
    deliver object ids behind host objects (.other out.bytes) =
      handlePacket object ids behind host out.received objects := by
  obtain ⟨requested, received⟩ := Cluster.Node.recvPacket_append host behind small
    (.connected out.bytes) (List.append_nil _).symm
  rw [deliver, received]

theorem deliver_data (inverse : Inverse object) {host : ByteOrder} {id : GUID}
    (registered : id ∈ ids) {value : V id}
    (small : (Outgoing.dataPacket mPluginGUID id ((object id).writeObject value)).size < 2 ^ 32)
    (objects : Values V) :
    deliver object ids behind host objects
        (.other (Outgoing.dataPacket mPluginGUID id ((object id).writeObject value)).bytes) =
      some (Function.update objects id value) := by
  obtain ⟨t, replays, -⟩ := Cluster.Node.replays_object host behind small
  have read := inverse id _ (objects id) value _ t replays
  rw [deliver_sent small]
  exact handlePacket_data rfl rfl registered (congrArg Prod.fst read)

theorem deliver_plugin {host : ByteOrder} {out : Outgoing} (other : out.pluginId ≠ mPluginGUID)
    (small : out.size < 2 ^ 32) (objects : Values V) :
    deliver object ids behind host objects (.other out.bytes) = some objects := by
  have other' : out.received.mPluginId ≠ mPluginGUID := other
  rw [deliver_sent small, handlePacket, if_neg other']

/-- A packet that was used before is serialized like a new one. -/
structure Reusable (id : GUID) (packet : Cluster.Packet) : Prop where
  plugin : packet.mPluginId = mPluginGUID
  body : packet.body = .dataPacket id
  header : ∀ payload, packet.mHeader.withLength payload =
    (Outgoing.dataPacket mPluginGUID id []).header.withLength payload

theorem reusable_createPacket (id : GUID) : Reusable id (createPacket id) :=
  ⟨rfl, rfl, fun _ => rfl⟩

theorem reusable_sent (id : GUID) (calls : List Call) :
    Reusable id (Outgoing.dataPacket mPluginGUID id calls).packet := ⟨rfl, rfl, fun _ => rfl⟩

theorem dataPacket_calls (id : GUID) (calls : List Call) :
    Cluster.DataPacket.calls mPluginGUID id calls =
      Cluster.DataPacket.calls mPluginGUID id [] ++ calls := by
  simp [Cluster.DataPacket.calls]

theorem calls_fit {id : GUID} {calls : List Call}
    (small : (Outgoing.dataPacket mPluginGUID id calls).size < 2 ^ 32) :
    ∀ call ∈ Cluster.DataPacket.calls mPluginGUID id calls, call.Fits := by
  rw [dataPacket_calls]
  exact fits_of_small ((Nat.le_add_left _ _).trans_lt small)

theorem serialize_reused {host : ByteOrder} {id : GUID} {packet : Cluster.Packet}
    (reusable : Reusable id packet) {calls : List Call}
    (fits : ∀ call ∈ Cluster.DataPacket.calls mPluginGUID id calls, call.Fits) :
    serialize host packet calls = some (Outgoing.dataPacket mPluginGUID id calls).packet := by
  rw [serialize, reusable.body]
  simp only [reusable.plugin]
  rw [Cluster.serialize_eq host _ _ _ fits, reusable.header, dataPacket_calls]
  rfl

/-! ## What a frame brings -/

section Frames

variable (object ids behind) (host : ByteOrder)

/-- The packets are handled in turn, and this is what becomes of the objects. -/
def Brings (packets : List (Gadget.Packet (List UInt8))) (f : Values V → Values V) : Prop :=
  ∀ objects, packets.foldlM (deliver object ids behind host) objects = some (f objects)

variable {object ids behind host}

theorem Brings.snoc {packets : List (Gadget.Packet (List UInt8))} {f g h : Values V → Values V}
    {p : Gadget.Packet (List UInt8)} (front : Brings object ids behind host packets f)
    (last : ∀ objects, deliver object ids behind host objects p = some (g objects))
    (combined : ∀ objects, g (f objects) = h objects) :
    Brings object ids behind host (packets ++ [p]) h := by
  intro objects
  rw [List.foldlM_append, front objects, ← combined]
  simp [last]

variable (ids) in
/-- What the packets of update `u` bring while the servers of `left` are still to send in the last
`preDraw`: those of `preDraw` number `m` come in update `2 * m`. -/
def effect (drawn : List (Values V)) (left : List GUID) (u : Nat) (objects : Values V) :
    Values V := fun id =>
  match drawn[u / 2]? with
  | some values =>
    if u % 2 = 0 ∧ id ∈ ids ∧ (u / 2 + 1 = drawn.length → id ∉ left) then values id
    else objects id
  | none => objects id

/-- A packet that is for others may come at any time. -/
theorem Brings.ignored {packets : List (Gadget.Packet (List UInt8))} {f : Values V → Values V}
    {p : Gadget.Packet (List UInt8)} {u : Nat}
    (brings : Brings object ids behind host (segment Gadget.Packet.isEndBlock u packets) f)
    (ignored : ∀ objects, deliver object ids behind host objects p = some objects) :
    Brings object ids behind host (segment Gadget.Packet.isEndBlock u (packets ++ [p])) f := by
  rw [segment_snoc]
  split
  · exact brings.snoc ignored fun _ => rfl
  · rwa [List.append_nil]

variable {drawn : List (Values V)}

/-- A call of `preDraw` has sent nothing at its beginning. -/
theorem effect_draws (values : Values V) (u : Nat) :
    effect ids (drawn ++ [values]) ids u = effect ids drawn [] u := by
  funext objects id
  have length : (drawn ++ [values]).length = drawn.length + 1 := by simp
  simp only [effect, length]
  rcases lt_trichotomy (u / 2) drawn.length with before | now | after
  · rw [List.getElem?_append_left before, List.getElem?_eq_getElem before]
    have earlier : u / 2 ≠ drawn.length := before.ne
    simp [earlier]
  · have next : (drawn ++ [values])[u / 2]? = some values := by simp [now]
    rw [next, List.getElem?_eq_none now.ge]
    simp [now]
  · rw [List.getElem?_eq_none after.le, List.getElem?_eq_none (length.trans_le after)]

/-- What is still to send is of no account for the other updates. -/
theorem effect_of_ne {u : Nat} (left left' : List GUID) (other : u + 2 ≠ 2 * drawn.length) :
    effect ids drawn left u = effect ids drawn left' u := by
  funext objects id
  simp only [effect]
  split
  · by_cases even : u % 2 = 0
    · have earlier : u / 2 + 1 ≠ drawn.length := by omega
      simp [earlier]
    · simp [even]
  · rfl

/-- The object of one server more is sent. -/
theorem effect_sent {u : Nat} {values : Values V} {id : GUID} {servers : List GUID}
    (now : u + 2 = 2 * drawn.length) (last : drawn.getLast? = some values)
    (registered : id ∈ ids) (later : id ∉ servers) (objects : Values V) :
    Function.update (effect ids drawn (id :: servers) u objects) id (values id) =
      effect ids drawn servers u objects := by
  have number : u / 2 = drawn.length - 1 := by omega
  have same : u / 2 + 1 = drawn.length := by omega
  have even : u % 2 = 0 := by omega
  have drawn' : drawn[u / 2]? = some values := by rw [number, ← List.getLast?_eq_getElem?, last]
  funext a
  by_cases here : a = id
  · subst here
    rw [Function.update_self]
    simp [effect, drawn', even, registered, later]
  · rw [Function.update_of_ne here]
    simp [effect, drawn', even, here]

end Frames

/-! ## What a step does -/

section Moves

variable (object ids order behind)

/-- The data packet of the object that is serialized next has a length that the header can
hold. -/
def Small (s : State n V) : Act n V → Prop
  | .serialize => ∀ id servers, s.thread .master = .preDraw (id :: servers) →
      (Outgoing.dataPacket mPluginGUID id ((object id).writeObject (s.objects .master id))).size <
        2 ^ 32
  | .change .. | .preDraw _ | .send | .postPostFrame _ | .update _ | .sendEndBlock _
  | .select .. | .recv _ | .next _ | .plugin .. => True

/-- The manager of `i` has returned from `update`. -/
def completed (c : Gadget.Cluster (Host n) (List UInt8)) (i : Host n)
    (m : Gadget.Manager (Host n)) : Gadget.Cluster (Host n) (List UInt8) :=
  { c.setManager i m with updates := Function.update c.updates i (c.updates i + 1) }

/-- The steps of a node, with what is known of it. -/
inductive Move (s : State n V) : Host n → State n V → Prop where
  | change {i : Host n} (id : GUID) (value : V id)
      (rests : s.thread i = .beforeDraw ∨ s.thread i = .afterDraw) :
      Move s i { s with
        objects := Function.update s.objects i (Function.update (s.objects i) id value) }
  | draws (rests : s.thread .master = .beforeDraw) :
      Move s .master { s.setThread .master (.preDraw ids) with
        drawn := s.drawn ++ [s.objects .master] }
  | preDraw {k : Fin n} (rests : s.thread (.slave k) = .beforeDraw) :
      Move s (.slave k) (s.setThread (.slave k) (.preDraw []))
  | serialized {id : GUID} {servers : List GUID} {packet : Cluster.Packet}
      (here : s.thread .master = .preDraw (id :: servers))
      (small : (Outgoing.dataPacket mPluginGUID id
        ((object id).writeObject (s.objects .master id))).size < 2 ^ 32)
      (done : serialize (order .master) (s.mDataPacket id)
        ((object id).writeObject (s.objects .master id)) = some packet) :
      Move s .master { s.setThread .master (.sendToAll (starNeighbours .master) id servers) with
        mDataPacket := Function.update s.mDataPacket id packet }
  | sent {j : Host n} {nodes : List (Host n)} {id : GUID} {servers : List GUID}
      {bytes : List UInt8} (here : s.thread .master = .sendToAll (j :: nodes) id servers)
      (done : Cluster.send (s.mDataPacket id) [] = some bytes) :
      Move s .master { s.setThread .master (.sendToAll nodes id servers) with
        cluster := s.cluster.put .master j (.other bytes) }
  | sentAll {id : GUID} {servers : List GUID}
      (here : s.thread .master = .sendToAll [] id servers) :
      Move s .master (s.setThread .master (.preDraw servers))
  | begins {i : Host n} {m : Gadget.Manager (Host n)} {thread : Thread n}
      (here : (s.thread i = .preDraw [] ∧ thread = .updateDraw) ∨
        (s.thread i = .afterDraw ∧ thread = .updatePost)) (busy : m.phase ≠ .idle) :
      Move s i { s.setThread i thread with cluster := s.cluster.setManager i m }
  | goesOn {i : Host n} {m : Gadget.Manager (Host n)} (here : (s.thread i).updating)
      (busy : m.phase ≠ .idle) :
      Move s i { s with cluster := s.cluster.setManager i m }
  | ends {i j : Host n} {m : Gadget.Manager (Host n)} (frameNum : Nat)
      (here : (s.thread i).updating) (busy : m.phase ≠ .idle) :
      Move s i { s with cluster := (s.cluster.setManager i m).put i j (.endBlock frameNum) }
  | receives {i j : Host n} {m : Gadget.Manager (Host n)} {p : Gadget.Packet (List UInt8)}
      {tail : List (Gadget.Packet (List UInt8))} {objects : Values V}
      (here : (s.thread i).updating) (busy : m.phase ≠ .idle) (neighbour : j ∈ starNeighbours i)
      (arrived : s.cluster.link j i = p :: tail)
      (handled : deliver object ids behind (order i) (s.objects i) p = some objects) :
      Move s i { s with
        cluster := (s.cluster.setManager i m).take i j p tail
        objects := Function.update s.objects i objects }
  | drawReturns {i : Host n} {m : Gadget.Manager (Host n)} (here : s.thread i = .updateDraw)
      (idle : m.phase = .idle) :
      Move s i { s.setThread i .afterDraw with
        cluster := completed s.cluster i m
        shown := Function.update s.shown i (s.shown i ++ [s.objects i]) }
  | postReturns {i : Host n} {m : Gadget.Manager (Host n)} (here : s.thread i = .updatePost)
      (idle : m.phase = .idle) :
      Move s i { s.setThread i .beforeDraw with cluster := completed s.cluster i m }
  | plugin {i j : Host n} {bytes : List UInt8} (ignored : ∀ host objects,
      deliver object ids behind host objects (.other bytes) = some objects) :
      Move s i { s with cluster := s.cluster.put i j (.other bytes) }

variable {object ids order behind} {s t : State n V}

theorem State.returned_cluster (i : Host n) : (s.returned i).cluster = s.cluster := by
  rw [State.returned]
  split <;> rfl

theorem State.returned_updateDraw {i : Host n} (here : s.thread i = .updateDraw) :
    s.returned i = { s.setThread i .afterDraw with
      shown := Function.update s.shown i (s.shown i ++ [s.objects i]) } := by
  rw [State.returned, here]

theorem State.returned_updatePost {i : Host n} (here : s.thread i = .updatePost) :
    s.returned i = s.setThread i .beforeDraw := by
  rw [State.returned, here]

theorem Thread.updating_cases {thread : Thread n} (here : thread.updating) :
    thread = .updateDraw ∨ thread = .updatePost := by
  cases thread with
  | updateDraw => exact Or.inl rfl
  | updatePost => exact Or.inr rfl
  | beforeDraw | preDraw servers | sendToAll nodes id servers | afterDraw => cases here

theorem State.go_eq_some {i : Host n} {act : Gadget.Act (Host n) (List UInt8)}
    (stepped : s.go i act = some t) :
    (s.thread i).updating ∧ ∃ d, s.cluster.step act = some d ∧ t = { s with cluster := d } := by
  simp only [State.go] at stepped
  split at stepped
  next here =>
    obtain ⟨d, moved, rfl⟩ := Option.map_eq_some_iff.mp stepped
    exact ⟨here, d, moved, rfl⟩
  next => cases stepped

theorem move_of_serializeNext (lock : Gadget.Cluster.LockStep starNeighbours s.cluster)
    (small : Small object s (.serialize : Act n V))
    (stepped : s.step object ids order behind .serialize = some t) :
    Move object ids order behind s .master t := by
  simp only [State.step, State.serializeNext] at stepped
  split at stepped
  next id servers here =>
    obtain ⟨packet, done, rfl⟩ := Option.map_eq_some_iff.mp stepped
    -- in lock step the master has all its neighbours as peers
    rw [(lock.steady .master).peers]
    exact .serialized here (small id servers here) done
  next => cases stepped

theorem move_of_sendNext (stepped : s.step object ids order behind .send = some t) :
    Move object ids order behind s .master t := by
  simp only [State.step, State.sendNext] at stepped
  split at stepped
  next id servers here =>
    obtain rfl := Option.some.inj stepped
    exact .sentAll here
  next j nodes id servers here =>
    obtain ⟨bytes, done, stepped⟩ := Option.bind_eq_some_iff.mp stepped
    obtain ⟨d, moved, rfl⟩ := Option.map_eq_some_iff.mp stepped
    obtain ⟨-, rfl⟩ := Gadget.Cluster.step_send moved
    exact .sent here done
  next => cases stepped

theorem move_of_recvNext (lock : Gadget.Cluster.LockStep starNeighbours s.cluster) {i : Host n}
    (stepped : s.step object ids order behind (.recv i) = some t) :
    Move object ids order behind s i t := by
  simp only [State.step, State.recvNext] at stepped
  split at stepped
  next here =>
    split at stepped
    next count done ready j rest receiving =>
      obtain ⟨p, head, stepped⟩ := Option.bind_eq_some_iff.mp stepped
      obtain ⟨objects, handled, stepped⟩ := Option.bind_eq_some_iff.mp stepped
      obtain ⟨d, moved, rfl⟩ := Option.map_eq_some_iff.mp stepped
      obtain ⟨_, _, _, _, _, q, tail, m, receiving', arrived, went, rfl⟩ :=
        Gadget.Cluster.step_recv moved
      obtain ⟨-, -, -, rfl, -⟩ := Gadget.Phase.receive.inj (receiving.symm.trans receiving')
      rw [arrived] at head
      obtain rfl := Option.some.inj head
      -- a slave hears from the master only
      have neighbour := ((lock.steady i).recv receiving q went).2.1
      exact .receives here (Gadget.Manager.busy_of_recv went) neighbour arrived handled
    next => cases stepped
  next => cases stepped

/-- The update ends here, or the thread stays in it. -/
theorem move_of_next {i : Host n} (stepped : s.step object ids order behind (.next i) = some t) :
    Move object ids order behind s i t := by
  obtain ⟨u, went, rfl⟩ := Option.map_eq_some_iff.mp stepped
  obtain ⟨here, d, moved, rfl⟩ := State.go_eq_some went
  obtain ⟨m, -, ⟨idle, rfl⟩ | ⟨busy, rfl⟩⟩ := Gadget.Cluster.step_next moved
  · simp only [Gadget.Cluster.setManager_self, idle, if_true]
    let u : State n V := { s with cluster := completed s.cluster i m }
    show Move object ids order behind s i (u.returned i)
    rcases Thread.updating_cases here with draw | post
    · rw [State.returned_updateDraw (s := u) draw]
      exact .drawReturns draw idle
    · rw [State.returned_updatePost (s := u) post]
      exact .postReturns post idle
  · simp only [Gadget.Cluster.setManager_self, busy, if_false]
    exact .goesOn here busy

theorem move_of_pluginSend {i j : Host n} {out : Outgoing}
    (stepped : s.step object ids order behind (.plugin i j out) = some t) :
    Move object ids order behind s i t := by
  simp only [State.step, State.pluginSend] at stepped
  split at stepped
  next allowed =>
    obtain ⟨other, -, fits⟩ := allowed
    obtain ⟨packet, created, stepped⟩ := Option.bind_eq_some_iff.mp stepped
    obtain ⟨bytes, sent, stepped⟩ := Option.bind_eq_some_iff.mp stepped
    obtain ⟨d, moved, rfl⟩ := Option.map_eq_some_iff.mp stepped
    obtain ⟨-, rfl⟩ := Gadget.Cluster.step_send moved
    -- what fits into a packet arrives as it was sent
    obtain rfl := Option.some.inj ((out.create_of_small (order i) fits).symm.trans created)
    obtain rfl := Option.some.inj ((out.send_of_small fits []).symm.trans sent)
    exact .plugin fun host objects => deliver_plugin other fits objects
  next => cases stepped

theorem move_of_step (lock : Gadget.Cluster.LockStep starNeighbours s.cluster)
    {act : Act n V} (small : Small object s act)
    (stepped : s.step object ids order behind act = some t) :
    ∃ i, Move object ids order behind s i t := by
  cases act with
  | change i id value =>
    simp only [State.step, State.change] at stepped
    split at stepped
    next rests =>
      obtain rfl := Option.some.inj stepped
      exact ⟨_, .change id value (Or.inl rests)⟩
    next rests =>
      obtain rfl := Option.some.inj stepped
      exact ⟨_, .change id value (Or.inr rests)⟩
    all_goals cases stepped
  | preDraw i =>
    cases i with
    | master =>
      simp only [State.step, State.preDraw] at stepped
      split at stepped
      next rests =>
        obtain rfl := Option.some.inj stepped
        exact ⟨_, .draws rests⟩
      next => cases stepped
    | slave k =>
      simp only [State.step, State.preDraw] at stepped
      split at stepped
      next rests =>
        obtain rfl := Option.some.inj stepped
        exact ⟨_, .preDraw rests⟩
      next => cases stepped
  | serialize => exact ⟨_, move_of_serializeNext lock small stepped⟩
  | send => exact ⟨_, move_of_sendNext stepped⟩
  | postPostFrame i =>
    simp only [State.step] at stepped
    split at stepped
    next here =>
      obtain ⟨d, moved, rfl⟩ := Option.map_eq_some_iff.mp stepped
      obtain ⟨m, began, rfl⟩ := Gadget.Cluster.step_update moved
      exact ⟨_, .begins (Or.inr ⟨here, rfl⟩) (Gadget.Manager.busy_of_update began)⟩
    next => cases stepped
  | update i =>
    simp only [State.step] at stepped
    split at stepped
    next here =>
      obtain ⟨d, moved, rfl⟩ := Option.map_eq_some_iff.mp stepped
      obtain ⟨m, began, rfl⟩ := Gadget.Cluster.step_update moved
      exact ⟨_, .begins (Or.inl ⟨here, rfl⟩) (Gadget.Manager.busy_of_update began)⟩
    next => cases stepped
  | sendEndBlock i =>
    obtain ⟨here, d, moved, rfl⟩ := State.go_eq_some stepped
    obtain ⟨temp, j, rest, count, m, -, went, rfl⟩ := Gadget.Cluster.step_sendEndBlock moved
    exact ⟨_, .ends temp here (Gadget.Manager.busy_of_sendEndBlock went)⟩
  | select i answer =>
    obtain ⟨here, d, moved, rfl⟩ := State.go_eq_some stepped
    obtain ⟨-, m, went, rfl⟩ := Gadget.Cluster.step_select moved
    exact ⟨_, .goesOn here (Gadget.Manager.busy_of_select went)⟩
  | recv i => exact ⟨_, move_of_recvNext lock stepped⟩
  | next i => exact ⟨_, move_of_next stepped⟩
  | plugin i j out => exact ⟨_, move_of_pluginSend stepped⟩

/-- The network takes a step of its own or none. -/
theorem cluster_of_step {act : Act n V} (stepped : s.step object ids order behind act = some t) :
    t.cluster = s.cluster ∨ ∃ a, s.cluster.step a = some t.cluster := by
  -- a local action leaves the cluster alone, any other is an action of the cluster
  cases act with
  | change i id value =>
    simp only [State.step, State.change] at stepped
    split at stepped <;> cases stepped
    all_goals exact Or.inl rfl
  | preDraw i =>
    cases i with
    | master | slave k =>
      simp only [State.step, State.preDraw] at stepped
      split at stepped <;> cases stepped
      exact Or.inl rfl
  | serialize =>
    simp only [State.step, State.serializeNext] at stepped
    split at stepped
    · obtain ⟨packet, -, rfl⟩ := Option.map_eq_some_iff.mp stepped
      exact Or.inl rfl
    · cases stepped
  | send =>
    simp only [State.step, State.sendNext] at stepped
    split at stepped
    · cases stepped
      exact Or.inl rfl
    · obtain ⟨bytes, -, stepped⟩ := Option.bind_eq_some_iff.mp stepped
      obtain ⟨d, moved, rfl⟩ := Option.map_eq_some_iff.mp stepped
      exact Or.inr ⟨_, moved⟩
    · cases stepped
  | postPostFrame i | update i =>
    simp only [State.step] at stepped
    split at stepped
    · obtain ⟨d, moved, rfl⟩ := Option.map_eq_some_iff.mp stepped
      exact Or.inr ⟨_, moved⟩
    · cases stepped
  | sendEndBlock i | select i answer =>
    obtain ⟨-, d, moved, rfl⟩ := State.go_eq_some stepped
    exact Or.inr ⟨_, moved⟩
  | recv i =>
    simp only [State.step, State.recvNext] at stepped
    split at stepped
    · split at stepped
      · obtain ⟨p, -, stepped⟩ := Option.bind_eq_some_iff.mp stepped
        obtain ⟨objects, -, stepped⟩ := Option.bind_eq_some_iff.mp stepped
        obtain ⟨d, moved, rfl⟩ := Option.map_eq_some_iff.mp stepped
        exact Or.inr ⟨_, moved⟩
      · cases stepped
    · cases stepped
  | next i =>
    obtain ⟨u, went, rfl⟩ := Option.map_eq_some_iff.mp stepped
    obtain ⟨-, d, moved, rfl⟩ := State.go_eq_some went
    refine Or.inr ⟨.next i, ?_⟩
    split
    · rw [State.returned_cluster]
      exact moved
    · exact moved
  | plugin i j out =>
    simp only [State.step, State.pluginSend] at stepped
    split at stepped
    · obtain ⟨packet, -, stepped⟩ := Option.bind_eq_some_iff.mp stepped
      obtain ⟨bytes, -, stepped⟩ := Option.bind_eq_some_iff.mp stepped
      obtain ⟨d, moved, rfl⟩ := Option.map_eq_some_iff.mp stepped
      exact Or.inr ⟨_, moved⟩
    · cases stepped

theorem lockStep_of_step (lock : Gadget.Cluster.LockStep starNeighbours s.cluster) {act : Act n V}
    (stepped : s.step object ids order behind act = some t) :
    Gadget.Cluster.LockStep starNeighbours t.cluster := by
  rcases cluster_of_step stepped with same | ⟨a, moved⟩
  · rwa [same]
  · exact Gadget.Cluster.lockStep_step Gadget.starNeighbours_nodup lock a moved

/-! ### What other nodes see of it -/

/-- What belongs to the node is as it was. -/
structure Same (s t : State n V) (a : Host n) : Prop where
  manager : t.cluster.manager a = s.cluster.manager a
  sent : t.cluster.sent a = s.cluster.sent a
  handled : t.cluster.handled a = s.cluster.handled a
  updates : t.cluster.updates a = s.cluster.updates a
  thread : t.thread a = s.thread a
  objects : t.objects a = s.objects a
  shown : t.shown a = s.shown a

theorem State.setThread_self (i : Host n) (thread : Thread n) :
    (s.setThread i thread).thread i = thread := Function.update_self ..

theorem State.setThread_of_ne {i a : Host n} (thread : Thread n) (other : a ≠ i) :
    (s.setThread i thread).thread a = s.thread a := Function.update_of_ne other ..

@[simp] theorem State.setThread_drawn (i : Host n) (thread : Thread n) :
    (s.setThread i thread).drawn = s.drawn := rfl

theorem put_sent_of_ne (c : Gadget.Cluster (Host n) (List UInt8)) {i j a : Host n}
    (p : Gadget.Packet (List UInt8)) (other : a ≠ i) : (c.put i j p).sent a = c.sent a := by
  simp [Gadget.Cluster.put, other]

theorem take_handled_of_ne (c : Gadget.Cluster (Host n) (List UInt8)) {i j a : Host n}
    (p : Gadget.Packet (List UInt8)) (tail : List (Gadget.Packet (List UInt8))) (other : a ≠ i) :
    (c.take i j p tail).handled a = c.handled a := by
  simp [Gadget.Cluster.take, other]

theorem Move.same {i a : Host n} (move : Move object ids order behind s i t) (other : a ≠ i) :
    Same s t a := by
  have moved (m : Gadget.Manager (Host n)) :
      (s.cluster.setManager i m).manager a = s.cluster.manager a :=
    s.cluster.setManager_of_ne m other
  cases move with
  | change id value rests => exact ⟨rfl, rfl, rfl, rfl, rfl, Function.update_of_ne other .., rfl⟩
  | draws rests | preDraw rests | serialized here small done | sentAll here =>
    exact ⟨rfl, rfl, rfl, rfl, State.setThread_of_ne _ other, rfl, rfl⟩
  | sent here done =>
    exact ⟨rfl, put_sent_of_ne _ _ other, rfl, rfl, State.setThread_of_ne _ other, rfl, rfl⟩
  | begins here busy =>
    exact ⟨moved _, rfl, rfl, rfl, State.setThread_of_ne _ other, rfl, rfl⟩
  | goesOn here busy => exact ⟨moved _, rfl, rfl, rfl, rfl, rfl, rfl⟩
  | ends frameNum here busy => exact ⟨moved _, put_sent_of_ne _ _ other, rfl, rfl, rfl, rfl, rfl⟩
  | receives here busy neighbour arrived handled =>
    exact ⟨moved _, rfl, take_handled_of_ne _ _ _ other, rfl, rfl,
      Function.update_of_ne other .., rfl⟩
  | drawReturns here idle =>
    exact ⟨moved _, rfl, rfl, Function.update_of_ne other .., State.setThread_of_ne _ other, rfl,
      Function.update_of_ne other ..⟩
  | postReturns here idle =>
    exact ⟨moved _, rfl, rfl, Function.update_of_ne other .., State.setThread_of_ne _ other, rfl,
      rfl⟩
  | plugin ignored => exact ⟨rfl, put_sent_of_ne _ _ other, rfl, rfl, rfl, rfl, rfl⟩

/-- Only the master has packets to reuse, and only its values are drawn. -/
theorem Move.of_slave {i : Host n} (move : Move object ids order behind s i t)
    (slave : i ≠ .master) : t.mDataPacket = s.mDataPacket ∧ t.drawn = s.drawn := by
  cases move with
  | draws rests | serialized here small done | sent here done | sentAll here =>
    exact absurd rfl slave
  | _ => exact ⟨rfl, rfl⟩

/-! ### The updates of a node -/

/-- The second half of a frame follows the call of `preDraw`. -/
def Thread.second : Thread n → Nat
  | .afterDraw | .updatePost => 1
  | .beforeDraw | .preDraw _ | .sendToAll .. | .updateDraw => 0

/-- The manager of a node is at work while the thread is in `update`, and there are two updates
in a frame. -/
structure Paced (s : State n V) (i : Host n) : Prop where
  dated : ∀ j, ∀ entry ∈ s.cluster.handled i j, entry.1 ≤ s.cluster.updates i
  idle : (s.cluster.manager i).phase = .idle ↔ (s.thread i).updating = false
  fresh : (s.thread i).updating = false →
    ∀ j, booked (s.cluster.handled i j) (s.cluster.updates i) = []
  rounds : s.cluster.updates i + (s.thread i).second = 2 * (s.shown i).length

theorem Paced.of_same {a : Host n} (paced : Paced s a) (same : Same s t a) : Paced t a := by
  constructor
  · rw [same.handled, same.updates]
    exact paced.dated
  · rw [same.manager, same.thread]
    exact paced.idle
  · rw [same.handled, same.updates, same.thread]
    exact paced.fresh
  · rw [same.updates, same.thread, same.shown]
    exact paced.rounds

/-- The thread goes on to a place that is like the one before. -/
theorem Paced.setThread {i : Host n} {thread : Thread n} (paced : Paced s i)
    (updating : thread.updating = (s.thread i).updating)
    (second : thread.second = (s.thread i).second) : Paced (s.setThread i thread) i := by
  have now := State.setThread_self (s := s) i thread
  constructor
  · exact paced.dated
  · rw [now, updating]
    exact paced.idle
  · rw [now, updating]
    exact paced.fresh
  · rw [now, second]
    exact paced.rounds

/-- One more update is complete. -/
theorem Paced.completed {i : Host n} {m : Gadget.Manager (Host n)} {thread : Thread n}
    {shown : Host n → List (Values V)} (paced : Paced s i) (idle : m.phase = .idle)
    (rests : thread.updating = false)
    (rounds : s.cluster.updates i + 1 + thread.second = 2 * (shown i).length) :
    Paced { s.setThread i thread with
      cluster := completed s.cluster i m
      shown := shown } i := by
  have counted : (ApplicationData.completed s.cluster i m).updates i = s.cluster.updates i + 1 :=
    Function.update_self ..
  have now := State.setThread_self (s := s) i thread
  have later := fun j entry member => Nat.lt_succ_of_le (paced.dated j entry member)
  constructor
  · intro j entry member
    rw [counted]
    exact (later j entry member).le
  · have stopped : ((ApplicationData.completed s.cluster i m).manager i).phase = .idle := by
      rw [← idle]
      exact congrArg _ (s.cluster.setManager_self i m)
    exact iff_of_true stopped (by rw [now, rests])
  · intro _ j
    rw [counted]
    exact booked_eq_nil fun entry member => (later j entry member).ne
  · rw [counted, now]
    exact rounds

theorem Move.paced {i : Host n} (move : Move object ids order behind s i t)
    (paced : ∀ a, Paced s a) (a : Host n) : Paced t a := by
  by_cases other : a = i
  · subst other
    have own := paced a
    cases move with
    | change id value rests => exact ⟨own.dated, own.idle, own.fresh, own.rounds⟩
    | draws rests =>
      have kept : Paced (s.setThread .master (.preDraw ids)) .master :=
        own.setThread (by rw [rests]; rfl) (by rw [rests]; rfl)
      exact ⟨kept.dated, kept.idle, kept.fresh, kept.rounds⟩
    | preDraw rests => exact own.setThread (by rw [rests]; rfl) (by rw [rests]; rfl)
    | serialized here small done =>
      rename_i id servers packet
      have kept : Paced (s.setThread .master (.sendToAll (starNeighbours .master) id servers))
          .master := own.setThread (by rw [here]; rfl) (by rw [here]; rfl)
      exact ⟨kept.dated, kept.idle, kept.fresh, kept.rounds⟩
    | sent here done =>
      rename_i j nodes id servers bytes
      have kept : Paced (s.setThread .master (.sendToAll nodes id servers)) .master :=
        own.setThread (by rw [here]; rfl) (by rw [here]; rfl)
      exact ⟨kept.dated, kept.idle, kept.fresh, kept.rounds⟩
    | sentAll here => exact own.setThread (by rw [here]; rfl) (by rw [here]; rfl)
    | begins here busy =>
      obtain ⟨dated, -, -, rounds⟩ := own
      constructor
      · exact dated
      · rcases here with ⟨_, rfl⟩ | ⟨_, rfl⟩ <;> simp [State.setThread, Thread.updating, busy]
      · rcases here with ⟨_, rfl⟩ | ⟨_, rfl⟩ <;> simp [State.setThread, Thread.updating]
      · rcases here with ⟨now, rfl⟩ | ⟨now, rfl⟩ <;>
          simpa [State.setThread, Thread.second, now] using rounds
    | goesOn here busy => exact ⟨own.dated, by simp [busy, here], own.fresh, own.rounds⟩
    | ends frameNum here busy =>
      exact ⟨own.dated, by simp [Gadget.Cluster.put, busy, here], own.fresh, own.rounds⟩
    | receives here busy neighbour arrived handled =>
      obtain ⟨dated, -, -, rounds⟩ := own
      constructor
      · intro b entry member
        simp only [Gadget.Cluster.take] at member ⊢
        split at member
        · rcases List.mem_append.mp member with old | new
          · exact dated b entry old
          · obtain rfl := List.mem_singleton.mp new
            exact le_rfl
        · exact dated b entry member
      · simp [Gadget.Cluster.take, busy, here]
      · simp [here]
      · exact rounds
    | drawReturns here idle =>
      have rounds := own.rounds
      rw [here] at rounds
      apply own.completed idle rfl
      rw [Function.update_self, List.length_append]
      simp only [Thread.second, List.length_singleton] at rounds ⊢
      omega
    | postReturns here idle =>
      have rounds := own.rounds
      rw [here] at rounds
      exact own.completed idle rfl rounds
    | plugin ignored => exact ⟨own.dated, own.idle, own.fresh, own.rounds⟩
  · exact (paced a).of_same (move.same other)

/-! ### The packets of the slaves -/

variable (object ids behind) in
/-- The packets that a slave has sent change no objects. -/
def Silent (s : State n V) (k : Fin n) : Prop :=
  ∀ j, ∀ p ∈ s.cluster.sent (.slave k) j, ∀ host objects,
    deliver object ids behind host objects p = some objects

theorem mem_put_sent {c : Gadget.Cluster (Host n) (List UInt8)} {i j a b : Host n}
    {p q : Gadget.Packet (List UInt8)} (member : q ∈ (c.put i j p).sent a b) :
    q ∈ c.sent a b ∨ q = p := by
  simp only [Gadget.Cluster.put] at member
  split at member
  · simpa using member
  · exact Or.inl member

theorem Move.silent {i : Host n} (move : Move object ids order behind s i t) {k : Fin n}
    (silent : Silent object ids behind s k) :
    Silent object ids behind t k := by
  by_cases other : Host.slave k = i
  · subst other
    cases move with
    | change | preDraw | begins | goesOn | receives | drawReturns | postReturns => exact silent
    | ends frameNum here busy =>
      intro b p member host objects
      rcases mem_put_sent member with old | rfl
      · exact silent b p old host objects
      · rfl
    | plugin ignored =>
      intro b p member host objects
      rcases mem_put_sent member with old | rfl
      · exact silent b p old host objects
      · exact ignored host objects
  · rw [Silent, (move.same other).sent]
    exact silent

/-! ### The packets of the master -/

/-- The master has called `preDraw`, which has not returned. -/
def Thread.drawing : Thread n → Bool
  | .preDraw _ | .sendToAll .. | .updateDraw => true
  | .beforeDraw | .afterDraw | .updatePost => false

/-- The servers that have not yet sent to the node. -/
def Thread.remaining : Thread n → Host n → List GUID
  | .preDraw servers, _ => servers
  | .sendToAll nodes id servers, h => if h ∈ nodes then id :: servers else servers
  | .beforeDraw, _ | .updateDraw, _ | .afterDraw, _ | .updatePost, _ => []

variable (object ids) in
/-- The loops in which the master sends. -/
def Sending (s : State n V) : Thread n → Prop
  | .preDraw servers => servers <:+ ids
  | .sendToAll nodes id servers =>
    id :: servers <:+ ids ∧ nodes <:+ starNeighbours .master ∧
    (Outgoing.dataPacket mPluginGUID id ((object id).writeObject (s.objects .master id))).size <
      2 ^ 32 ∧
    s.mDataPacket id =
      (Outgoing.dataPacket mPluginGUID id ((object id).writeObject (s.objects .master id))).packet
  | .beforeDraw | .updateDraw | .afterDraw | .updatePost => True

variable (object ids order behind) in
/-- What the packets of the master bring are the objects that it had at its calls of
`preDraw`. -/
structure Feeding (s : State n V) : Prop where
  reusable : ∀ id, Reusable id (s.mDataPacket id)
  sending : Sending object ids s (s.thread .master)
  counted : s.drawn.length = (s.shown .master).length + (s.thread .master).drawing.toNat
  last : (s.thread .master).drawing → s.drawn.getLast? = some (s.objects .master)
  brings : ∀ k u, Brings object ids behind (order (.slave k))
    (segment Gadget.Packet.isEndBlock u (s.cluster.sent .master (.slave k)))
    (effect ids s.drawn ((s.thread .master).remaining (.slave k)) u)

theorem Feeding.of_same (feeding : Feeding object ids order behind s) (same : Same s t .master)
    (packets : t.mDataPacket = s.mDataPacket) (drawn : t.drawn = s.drawn) :
    Feeding object ids order behind t := by
  constructor
  · rw [packets]
    exact feeding.reusable
  · have sending := feeding.sending
    rw [same.thread]
    cases here : s.thread .master with
    | sendToAll nodes id servers =>
      rw [here] at sending
      simpa only [Sending, same.objects, packets] using sending
    | preDraw servers =>
      rw [here] at sending
      exact sending
    | beforeDraw | updateDraw | afterDraw | updatePost => trivial
  · rw [drawn, same.shown, same.thread]
    exact feeding.counted
  · rw [drawn, same.thread, same.objects]
    exact feeding.last
  · rw [drawn, same.thread, same.sent]
    exact feeding.brings

/-- The master has sent a packet that is not for the application data. -/
theorem Feeding.put (feeding : Feeding object ids order behind s) {j : Host n}
    {m : Gadget.Manager (Host n)} {p : Gadget.Packet (List UInt8)}
    (ignored : ∀ host objects, deliver object ids behind host objects p = some objects) :
    Feeding object ids order behind
      { s with cluster := (s.cluster.setManager .master m).put .master j p } where
  reusable := feeding.reusable
  sending := feeding.sending
  counted := feeding.counted
  last := feeding.last
  brings := fun k u => by
    simp only [Gadget.Cluster.put, Gadget.Cluster.setManager_sent, true_and]
    split
    · exact (feeding.brings k u).ignored (ignored _)
    · exact feeding.brings k u

/-- A data packet is sent to one node more. -/
theorem Feeding.sent (nodup : ids.Nodup) (inverse : Inverse object)
    (lock : Gadget.Cluster.LockStep starNeighbours s.cluster) (paced : Paced s .master)
    (feeding : Feeding object ids order behind s) {j : Host n} {nodes : List (Host n)} {id : GUID}
    {servers : List GUID} {bytes : List UInt8}
    (here : s.thread .master = .sendToAll (j :: nodes) id servers)
    (done : Cluster.send (s.mDataPacket id) [] = some bytes) :
    Feeding object ids order behind { s.setThread .master (.sendToAll nodes id servers) with
      cluster := s.cluster.put .master j (.other bytes) } := by
  obtain ⟨reusable, sending, counted, last, brings⟩ := feeding
  have now := State.setThread_self (s := s) .master (.sendToAll nodes id servers)
  rw [here] at sending counted last
  obtain ⟨suffix, nodesLeft, small, packet⟩ := sending
  rw [packet, Outgoing.send_of_small small, List.nil_append] at done
  obtain rfl := Option.some.inj done
  have registered : id ∈ ids := suffix.subset (List.mem_cons_self ..)
  have later : id ∉ servers := (List.nodup_cons.mp (nodup.sublist suffix.sublist)).1
  have fresh : j ∉ nodes :=
    (List.nodup_cons.mp ((Gadget.starNeighbours_nodup _).sublist nodesLeft.sublist)).1
  constructor
  · exact reusable
  · rw [now]
    exact ⟨suffix, (List.suffix_cons j nodes).trans nodesLeft, small, packet⟩
  · rw [now]
    exact counted
  · rw [now]
    exact last
  · intro k u
    have before := brings k u
    rw [here] at before
    rw [now]
    simp only [Gadget.Cluster.put, true_and, Thread.remaining, State.setThread_drawn] at before ⊢
    by_cases receiver : Host.slave k = j
    · subst receiver
      -- the manager is idle, so that the packet belongs to the update that comes next
      have idle : (s.cluster.manager .master).phase = .idle := paced.idle.mpr (by rw [here]; rfl)
      have adjacent : Host.slave k ∈ starNeighbours .master :=
        nodesLeft.subset (List.mem_cons_self ..)
      have ended := lock.sentEnds .master (.slave k) adjacent
      have rounds := paced.rounds
      rw [Gadget.Manager.announced_of_idle idle, Nat.add_zero] at ended
      simp only [here, Thread.second] at rounds
      simp only [Thread.drawing, Bool.toNat_true] at counted
      rw [if_pos rfl, segment_snoc, ended, if_neg fresh]
      rw [if_pos (List.mem_cons_self ..)] at before
      split
      · apply before.snoc (deliver_data inverse registered small)
        exact effect_sent (by omega) (last rfl) registered later
      · rw [List.append_nil, effect_of_ne servers (id :: servers) (by omega)]
        exact before
    · rw [if_neg receiver]
      simpa [receiver] using before

/-- The thread of the master goes on in the loops of `preDraw`. -/
theorem Feeding.setThread (feeding : Feeding object ids order behind s) {thread : Thread n}
    {mDataPacket : GUID → Cluster.Packet} (reusable : ∀ id, Reusable id (mDataPacket id))
    (sending : Sending object ids { s with mDataPacket := mDataPacket } thread)
    (drawing : thread.drawing = (s.thread .master).drawing)
    (remaining : ∀ k, thread.remaining (.slave k) = (s.thread .master).remaining (.slave k)) :
    Feeding object ids order behind
      { s.setThread .master thread with mDataPacket := mDataPacket } := by
  have now := State.setThread_self (s := s) .master thread
  constructor
  · exact reusable
  · rw [now]
    cases thread with
    | preDraw | sendToAll => exact sending
    | beforeDraw | updateDraw | afterDraw | updatePost => trivial
  · rw [now, drawing]
    exact feeding.counted
  · rw [now, drawing]
    exact feeding.last
  · intro k u
    rw [now, remaining]
    exact feeding.brings k u

/-- The master begins to draw: all its objects are still to be sent. -/
theorem Feeding.draws (feeding : Feeding object ids order behind s)
    (rests : s.thread .master = .beforeDraw) :
    Feeding object ids order behind { s.setThread .master (.preDraw ids) with
      drawn := s.drawn ++ [s.objects .master] } := by
  have now := State.setThread_self (s := s) .master (.preDraw ids)
  have counted := feeding.counted
  rw [rests] at counted
  constructor
  · exact feeding.reusable
  · rw [now]
    exact List.suffix_rfl
  · rw [now]
    simpa [Thread.drawing, State.setThread] using counted
  · intro _
    simp [State.setThread]
  · intro k u
    have before := feeding.brings k u
    rw [rests] at before
    rw [now]
    simp only [Thread.remaining] at before ⊢
    rw [effect_draws]
    exact before

/-- An object is written into its packet, which goes to all slaves. -/
theorem Feeding.serialized (feeding : Feeding object ids order behind s) {id : GUID}
    {servers : List GUID} {packet : Cluster.Packet}
    (here : s.thread .master = .preDraw (id :: servers))
    (small : (Outgoing.dataPacket mPluginGUID id
      ((object id).writeObject (s.objects .master id))).size < 2 ^ 32)
    (done : serialize (order .master) (s.mDataPacket id)
      ((object id).writeObject (s.objects .master id)) = some packet) :
    Feeding object ids order behind
      { s.setThread .master (.sendToAll (starNeighbours .master) id servers) with
        mDataPacket := Function.update s.mDataPacket id packet } := by
  have sending := feeding.sending
  rw [here] at sending
  rw [serialize_reused (feeding.reusable id) (calls_fit small)] at done
  obtain rfl := Option.some.inj done
  apply feeding.setThread
  · intro other
    by_cases same : other = id
    · subst same
      rw [Function.update_self]
      exact reusable_sent ..
    · rw [Function.update_of_ne same]
      exact feeding.reusable other
  · exact ⟨sending, List.suffix_rfl, small, Function.update_self ..⟩
  · rw [here]
    rfl
  · intro k
    -- each slave is among the nodes that the packet goes to
    have member : Host.slave k ∈ starNeighbours .master :=
      List.mem_map.mpr ⟨k, List.mem_finRange k, rfl⟩
    simp [here, Thread.remaining, member]

/-- What the master has received has not changed its objects. -/
theorem receives_master (lock : Gadget.Cluster.LockStep starNeighbours s.cluster)
    (silent : ∀ k, Silent object ids behind s k) {j : Host n}
    (neighbour : j ∈ starNeighbours .master) {p : Gadget.Packet (List UInt8)}
    {tail : List (Gadget.Packet (List UInt8))} (arrived : s.cluster.link j .master = p :: tail)
    (host : ByteOrder) (objects : Values V) :
    deliver object ids behind host objects p = some objects := by
  obtain ⟨k, -, rfl⟩ := List.mem_map.mp neighbour
  have sent : p ∈ s.cluster.sent (.slave k) .master := by
    rw [lock.fifo .master (.slave k), arrived]
    simp
  exact silent k .master p sent host objects

theorem Move.feeding_master (nodup : ids.Nodup) (inverse : Inverse object)
    (lock : Gadget.Cluster.LockStep starNeighbours s.cluster) (paced : Paced s .master)
    (silent : ∀ k, Silent object ids behind s k) (feeding : Feeding object ids order behind s)
    (move : Move object ids order behind s .master t) : Feeding object ids order behind t := by
  have sending := feeding.sending
  have counted := feeding.counted
  cases move with
  | change id value rests =>
    -- a change of the master comes before or after drawing, when nothing is on the way
    have resting : (s.thread .master).drawing = false := by
      rcases rests with here | here <;> rw [here] <;> rfl
    refine ⟨feeding.reusable, ?_, counted, fun drawing => ?_, feeding.brings⟩
    · rcases rests with here | here <;> simp [here, Sending]
    · rw [resting] at drawing
      cases drawing
  | draws rests => exact feeding.draws rests
  | serialized here small done => exact feeding.serialized here small done
  | sent here done => exact feeding.sent nodup inverse lock paced here done
  | sentAll here =>
    rw [here] at sending
    apply feeding.setThread feeding.reusable
    · exact (List.suffix_cons _ _).trans sending.1
    · rw [here]
      rfl
    · intro k
      simp [here, Thread.remaining]
  | begins here busy =>
    rename_i m thread
    have kept : Feeding object ids order behind (s.setThread .master thread) := by
      apply feeding.setThread feeding.reusable
      · rcases here with ⟨_, rfl⟩ | ⟨_, rfl⟩ <;> trivial
      · rcases here with ⟨now, rfl⟩ | ⟨now, rfl⟩ <;> rw [now] <;> rfl
      · intro k
        rcases here with ⟨now, rfl⟩ | ⟨now, rfl⟩ <;> simp [now, Thread.remaining]
    exact ⟨kept.reusable, kept.sending, kept.counted, kept.last, kept.brings⟩
  | goesOn here busy =>
    exact ⟨feeding.reusable, sending, counted, feeding.last, feeding.brings⟩
  | ends frameNum here busy => exact feeding.put fun _ _ => rfl
  | receives here busy neighbour arrived handled =>
    rename_i j m p tail objects
    -- the slaves are silent, so the master receives no object
    have unchanged := receives_master lock silent neighbour arrived (order .master)
      (s.objects .master)
    obtain rfl := Option.some.inj (unchanged.symm.trans handled)
    rw [Function.update_eq_self]
    exact ⟨feeding.reusable, sending, counted, feeding.last, feeding.brings⟩
  | drawReturns here idle =>
    have now := State.setThread_self (s := s) .master .afterDraw
    have brings := feeding.brings
    rw [here] at counted brings
    constructor
    · exact feeding.reusable
    · rw [now]
      trivial
    · rw [now]
      simpa [Thread.drawing] using counted
    · rw [now]
      intro drawing
      cases drawing
    · rw [now]
      exact brings
  | postReturns here idle =>
    rename_i m
    have kept : Feeding object ids order behind (s.setThread .master .beforeDraw) := by
      apply feeding.setThread feeding.reusable
      · trivial
      · rw [here]
        rfl
      · intro k
        simp [here, Thread.remaining]
    exact ⟨kept.reusable, kept.sending, kept.counted, kept.last, kept.brings⟩
  | plugin ignored =>
    have unchanged : s.cluster = s.cluster.setManager .master (s.cluster.manager .master) := by
      simp [Gadget.Cluster.setManager]
    rw [unchanged]
    exact feeding.put ignored

theorem Move.feeding (nodup : ids.Nodup) (inverse : Inverse object)
    (lock : Gadget.Cluster.LockStep starNeighbours s.cluster) (paced : Paced s .master)
    (silent : ∀ k, Silent object ids behind s k) (feeding : Feeding object ids order behind s)
    {i : Host n} (move : Move object ids order behind s i t) :
    Feeding object ids order behind t := by
  cases i with
  | master => exact move.feeding_master nodup inverse lock paced silent feeding
  | slave k =>
    have slave : Host.slave k ≠ .master := by simp
    obtain ⟨packets, drawn⟩ := move.of_slave slave
    exact feeding.of_same (move.same slave.symm) packets drawn

/-! ### The objects of a slave -/

variable (object ids order behind) in
/-- In `update` the objects of a slave are what became of some objects through the packets that
were handled in it. -/
def Kept (s : State n V) (k : Fin n) : Prop :=
  (s.thread (.slave k)).updating → ∃ base,
    (booked (s.cluster.handled (.slave k) .master) (s.cluster.updates (.slave k))).foldlM
      (deliver object ids behind (order (.slave k))) base = some (s.objects (.slave k))

theorem Move.kept {i : Host n} (move : Move object ids order behind s i t) {k : Fin n}
    (paced : Paced s (.slave k)) (kept : Kept object ids order behind s k) :
    Kept object ids order behind t k := by
  by_cases other : Host.slave k = i
  · subst other
    cases move with
    | change id value rests =>
      intro updating
      rcases rests with here | here
      all_goals
        rw [here] at updating
        cases updating
    | preDraw rests =>
      intro updating
      rw [State.setThread_self] at updating
      cases updating
    | begins here busy =>
      intro _
      have resting : (s.thread (.slave k)).updating = false := by
        rcases here with ⟨now, -⟩ | ⟨now, -⟩ <;> rw [now] <;> rfl
      have fresh : booked (s.cluster.handled (.slave k) .master)
        (s.cluster.updates (.slave k)) = [] := paced.fresh resting .master
      refine ⟨s.objects (.slave k), ?_⟩
      simp only [Gadget.Cluster.setManager_handled, Gadget.Cluster.setManager_updates, fresh]
      rfl
    | goesOn | ends | plugin => exact kept
    | receives here busy neighbour arrived handled =>
      intro _
      obtain ⟨base, before⟩ := kept here
      obtain rfl := List.mem_singleton.mp neighbour
      refine ⟨base, ?_⟩
      simp only [Gadget.Cluster.take, and_self, if_true, Gadget.Cluster.setManager_handled,
        Gadget.Cluster.setManager_updates, booked_snoc, Function.update_self]
      rw [List.foldlM_append, before]
      simp [handled]
    | drawReturns here idle | postReturns here idle =>
      intro updating
      rw [State.setThread_self] at updating
      cases updating
  · rw [Kept, (move.same other).thread, (move.same other).handled, (move.same other).updates,
      (move.same other).objects]
    exact kept

/-! ### What is shown -/

variable (ids) in
/-- The objects of the node at its returns from `preDraw` are those of the master at its calls. -/
def Agrees (s : State n V) (i : Host n) : Prop :=
  ∀ (m : Nat) (values : Values V), (s.shown i)[m]? = some values →
    ∃ given : Values V, s.drawn[m]? = some given ∧ ∀ id ∈ ids, values id = given id

/-- Nothing that was drawn is forgotten. -/
theorem Move.drawn_grows {i : Host n} (move : Move object ids order behind s i t) :
    s.drawn <+: t.drawn := by
  cases move with
  | draws rests => exact List.prefix_append _ _
  | _ => exact List.prefix_rfl

theorem Agrees.grow {i : Host n} (agrees : Agrees ids s i) (shown : t.shown i = s.shown i)
    (grows : s.drawn <+: t.drawn) : Agrees ids t i := by
  intro m values here
  rw [shown] at here
  obtain ⟨given, drawn, equal⟩ := agrees m values here
  obtain ⟨later, extended⟩ := grows
  obtain ⟨early, -⟩ := List.getElem?_eq_some_iff.mp drawn
  refine ⟨given, ?_, equal⟩
  rw [← extended, List.getElem?_append_left early]
  exact drawn

/-- At the return from `preDraw`, the master has the objects that it had at the call. -/
theorem Feeding.shown_master (feeding : Feeding object ids order behind s)
    (here : s.thread .master = .updateDraw) :
    s.drawn[(s.shown .master).length]? = some (s.objects .master) := by
  obtain ⟨-, -, counted, last, -⟩ := feeding
  rw [here] at counted last
  simp only [Thread.drawing, Bool.toNat_true] at counted
  rw [← last rfl, List.getLast?_eq_getElem?, counted, Nat.add_sub_cancel]

/-- When the update in `preDraw` of a slave is complete, the call of the master with the same
number has sent everything. -/
theorem Feeding.shown_slave (feeding : Feeding object ids order behind s) {k : Fin n}
    (lock : Gadget.Cluster.LockStep starNeighbours s.cluster) (paced : ∀ i, Paced s i)
    (ended : s.cluster.updates (.slave k) + 1 ≤
      closed Gadget.Packet.isEndBlock (s.cluster.sent .master (.slave k)))
    (here : s.thread (.slave k) = .updateDraw) :
    ∃ given, s.drawn[(s.shown (.slave k)).length]? = some given ∧ ∀ base, ∀ id ∈ ids,
      effect ids s.drawn ((s.thread .master).remaining (.slave k))
        (s.cluster.updates (.slave k)) base id = given id := by
  have adjacent : Host.slave k ∈ starNeighbours .master :=
    List.mem_map.mpr ⟨k, List.mem_finRange k, rfl⟩
  have sent := lock.sentEnds .master (.slave k) adjacent
  have atMostOne := (s.cluster.manager .master).announced_le_one (Host.slave k)
  have slave := (paced (.slave k)).rounds
  have master := (paced .master).rounds
  have counted := feeding.counted
  have resting : (s.thread .master).updating = false →
      (s.cluster.manager .master).announced (Host.slave k) = 0 := fun out =>
    Gadget.Manager.announced_of_idle ((paced .master).idle.mpr out) _
  simp only [here, Thread.second, Nat.add_zero] at slave
  -- the master is in the same call or behind it
  have behind_ : (s.shown (.slave k)).length < s.drawn.length ∧
      ((s.shown (.slave k)).length + 1 = s.drawn.length →
        (s.thread .master).remaining (.slave k) = []) := by
    cases now : s.thread .master with
    | beforeDraw | afterDraw =>
      have idle := resting (by rw [now]; rfl)
      simp only [now, Thread.second, Thread.drawing, Bool.toNat_false] at master counted
      exact ⟨by omega, fun _ => rfl⟩
    | updateDraw | updatePost =>
      rw [now] at master counted
      simp only [Thread.second, Thread.drawing, Bool.toNat_true, Bool.toNat_false] at master counted
      exact ⟨by omega, fun _ => rfl⟩
    | preDraw servers | sendToAll nodes id servers =>
      have idle := resting (by rw [now]; rfl)
      simp only [now, Thread.second, Thread.drawing, Bool.toNat_true] at master counted
      exact ⟨by omega, fun equal => by omega⟩
  obtain ⟨early, done⟩ := behind_
  have number : s.cluster.updates (.slave k) / 2 = (s.shown (.slave k)).length := by omega
  have even : s.cluster.updates (.slave k) % 2 = 0 := by omega
  obtain ⟨given, drawn⟩ : ∃ given, s.drawn[(s.shown (.slave k)).length]? = some given :=
    ⟨_, List.getElem?_eq_getElem early⟩
  refine ⟨given, drawn, fun base id registered => ?_⟩
  simp only [effect, number, drawn, even, true_and]
  rw [if_pos]
  refine ⟨registered, fun final => ?_⟩
  rw [done final]
  exact List.not_mem_nil

/-- The objects of a node when `preDraw` returns. -/
theorem agrees_now (lock : Gadget.Cluster.LockStep starNeighbours s.cluster)
    (paced : ∀ i, Paced s i) (feeding : Feeding object ids order behind s)
    (kept : ∀ k, Kept object ids order behind s k) {i : Host n} {m : Gadget.Manager (Host n)}
    (lock' : Gadget.Cluster.LockStep starNeighbours (completed s.cluster i m))
    (here : s.thread i = .updateDraw) :
    ∃ given : Values V, s.drawn[(s.shown i).length]? = some given ∧
      ∀ id ∈ ids, s.objects i id = given id := by
  cases i with
  | master => exact ⟨_, feeding.shown_master here, fun _ _ => rfl⟩
  | slave k =>
    obtain ⟨base, handled⟩ := kept k (by rw [here]; rfl)
    have inStep := lock'.inStep (i := .slave k) (j := .master) (List.mem_singleton.mpr rfl)
      (List.mem_map.mpr ⟨k, List.mem_finRange k, rfl⟩)
    have counted : (completed s.cluster (.slave k) m).updates (.slave k) =
      s.cluster.updates (.slave k) + 1 := Function.update_self ..
    have frame : booked (s.cluster.handled (.slave k) .master) (s.cluster.updates (.slave k)) =
        segment Gadget.Packet.isEndBlock (s.cluster.updates (.slave k))
          (s.cluster.sent .master (.slave k)) :=
      inStep.frame _ (counted ▸ Nat.lt_succ_self _)
    have ended : s.cluster.updates (.slave k) + 1 ≤
        closed Gadget.Packet.isEndBlock (s.cluster.sent .master (.slave k)) :=
      counted ▸ inStep.returnsAfter
    obtain ⟨given, drawn, shows⟩ := feeding.shown_slave lock paced ended here
    rw [frame, feeding.brings k (s.cluster.updates (.slave k)) base] at handled
    refine ⟨given, drawn, fun id registered => ?_⟩
    rw [← Option.some.inj handled]
    exact shows base id registered

theorem Move.agrees {i : Host n} (move : Move object ids order behind s i t)
    (lock : Gadget.Cluster.LockStep starNeighbours s.cluster)
    (lock' : Gadget.Cluster.LockStep starNeighbours t.cluster) (paced : ∀ a, Paced s a)
    (feeding : Feeding object ids order behind s) (kept : ∀ k, Kept object ids order behind s k)
    (agrees : ∀ a, Agrees ids s a) (a : Host n) : Agrees ids t a := by
  have grows := move.drawn_grows
  by_cases other : a = i
  · subst other
    cases move with
    | drawReturns here idle =>
      intro m values shown
      simp only [Function.update_self] at shown
      by_cases earlier : m < (s.shown a).length
      · rw [List.getElem?_append_left earlier] at shown
        exact agrees a m values shown
      · obtain ⟨last, equal⟩ := List.getElem?_eq_some_iff.mp shown
        rw [List.length_append, List.length_singleton] at last
        obtain rfl : m = (s.shown a).length := by omega
        rw [List.getElem_concat_length] at equal
        · subst equal
          exact agrees_now lock paced feeding kept lock' here
        · rfl
    | _ => exact (agrees _).grow rfl grows
  · exact (agrees a).grow (move.same other).shown grows

end Moves

/-! ## Runs -/

variable (object ids order behind) in
/-- What holds between two steps. -/
structure Shared (s : State n V) : Prop where
  lock : Gadget.Cluster.LockStep starNeighbours s.cluster
  paced : ∀ i, Paced s i
  silent : ∀ k, Silent object ids behind s k
  feeding : Feeding object ids order behind s
  kept : ∀ k, Kept object ids order behind s k
  agrees : ∀ i, Agrees ids s i

theorem shared_start (objects : Host n → Values V) :
    Shared object ids order behind (start objects) where
  lock := Gadget.Cluster.lockStep_start
  paced := fun i => by
    refine ⟨fun j entry member => (nomatch member), ?_, fun _ j => rfl, rfl⟩
    exact iff_of_true rfl rfl
  silent := fun k j p member => nomatch member
  feeding := by
    refine ⟨reusable_createPacket, trivial, rfl, fun drawing => (nomatch drawing), fun k u => ?_⟩
    have nothing : segment Gadget.Packet.isEndBlock u
        ((start objects).cluster.sent .master (.slave k)) = [] := segment_nil _ u
    rw [nothing]
    intro base
    rfl
  kept := fun k updating => nomatch updating
  agrees := fun i m values shown => nomatch shown

theorem Shared.step {s t : State n V} (nodup : ids.Nodup) (inverse : Inverse object)
    (shared : Shared object ids order behind s) {act : Act n V} (small : Small object s act)
    (stepped : s.step object ids order behind act = some t) :
    Shared object ids order behind t := by
  obtain ⟨lock, paced, silent, feeding, kept, agrees⟩ := shared
  have lock' := lockStep_of_step lock stepped
  obtain ⟨i, move⟩ := move_of_step lock small stepped
  exact {
    lock := lock'
    paced := move.paced paced
    silent := fun k => move.silent (silent k)
    feeding := move.feeding nodup inverse lock (paced .master) silent feeding
    kept := fun k => move.kept (paced (.slave k)) (kept k)
    agrees := move.agrees lock lock' paced feeding kept agrees }

/-- Handling a packet that has come throws no exception. -/
theorem Shared.received {s : State n V} (shared : Shared object ids order behind s) {i : Host n}
    (updating : (s.thread i).updating) {d : Gadget.Cluster (Host n) (List UInt8)}
    (arrived : s.cluster.step (.recv i) = some d) :
    ∃ t, s.recvNext object ids order behind i = some t := by
  obtain ⟨count, done, ready, j, rest, p, tail, m, receiving, head, moved, -⟩ :=
    Gadget.Cluster.step_recv arrived
  obtain ⟨-, neighbour, open_, -⟩ := (shared.lock.steady i).recv receiving p moved
  have handled : ∃ objects, deliver object ids behind (order i) (s.objects i) p = some objects := by
    cases i with
    | master => exact ⟨_, receives_master shared.lock shared.silent neighbour head _ _⟩
    | slave k =>
      obtain rfl := List.mem_singleton.mp neighbour
      obtain ⟨base, before⟩ := shared.kept k updating
      have current := shared.lock.handledEnds (.slave k) .master neighbour
      rw [open_, Nat.add_zero] at current
      have sent := shared.lock.fifo (.slave k) .master
      rw [head, List.append_cons] at sent
      -- the packet is the next of the segment that the update is to handle
      obtain ⟨later, next⟩ := segment_prefix Gadget.Packet.isEndBlock
        (s.cluster.updates (.slave k))
        ((s.cluster.handled (.slave k) .master).map Prod.snd ++ [p]) tail
      have brought := shared.feeding.brings k (s.cluster.updates (.slave k)) base
      rw [sent, ← next, segment_snoc, if_pos current.symm, ← shared.lock.booked (.slave k) .master,
        List.append_assoc, List.foldlM_append, before] at brought
      rw [Option.bind_eq_bind, Option.bind_some, List.singleton_append, List.foldlM_cons] at brought
      obtain ⟨objects, handled, -⟩ := Option.bind_eq_some_iff.mp brought
      exact ⟨objects, handled⟩
  obtain ⟨objects, handled⟩ := handled
  simp [State.recvNext, updating, receiving, head, handled, arrived]

variable (object ids order behind) in
/-- What is promised of a state: when `preDraw` returned, a node had the objects that the master
had at its call with the same number; packets that come are handled without an exception; and
the data of an object changes no other. -/
structure ObjectsShared (s : State n V) : Prop where
  agrees : ∀ i, Agrees ids s i
  received : ∀ i d, (s.thread i).updating → s.cluster.step (.recv i) = some d →
    ∃ t, s.recvNext object ids order behind i = some t
  separate : ∀ host received (before after : Values V) id other,
    received.body = .dataPacket id →
    handlePacket object ids behind host received before = some after →
    other ≠ id → after other = before other

/-- The objects are shared in every run with data packets that are short enough. -/
theorem shared_data {n : Nat} {V : GUID → Type} (object : (id : GUID) → SerializableObject (V id))
    (ids : List GUID) (order : Host n → ByteOrder) (behind : Nat → UInt8)
    (objects : Host n → Values V) (acts : List (Act n V)) (s : State n V) (nodup : ids.Nodup)
    (inverse : Inverse object)
    (meets : Meets (State.step object ids order behind) (Small object) (start objects) acts)
    (reached : run (State.step object ids order behind) (start objects) acts = some s) :
    ObjectsShared object ids order behind s := by
  have shared : Shared object ids order behind s :=
    run_invariant_of_meets (Shared object ids order behind) (Small object)
      (fun s act t shared small stepped => shared.step nodup inverse small stepped)
      (shared_start objects) meets reached
  constructor
  · exact shared.agrees
  · intro i d updating arrived
    exact shared.received updating arrived
  · intro host received before after id other data handled differs
    exact handlePacket_other data handled differs

/-- One byte. -/
def flag : SerializableObject Bool where
  writeObject value := [.write .bool value]
  readObject rd _ := rd.read .bool

theorem inverse_flag : Inverse fun _ => flag := fun _ _ _ _ value => readsBack_read .bool value

theorem small_flag (s : State n fun _ => Bool) (act : Act n fun _ => Bool) :
    Small (fun _ => flag) s act := by
  cases act with
  | serialize =>
    intro id servers _
    simp [Outgoing.size, Outgoing.fields, Outgoing.object, Cluster.DataPacket.calls,
      GUID.writeObject, flag, Call.encode, encode, Cluster.RIM_PACKET_HEAD_SIZE]
  | _ => trivial

abbrev onlySlave : Host 1 := .slave ⟨0, Nat.one_pos⟩

/-- On the master the object is set, on the slave it is not. -/
def mixed : Host 1 → Values fun _ => Bool
  | .master => fun _ => true
  | .slave _ => fun _ => false

/-- After the master has sent its object, its `update` begins, and the slave goes through
`preDraw`. -/
def slaveDraws : List (Act 1 fun _ => Bool) :=
  [.send, .update .master, .sendEndBlock .master, .preDraw onlySlave, .update onlySlave,
    .sendEndBlock onlySlave, .next onlySlave, .select onlySlave (.readable [.master]),
    .next onlySlave, .recv onlySlave, .recv onlySlave, .next onlySlave, .next onlySlave,
    .next onlySlave]

theorem shared_data_flag :
    ∃ s : State 1 fun _ => Bool,
      run (State.step (fun _ => flag) [mPluginGUID] (fun _ => .littleEndian) fun _ => 0)
        (start mixed) ([.preDraw .master, .serialize, .send] ++ slaveDraws) = some s ∧
      (s.shown onlySlave).length = 1 ∧
      ObjectsShared (fun _ => flag) [mPluginGUID] (fun _ => .littleEndian) (fun _ => 0) s := by
  have ends : (run (State.step (fun _ => flag) [mPluginGUID] (fun _ => .littleEndian) fun _ => 0)
      (start mixed) ([.preDraw .master, .serialize, .send] ++ slaveDraws)).map
        (fun s => (s.shown onlySlave).length) = some 1 := by decide +kernel
  obtain ⟨s, reached, shown⟩ := Option.map_eq_some_iff.mp ends
  exact ⟨s, reached, shown, shared_data (fun _ => flag) [mPluginGUID] (fun _ => .littleEndian)
    (fun _ => 0) mixed _ s (List.nodup_singleton _) inverse_flag
    (meets_of_forall small_flag _ _) reached⟩

/-! ## Long packets -/

/-- Some bytes, all the same. The value stays as it is when they cannot be read. -/
def repeated (count : Nat) : SerializableObject Bool where
  writeObject value := List.replicate (count + 1) (.write .uint8 (if value then 1 else 0))
  readObject rd old := fun s =>
    match Reading.times (rd.read .uint8) (count + 1) s with
    | (.ok (byte :: _), t) => (.ok (byte == 1), t)
    | (.ok [], t) | (.error _, t) => (.ok old, t)

theorem inverse_repeated (count : Nat) : Inverse fun _ => repeated count := by
  intro id σ rd old value s t replays
  let byte : UInt8 := if value then 1 else 0
  have one : ReadsBack rd (rd.read .uint8) [.write .uint8 byte] byte := readsBack_read .uint8 byte
  have all := readsBack_times (List.replicate (count + 1) ()) fun _ _ => one
  rw [List.length_replicate, List.flatMap_replicate, List.flatten_replicate_singleton,
    List.map_replicate] at all
  have read : Reading.times (rd.read .uint8) (count + 1) s =
    (.ok (List.replicate (count + 1) byte), t) := all s t replays
  simp only [repeated, read, List.replicate_succ]
  cases value with
  | true | false => rfl

theorem length_repeated (count : Nat) (value : Bool) :
    (encodeAll ((repeated count).writeObject value)).length = count + 1 := by
  simp [encodeAll, repeated, Call.encode, encode]

/-- Of a packet whose length passes the header's field by the size of an empty one, an empty one
is sent. -/
theorem send_wrapped (id : GUID) {calls : List Call} (length : (encodeAll calls).length = 2 ^ 32) :
    Cluster.send (Outgoing.dataPacket mPluginGUID id calls).packet [] =
      some (Outgoing.dataPacket mPluginGUID id []).bytes := by
  let short := Outgoing.dataPacket mPluginGUID id []
  have small : short.size < 2 ^ 32 := by
    simp [short, Outgoing.size, Outgoing.fields, Outgoing.object, Cluster.DataPacket.calls,
      GUID.writeObject, Call.encode, encode, Cluster.RIM_PACKET_HEAD_SIZE]
  have header : (Outgoing.dataPacket mPluginGUID id calls).sentHeader = short.sentHeader := by
    have wraps : ∀ front : Nat, UInt32.ofNat (front + 2 ^ 32 + Cluster.RIM_PACKET_HEAD_SIZE) =
        UInt32.ofNat (front + Cluster.RIM_PACKET_HEAD_SIZE) := by
      intro front
      apply UInt32.toNat.inj
      rw [UInt32.toNat_ofNat', UInt32.toNat_ofNat', Nat.add_right_comm, Nat.add_mod_right]
    simp only [Outgoing.sentHeader, Cluster.Header.withLength, encodeAll_append,
      List.length_append]
    rw [Outgoing.object, length, wraps]
    rfl
  have bytes : (Outgoing.dataPacket mPluginGUID id calls).bytes =
      short.bytes ++ encodeAll calls := by
    rw [Outgoing.bytes, header]
    simp [short, Outgoing.bytes, Outgoing.fields, Outgoing.object]
  have size : (Outgoing.dataPacket mPluginGUID id calls).packet.mHeader.mPacketLength.toNat =
      short.bytes.length := by
    rw [Outgoing.length_bytes, ← Outgoing.sentHeader_length small, ← header]
    rfl
  have data : (Outgoing.dataPacket mPluginGUID id calls).packet.mPacketWriter.mData =
    short.bytes ++ encodeAll calls := bytes
  rw [Cluster.send, data, size, List.length_append, if_pos (Nat.le_add_right _ _),
    List.take_left, List.nil_append]

/-- The packet of the master's object. -/
def longPacket (count : Nat) : Outgoing :=
  .dataPacket mPluginGUID mPluginGUID ((repeated count).writeObject true)

/-- The master has sent its object to the slave. -/
def emptySent (count : Nat) : State 1 fun _ => Bool :=
  let called : State 1 fun _ => Bool :=
    { (start mixed).setThread .master (.preDraw [mPluginGUID]) with drawn := [mixed .master] }
  let serialized : State 1 fun _ => Bool :=
    { called.setThread .master (.sendToAll [onlySlave] mPluginGUID []) with
      mDataPacket := Function.update createPacket mPluginGUID (longPacket count).packet }
  { serialized.setThread .master (.sendToAll [] mPluginGUID []) with
    cluster := serialized.cluster.put .master onlySlave
      (.other (Outgoing.dataPacket mPluginGUID mPluginGUID []).bytes) }

theorem run_emptySent {count : Nat} (wraps : count + 1 = 2 ^ 32) :
    run (State.step (fun _ => repeated count) [mPluginGUID] (fun _ => .littleEndian) fun _ => 0)
      (start mixed) [.preDraw .master, .serialize, .send] = some (emptySent count) := by
  have fits : ∀ call ∈ Cluster.DataPacket.calls mPluginGUID mPluginGUID
      ((repeated count).writeObject true), call.Fits := by
    intro call member
    rw [dataPacket_calls] at member
    rcases List.mem_append.mp member with field | byte
    · exact calls_fit (by decide) call field
    · obtain rfl := List.eq_of_mem_replicate byte
      trivial
  have done : serialize .littleEndian (createPacket mPluginGUID)
      ((repeated count).writeObject true) = some (longPacket count).packet :=
    serialize_reused (reusable_createPacket mPluginGUID) fits
  have sent : Cluster.send (Function.update createPacket mPluginGUID (longPacket count).packet
      mPluginGUID) [] = some (Outgoing.dataPacket mPluginGUID mPluginGUID []).bytes := by
    rw [Function.update_self]
    exact send_wrapped mPluginGUID ((length_repeated count true).trans wraps)
  apply run_cons_eq_some.mpr ⟨_, rfl, run_cons_eq_some.mpr ⟨_, congrArg (Option.map _) done, ?_⟩⟩
  apply run_cons_eq_some.mpr ⟨_, ?_, rfl⟩
  exact congrArg (fun bytes => Option.bind bytes _) sent

theorem run_long (count : Nat) (wraps : count + 1 = 2 ^ 32) {s : State 1 fun _ => Bool}
    (reached : run (State.step (fun _ => repeated count) [mPluginGUID] (fun _ => .littleEndian)
      fun _ => 0) (emptySent count) slaveDraws = some s) :
    run (State.step (fun _ => repeated count) [mPluginGUID] (fun _ => .littleEndian) fun _ => 0)
      (start mixed) ([.preDraw .master, .serialize, .send] ++ slaveDraws) = some s := by
  rw [run_append, run_emptySent wraps, Option.bind_some, reached]

/-- With `2 ^ 32` bytes of data the slave keeps the value that its object had. -/
theorem shared_data_fails :
    ∃ (object : GUID → SerializableObject Bool) (acts : List (Act 1 fun _ => Bool))
      (s : State 1 fun _ => Bool) (shown drawn : Values fun _ => Bool),
      Inverse object ∧
      run (State.step object [mPluginGUID] (fun _ => .littleEndian) fun _ => 0) (start mixed)
        acts = some s ∧
      (s.shown onlySlave)[0]? = some shown ∧ s.drawn[0]? = some drawn ∧
      shown mPluginGUID ≠ drawn mPluginGUID := by
  have ends : (run (State.step (fun _ => repeated 4294967295) [mPluginGUID]
      (fun _ => .littleEndian) fun _ => 0) (emptySent 4294967295) slaveDraws).map
        (fun s => ((s.shown onlySlave).map fun v => v mPluginGUID,
          s.drawn.map fun v => v mPluginGUID)) = some ([false], [true]) := by decide +kernel
  obtain ⟨s, reached, values⟩ := Option.map_eq_some_iff.mp ends
  have long := run_long 4294967295 (by decide) reached
  obtain ⟨shown, one, unset⟩ := List.map_eq_singleton_iff.mp (congrArg Prod.fst values)
  obtain ⟨drawn, one', isSet⟩ := List.map_eq_singleton_iff.mp (congrArg Prod.snd values)
  refine ⟨fun _ => repeated 4294967295, [.preDraw .master, .serialize, .send] ++ slaveDraws, s,
    shown, drawn, inverse_repeated _, ?_, ?_, ?_, ?_⟩
  · exact long
  · rw [one]
    rfl
  · rw [one']
    rfl
  · rw [unset, isSet]
    decide

end VRJuggler.ApplicationData
