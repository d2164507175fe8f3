import VRJuggler.Cluster.RemoteInputSteps

/-!
# Shared devices

When a call of `postPostFrame` returns on a slave of a star cluster, its virtual devices are those
that the master served at its call of the same number, with the samples that these devices had
then. The updates of the nodes are in lock-step, and the packets of each update end with an end
block; along a run it is kept what all packets bring that the master has sent, and what those
bring that it had sent at the end of each frame.
-/
namespace VRJuggler.RemoteInput

open VRJuggler (ByteOrder)
open VRJuggler.Cluster (GUID Packet Outgoing)
open VRJuggler.Gadget (Host InputType InputManager starNeighbours)
open VRJuggler.Io

variable {n : Nat} {τ π : Type} [DecidableEq π] {site : Site n τ}

/-! ## Packets of a server -/

/-- A packet that was used before is serialized like a new one. -/
structure Reusable (id : GUID) (packet : Packet) : Prop where
  plugin : packet.mPluginId = mHandlerGUID
  body : packet.body = .dataPacket id
  header : ∀ payload, packet.mHeader.withLength payload =
    (Outgoing.dataPacket mHandlerGUID id []).header.withLength payload

theorem reusable_createPacket (id : GUID) : Reusable id (createPacket id) :=
  ⟨rfl, rfl, fun _ => rfl⟩

theorem reusable_sent (id : GUID) (calls : List Call) :
    Reusable id (Outgoing.dataPacket mHandlerGUID id calls).packet := ⟨rfl, rfl, fun _ => rfl⟩

theorem serialize_reused {host : ByteOrder} {id : GUID} {packet : Packet}
    (reusable : Reusable id packet) {calls : List Call}
    (small : (Outgoing.dataPacket mHandlerGUID id calls).size < 2 ^ 32) :
    ApplicationData.serialize host packet calls =
      some (Outgoing.dataPacket mHandlerGUID id calls).packet := by
  have all : Cluster.DataPacket.calls mHandlerGUID id calls =
      Cluster.DataPacket.calls mHandlerGUID id [] ++ calls := by
    simp [Cluster.DataPacket.calls]
  have fits : ∀ call ∈ Cluster.DataPacket.calls mHandlerGUID id calls, call.Fits := by
    rw [all]
    exact fits_of_small ((Nat.le_add_left _ _).trans_lt small)
  rw [ApplicationData.serialize, reusable.body]
  simp only [reusable.plugin]
  rw [Cluster.serialize_eq host _ _ _ fits, reusable.header, all]
  rfl

/-! ## What packets bring -/

section Brings

variable (site) (inputManager : Host n → InputManager Created τ π) (k : Fin n)

/-- The packets are handled by a slave without an exception, and its virtual devices are then
those of the known ids, with the contents given. -/
def Brings (packets : List (Gadget.Packet (List UInt8))) (known : GUID → Prop)
    (contents : Devices site.type) : Prop :=
  ∃ plugin serial,
    packets.foldlM (site.deliver (.slave k)) (create (inputManager (.slave k))) = some plugin ∧
    Mirrors site known contents serial plugin

variable {site inputManager k} {packets : List (Gadget.Packet (List UInt8))} {known : GUID → Prop}
  {contents : Devices site.type}

theorem brings_nil (contents : Devices site.type) :
    Brings site inputManager k [] (fun _ => False) contents :=
  ⟨_, fun _ => 0, rfl, mirrors_create _ _ _⟩

theorem Brings.congr (brings : Brings site inputManager k packets known contents)
    {known' : GUID → Prop} {contents' : Devices site.type} (same : ∀ id, known' id ↔ known id)
    (equal : ∀ id, known id → contents' id = contents id) :
    Brings site inputManager k packets known' contents' := by
  obtain ⟨plugin, serial, handled, mirrors⟩ := brings
  exact ⟨plugin, serial, handled, mirrors.congr same equal⟩

/-- One packet more is handled. -/
theorem foldlM_snoc {plugin handled : Plugin τ π} {p : Gadget.Packet (List UInt8)}
    {i : Host n} {first : Plugin τ π}
    (before : packets.foldlM (site.deliver i) first = some plugin)
    (last : site.deliver i plugin p = some handled) :
    (packets ++ [p]).foldlM (site.deliver i) first = some handled := by
  rw [List.foldlM_append, before]
  simp [last]

/-- A packet that is for others may come at any time. -/
theorem Brings.ignored (brings : Brings site inputManager k packets known contents)
    {p : Gadget.Packet (List UInt8)}
    (ignored : ∀ plugin : Plugin τ π, site.deliver (.slave k) plugin p = some plugin) :
    Brings site inputManager k (packets ++ [p]) known contents := by
  obtain ⟨plugin, serial, handled, mirrors⟩ := brings
  exact ⟨plugin, serial, foldlM_snoc handled (ignored plugin), mirrors⟩

theorem Brings.acknowledged (brings : Brings site inputManager k packets known contents)
    {id : GUID} (fresh : ¬ known id) (names : ∀ other, known other → site.name other ≠ site.name id)
    (registered : site.type id ∈ hackLoadKnownDevices)
    (empty : contents id = placeholder (site.type id))
    (small : (site.deviceAck id).size < 2 ^ 32) :
    Brings site inputManager k (packets ++ [.other (site.deviceAck id).bytes])
      (fun other => known other ∨ other = id) contents := by
  obtain ⟨plugin, serial, handled, mirrors⟩ := brings
  exact ⟨_, _, foldlM_snoc handled (deliver_ack small),
    mirrors.acknowledge fresh names registered empty⟩

theorem Brings.data (brings : Brings site inputManager k packets known contents) {id : GUID}
    (here : known id) {device : (site.type id).Device}
    (within : (site.type id).Every (fun b => b.Within) device)
    (idle : (site.type id).Every (fun b => b.Idle) (contents id))
    (small : (Outgoing.dataPacket mHandlerGUID id ((site.type id).writeObject device)).size <
      2 ^ 32) :
    Brings site inputManager k
      (packets ++ [.other (Outgoing.dataPacket mHandlerGUID id
        ((site.type id).writeObject device)).bytes])
      known (Function.update contents id
        ((site.type id).replica (site.mDelta (.slave k)) (contents id) device)) := by
  obtain ⟨plugin, serial, handled, mirrors⟩ := brings
  obtain ⟨plugin', delivered, mirrors'⟩ := deliver_data mirrors here within idle small
  exact ⟨plugin', serial, foldlM_snoc handled delivered, mirrors'⟩

end Brings

/-! ## What the master has sent -/

section Feeding

variable (inputManager : Host n → InputManager Created τ π) {s t : State n τ π site.type}

/-- The master has called `postPostFrame`, which has not returned. -/
def Thread.posting : Thread n → Bool
  | .postPostFrame _ | .sendData .. | .updatePost => true
  | .beforeDraw | .sendAck .. | .updateDraw | .afterDraw => false

/-- The server that was added, if its device is still to be acknowledged to the node. -/
def Thread.owing : Thread n → Host n → List GUID
  | .sendAck _ nodes id _, h => if nodes.contains h then [id] else []
  | .beforeDraw, _ | .updateDraw, _ | .afterDraw, _ | .postPostFrame _, _ | .sendData .., _
  | .updatePost, _ => []

/-- The servers that have not yet sent to the node. -/
def Thread.remaining : Thread n → Host n → List GUID
  | .postPostFrame servers, _ => servers
  | .sendData nodes id servers, h => if nodes.contains h then id :: servers else servers
  | .beforeDraw, _ | .sendAck .., _ | .updateDraw, _ | .afterDraw, _ | .updatePost, _ => []

@[simp] theorem posting_resting (drawn : Bool) : (resting drawn : Thread n).posting = false := by
  cases drawn <;> rfl

@[simp] theorem owing_resting (drawn : Bool) (h : Host n) : (resting drawn).owing h = [] := by
  cases drawn <;> rfl

@[simp] theorem remaining_resting (drawn : Bool) (h : Host n) :
    (resting drawn).remaining h = [] := by
  cases drawn <;> rfl

/-- The device under the id was acknowledged to the node. -/
def Known (s : State n τ π site.type) (h : Host n) (id : GUID) : Prop :=
  id ∈ s.mDeviceServers ∧ id ∉ (s.thread .master).owing h

/-- What the devices of a slave should contain when all packets have come that were sent. -/
def view (s : State n τ π site.type) (k : Fin n) : Devices site.type := fun id =>
  if id ∈ (s.thread .master).remaining (.slave k) then
    expected (site.mDelta (.slave k)) s.posted.dropLast id
  else expected (site.mDelta (.slave k)) s.posted id

/-- The device that was added last, under a new id and a new name, is acknowledged. -/
structure Acknowledging (s : State n τ π site.type) (nodes : List (Host n)) (id : GUID)
    (device_ack : Packet) : Prop where
  nodes : nodes <:+ starNeighbours .master
  packet : device_ack = (site.deviceAck id).packet
  small : (site.deviceAck id).size < 2 ^ 32
  registered : site.type id ∈ hackLoadKnownDevices
  names : ∀ other ∈ s.mDeviceServers, other ≠ id → site.name other ≠ site.name id
  served : id ∈ s.mDeviceServers
  unserved : ∀ post ∈ s.posted, id ∉ post.servers

/-- The loops in which the master sends. -/
def Sending (s : State n τ π site.type) : Thread n → Prop
  | .sendAck _ nodes id device_ack => Acknowledging s nodes id device_ack
  | .postPostFrame servers => servers <:+ s.mDeviceServers
  | .sendData nodes id servers =>
    id :: servers <:+ s.mDeviceServers ∧ nodes <:+ starNeighbours .master ∧
    Transmissible site id (s.devices id) ∧
    s.mDataPacket id =
      (Outgoing.dataPacket mHandlerGUID id ((site.type id).writeObject (s.devices id))).packet
  | .beforeDraw | .updateDraw | .afterDraw | .updatePost => True

omit [DecidableEq π] in
theorem Sending.of_same {thread : Thread n} (sending : Sending s thread)
    (servers : t.mDeviceServers = s.mDeviceServers) (devices : t.devices = s.devices)
    (packets : t.mDataPacket = s.mDataPacket) (posted : t.posted = s.posted) :
    Sending t thread := by
  cases thread with
  | sendAck drawn nodes id device_ack =>
    obtain ⟨suffix, packet, small, registered, names, served, unserved⟩ := sending
    exact ⟨suffix, packet, small, registered, servers ▸ names, servers ▸ served,
      posted ▸ unserved⟩
  | postPostFrame left => simpa only [Sending, servers] using sending
  | sendData nodes id left => simpa only [Sending, servers, devices, packets] using sending
  | beforeDraw | updateDraw | afterDraw | updatePost => trivial

/-- The packets that the master had sent at the end of its call of `postPostFrame` number `m`
bring what it had at the call. -/
def Milestone (s : State n τ π site.type) (k : Fin n) (m : Nat) : Prop :=
  ∃ post front frameNum, s.posted[m]? = some post ∧
    front ++ [.endBlock frameNum] <+: s.cluster.sent .master (.slave k) ∧
    closed Gadget.Packet.isEndBlock front = 2 * m + 1 ∧
    Brings site inputManager k (front ++ [.endBlock frameNum]) (· ∈ post.servers)
      (expected (site.mDelta (.slave k)) (s.posted.take (m + 1)))

/-- What the master has sent brings the devices that it served to the slaves. -/
structure Feeding (s : State n τ π site.type) : Prop where
  reusable : ∀ id, Reusable id (s.mDataPacket id)
  nodup : s.mDeviceServers.Nodup
  sending : Sending s (s.thread .master)
  served : ∀ post ∈ s.posted, ∀ id ∈ post.servers, id ∈ s.mDeviceServers
  counted : s.posted.length = (s.shown .master).length + (s.thread .master).posting.toNat
  last : (s.thread .master).posting → s.posted.getLast? = some ⟨s.mDeviceServers, s.devices⟩
  brings : ∀ k, Brings site inputManager k (s.cluster.sent .master (.slave k))
    (Known s (.slave k)) (view s k)
  milestones : ∀ k m,
    2 * m + 2 ≤ closed Gadget.Packet.isEndBlock (s.cluster.sent .master (.slave k)) →
      Milestone inputManager s k m

variable {inputManager}

/-- Neither what was posted nor what was sent is forgotten. -/
theorem Milestone.grow {k : Fin n} {m : Nat} (milestone : Milestone inputManager s k m)
    (posted : s.posted <+: t.posted)
    (sent : s.cluster.sent .master (.slave k) <+: t.cluster.sent .master (.slave k)) :
    Milestone inputManager t k m := by
  obtain ⟨post, front, frameNum, here, before, counted, brings⟩ := milestone
  obtain ⟨later, posted⟩ := posted
  obtain ⟨early, -⟩ := List.getElem?_eq_some_iff.mp here
  refine ⟨post, front, frameNum, ?_, before.trans sent, counted, ?_⟩
  · rw [← posted, List.getElem?_append_left early]
    exact here
  · rw [← posted, List.take_append_of_le_length early]
    exact brings

theorem slave_mem_starNeighbours (k : Fin n) : Host.slave k ∈ starNeighbours .master :=
  List.mem_map.mpr ⟨k, List.mem_finRange k, rfl⟩

/-- What a loop is at does not come again in it. -/
theorem not_mem_of_suffix {α : Type} {a : α} {rest all : List α} (suffix : a :: rest <:+ all)
    (nodup : all.Nodup) : a ∉ rest :=
  (List.nodup_cons.mp (nodup.sublist suffix.sublist)).1

theorem Feeding.of_same (feeding : Feeding inputManager s) (same : Same s t .master)
    (servers : t.mDeviceServers = s.mDeviceServers) (devices : t.devices = s.devices)
    (packets : t.mDataPacket = s.mDataPacket) (posted : t.posted = s.posted) :
    Feeding inputManager t := by
  have known : ∀ k, Known t (.slave k) = Known s (.slave k) := by
    intro k
    unfold Known
    rw [servers, same.thread]
  have viewed : ∀ k, view t k = view s k := by
    intro k
    unfold view
    rw [posted, same.thread]
  constructor
  · rw [packets]
    exact feeding.reusable
  · rw [servers]
    exact feeding.nodup
  · rw [same.thread]
    exact feeding.sending.of_same servers devices packets posted
  · rw [posted, servers]
    exact feeding.served
  · rw [posted, same.shown, same.thread]
    exact feeding.counted
  · rw [same.thread, posted, servers, devices]
    exact feeding.last
  · intro k
    rw [same.sent, known, viewed]
    exact feeding.brings k
  · intro k m
    rw [same.sent]
    intro ended
    exact (feeding.milestones k m ended).grow (posted ▸ List.prefix_rfl)
      (same.sent ▸ List.prefix_rfl)

/-- The thread of the master goes on to a place that is like the one before. -/
theorem Feeding.setThread (feeding : Feeding inputManager s) {thread : Thread n}
    {mDataPacket : GUID → Packet} (reusable : ∀ id, Reusable id (mDataPacket id))
    (sending : Sending { s with mDataPacket := mDataPacket } thread)
    (posting : thread.posting = (s.thread .master).posting)
    (owing : ∀ k, thread.owing (.slave k) = (s.thread .master).owing (.slave k))
    (remaining : ∀ k, thread.remaining (.slave k) = (s.thread .master).remaining (.slave k)) :
    Feeding inputManager { s.setThread site .master thread with mDataPacket := mDataPacket } := by
  have now := State.setThread_self (s := s) .master thread
  constructor
  · exact reusable
  · exact feeding.nodup
  · rw [now]
    cases thread with
    | sendAck => exact ⟨sending.1, sending.2, sending.3, sending.4, sending.5, sending.6, sending.7⟩
    | postPostFrame | sendData => exact sending
    | beforeDraw | updateDraw | afterDraw | updatePost => trivial
  · exact feeding.served
  · rw [now, posting]
    exact feeding.counted
  · rw [now, posting]
    exact feeding.last
  · intro k
    refine (feeding.brings k).congr (fun id => ?_) fun id known => ?_
    · unfold Known
      rw [now, owing]
      rfl
    · unfold view
      rw [now, remaining]
      rfl
  · intro k m ended
    exact (feeding.milestones k m ended).grow List.prefix_rfl List.prefix_rfl

/-- Of the network only what the master has sent matters. -/
theorem Feeding.setCluster (feeding : Feeding inputManager s)
    {cluster : Gadget.Cluster (Host n) (List UInt8)} {plugin : Host n → Plugin τ π}
    (sent : cluster.sent = s.cluster.sent) :
    Feeding inputManager { s with cluster := cluster, plugin := plugin } where
  reusable := feeding.reusable
  nodup := feeding.nodup
  sending := feeding.sending.of_same rfl rfl rfl rfl
  served := feeding.served
  counted := feeding.counted
  last := feeding.last
  brings := by
    simp only [sent]
    exact feeding.brings
  milestones := by
    intro k m
    simp only [sent]
    intro ended
    exact (feeding.milestones k m ended).grow List.prefix_rfl (sent ▸ List.prefix_rfl)

/-- The master is configured with a device, which no slave knows yet. -/
theorem Feeding.configures (feeding : Feeding inputManager s) {drawn : Bool} {id : GUID}
    (rests : s.thread .master = resting drawn) (proper : Proper site s (.configAdd id)) :
    Feeding inputManager { s.setThread site .master
        (.sendAck drawn (starNeighbours .master) id (site.deviceAck id).packet) with
      mDeviceServers := s.mDeviceServers ++ [id] } := by
  obtain ⟨fresh, names, registered, small⟩ := proper
  have now := State.setThread_self (s := s) .master
    (.sendAck drawn (starNeighbours .master) id (site.deviceAck id).packet)
  have counted := feeding.counted
  rw [rests, posting_resting] at counted
  constructor
  · exact feeding.reusable
  · exact List.nodup_append_comm.mp (List.nodup_cons.mpr ⟨fresh, feeding.nodup⟩)
  · rw [now]
    refine ⟨List.suffix_rfl, rfl, small, registered, ?_, by simp, ?_⟩
    · intro other member different
      rcases List.mem_append.mp member with older | last
      · exact names other older
      · exact absurd (List.mem_singleton.mp last) different
    · intro post member served
      exact fresh (feeding.served post member id served)
  · intro post member other served
    exact List.mem_append_left _ (feeding.served post member other served)
  · rw [now]
    exact counted
  · rw [now]
    intro posting
    cases posting
  · intro k
    have before := feeding.brings k
    have member := slave_mem_starNeighbours k
    refine before.congr (fun other => ?_) fun other known => ?_
    · simp only [Known, now, rests, owing_resting]
      simp only [Thread.owing, List.contains_iff_mem, member, if_true, List.mem_append,
        List.mem_singleton, List.not_mem_nil, not_false_iff, and_true]
      constructor
      · rintro ⟨older | same, different⟩
        · exact older
        · exact absurd same different
      · intro older
        refine ⟨Or.inl older, ?_⟩
        rintro rfl
        exact fresh older
    · simp only [view, now, rests, remaining_resting]
      rfl
  · intro k m ended
    exact (feeding.milestones k m ended).grow List.prefix_rfl List.prefix_rfl

/-- The master begins to post: the data of all its devices are still to be sent. -/
theorem Feeding.posts (feeding : Feeding inputManager s)
    (rests : s.thread .master = .afterDraw) :
    Feeding inputManager { s.setThread site .master (.postPostFrame s.mDeviceServers) with
      posted := s.posted ++ [⟨s.mDeviceServers, s.devices⟩] } := by
  have now := State.setThread_self (s := s) .master (.postPostFrame s.mDeviceServers)
  have counted := feeding.counted
  rw [rests] at counted
  constructor
  · exact feeding.reusable
  · exact feeding.nodup
  · rw [now]
    exact List.suffix_rfl
  · intro post member id served
    rcases List.mem_append.mp member with older | last
    · exact feeding.served post older id served
    · obtain rfl := List.mem_singleton.mp last
      exact served
  · rw [now]
    simpa [Thread.posting, State.setThread] using counted
  · intro _
    simp [State.setThread]
  · intro k
    refine (feeding.brings k).congr (fun id => ?_) fun id known => ?_
    · simp only [Known, now, rests, Thread.owing]
      rfl
    · -- what was posted now is of no account yet
      simp only [view, now, rests, Thread.remaining, List.not_mem_nil, if_false,
        List.dropLast_concat, expected_snoc]
      split
      · rfl
      · rfl
  · intro k m ended
    exact (feeding.milestones k m ended).grow (List.prefix_append _ _) List.prefix_rfl

/-- A device is written into its packet, which goes to all slaves. -/
theorem Feeding.serialized (feeding : Feeding inputManager s) {id : GUID} {servers : List GUID}
    {packet : Packet} (here : s.thread .master = .postPostFrame (id :: servers))
    (fits : Transmissible site id (s.devices id))
    (done : ApplicationData.serialize (site.order .master) (s.mDataPacket id)
      ((site.type id).writeObject (s.devices id)) = some packet) :
    Feeding inputManager { s.setThread site .master
        (.sendData (starNeighbours .master) id servers) with
      mDataPacket := Function.update s.mDataPacket id packet } := by
  obtain ⟨within, small⟩ := fits
  have sending := feeding.sending
  rw [here] at sending
  rw [serialize_reused (feeding.reusable id) small] at done
  obtain rfl := Option.some.inj done
  apply feeding.setThread
  · intro other
    by_cases same : other = id
    · subst same
      rw [Function.update_self]
      exact reusable_sent ..
    · rw [Function.update_of_ne same]
      exact feeding.reusable other
  · exact ⟨sending, List.suffix_rfl, ⟨within, small⟩, Function.update_self ..⟩
  · rw [here]
    rfl
  · intro k
    rw [here]
    rfl
  · intro k
    simp [here, Thread.remaining, slave_mem_starNeighbours]

theorem put_sent (c : Gadget.Cluster (Host n) (List UInt8)) (i j a b : Host n)
    (p : Gadget.Packet (List UInt8)) :
    (c.put i j p).sent a b = c.sent a b ++ if a = i ∧ b = j then [p] else [] := by
  simp only [Gadget.Cluster.put]
  split
  · rfl
  · rw [List.append_nil]

/-- A packet that ends no frame brings no milestone. -/
theorem Feeding.milestones_put (feeding : Feeding inputManager s) {j : Host n}
    {bytes : List UInt8} (posted : t.posted = s.posted)
    (sent : t.cluster.sent = (s.cluster.put .master j (.other bytes)).sent) (k : Fin n) (m : Nat)
    (ended : 2 * m + 2 ≤
      closed Gadget.Packet.isEndBlock (t.cluster.sent .master (.slave k))) :
    Milestone inputManager t k m := by
  have none : closed Gadget.Packet.isEndBlock
      (if Host.master (n := n) = .master ∧ Host.slave k = j then [.other bytes] else []) = 0 := by
    split <;> rfl
  rw [sent, put_sent, closed_append, none, Nat.add_zero] at ended
  refine (feeding.milestones k m ended).grow (posted ▸ List.prefix_rfl) ?_
  rw [sent, put_sent]
  exact List.prefix_append _ _

/-- The master has sent a packet that is not for this plugin. -/
theorem Feeding.put (feeding : Feeding inputManager s) {j : Host n} {bytes : List UInt8}
    (ignored : ∀ (a : Host n) (plugin : Plugin τ π),
      site.deliver a plugin (.other bytes) = some plugin) :
    Feeding inputManager { s with cluster := s.cluster.put .master j (.other bytes) } where
  reusable := feeding.reusable
  nodup := feeding.nodup
  sending := feeding.sending.of_same rfl rfl rfl rfl
  served := feeding.served
  counted := feeding.counted
  last := feeding.last
  brings := fun k => by
    simp only [put_sent, true_and]
    split
    · exact (feeding.brings k).ignored (ignored _)
    · rw [List.append_nil]
      exact feeding.brings k
  milestones := feeding.milestones_put rfl rfl

/-- An acknowledgement is sent to one node more. -/
theorem Feeding.acknowledged (feeding : Feeding inputManager s) {drawn : Bool} {j : Host n}
    {nodes : List (Host n)} {id : GUID} {device_ack : Packet} {bytes : List UInt8}
    (here : s.thread .master = .sendAck drawn (j :: nodes) id device_ack)
    (done : Cluster.send device_ack [] = some bytes) :
    Feeding inputManager { s.setThread site .master (.sendAck drawn nodes id device_ack) with
      cluster := s.cluster.put .master j (.other bytes) } := by
  have now := State.setThread_self (s := s) .master (.sendAck drawn nodes id device_ack)
  have sending := feeding.sending
  have counted := feeding.counted
  rw [here] at sending counted
  obtain ⟨nodesLeft, rfl, small, registered, names, added, unserved⟩ := sending
  rw [Outgoing.send_of_small small, List.nil_append] at done
  obtain rfl := Option.some.inj done
  have later : j ∉ nodes := not_mem_of_suffix nodesLeft (Gadget.starNeighbours_nodup _)
  constructor
  · exact feeding.reusable
  · exact feeding.nodup
  · rw [now]
    exact ⟨(List.suffix_cons j nodes).trans nodesLeft, rfl, small, registered, names, added,
      unserved⟩
  · exact feeding.served
  · rw [now]
    exact counted
  · rw [now]
    intro posting
    cases posting
  · intro k
    have before := feeding.brings k
    have viewed : ∀ other, view s k other =
        expected (site.mDelta (.slave k)) s.posted other := by
      intro other
      simp only [view, here, Thread.remaining, List.not_mem_nil, if_false]
    simp only [put_sent, true_and]
    split
    next receiver =>
      -- the device is made here, and nothing of it was posted yet
      have fresh : ¬ Known s (.slave k) id := fun known => known.2 (by
        have waits : Host.slave k ∈ j :: nodes := receiver ▸ List.mem_cons_self ..
        rw [here, Thread.owing, if_pos (List.contains_iff_mem.mpr waits)]
        exact List.mem_singleton.mpr rfl)
      have empty : view s k id = placeholder (site.type id) := by
        rw [viewed]
        exact expected_unserved _ unserved
      have made := before.acknowledged fresh (fun other known => names other known.1 (by
        rintro rfl
        exact fresh known)) registered empty small
      refine made.congr (fun other => ?_) fun other known => ?_
      · simp only [Known, now, here, Thread.owing, List.contains_iff_mem, receiver, later,
          List.mem_cons, if_true, if_false, or_false, List.not_mem_nil, not_false_iff, and_true]
        constructor
        · intro member
          by_cases same : other = id
          · exact Or.inr same
          · exact Or.inl ⟨member, same⟩
        · rintro (known | rfl)
          · exact known.1
          · exact added
      · rw [viewed]
        simp only [view, now, Thread.remaining, List.not_mem_nil, if_false]
        rfl
    next other =>
      rw [List.append_nil]
      refine before.congr (fun id => ?_) fun id known => ?_
      · simp only [Known, now, here, Thread.owing, List.contains_iff_mem, List.mem_cons, other,
          false_or]
        rfl
      · rw [viewed]
        simp only [view, now, Thread.remaining, List.not_mem_nil, if_false]
        rfl
  · exact feeding.milestones_put rfl rfl

/-- The data of a device are sent to one node more. -/
theorem Feeding.sent (feeding : Feeding inputManager s) {j : Host n} {nodes : List (Host n)}
    {id : GUID} {servers : List GUID} {bytes : List UInt8}
    (here : s.thread .master = .sendData (j :: nodes) id servers)
    (done : Cluster.send (s.mDataPacket id) [] = some bytes) :
    Feeding inputManager { s.setThread site .master (.sendData nodes id servers) with
      cluster := s.cluster.put .master j (.other bytes) } := by
  have now := State.setThread_self (s := s) .master (.sendData nodes id servers)
  have sending := feeding.sending
  have counted := feeding.counted
  have last := feeding.last
  rw [here] at sending counted last
  obtain ⟨suffix, nodesLeft, ⟨within, small⟩, packet⟩ := sending
  rw [packet, Outgoing.send_of_small small, List.nil_append] at done
  obtain rfl := Option.some.inj done
  have added : id ∈ s.mDeviceServers := suffix.subset (List.mem_cons_self ..)
  have later : id ∉ servers := not_mem_of_suffix suffix feeding.nodup
  have once : j ∉ nodes := not_mem_of_suffix nodesLeft (Gadget.starNeighbours_nodup _)
  have known : ∀ k other, Known s (.slave k) other ↔ other ∈ s.mDeviceServers := by
    intro k other
    simp [Known, here, Thread.owing]
  constructor
  · exact feeding.reusable
  · exact feeding.nodup
  · rw [now]
    exact ⟨suffix, (List.suffix_cons j nodes).trans nodesLeft, ⟨within, small⟩, packet⟩
  · exact feeding.served
  · rw [now]
    exact counted
  · rw [now]
    exact last
  · intro k
    have before := feeding.brings k
    have known' : ∀ other, Known { s.setThread site .master (.sendData nodes id servers) with
        cluster := s.cluster.put .master j (.other (Outgoing.dataPacket mHandlerGUID id
          ((site.type id).writeObject (s.devices id))).bytes) } (.slave k) other ↔
        Known s (.slave k) other := by
      intro other
      rw [known]
      simp [Known, now, Thread.owing]
    simp only [put_sent, true_and]
    split
    next receiver =>
      subst receiver
      have old : view s k id = expected (site.mDelta (.slave k)) s.posted.dropLast id := by
        simp [view, here, Thread.remaining]
      have idle : (site.type id).Every (fun b => b.Idle) (view s k id) := by
        rw [old]
        exact idle_expected ..
      refine (before.data ((known k id).mpr added) within idle small).congr known' ?_
      intro other _
      by_cases same : other = id
      · subst same
        -- the last posted devices are those that the master has
        obtain ⟨earlier, posted⟩ := List.getLast?_eq_some_iff.mp (last rfl)
        rw [Function.update_self, old]
        -- and the server does not send to this node again
        simp only [view, now, Thread.remaining, List.contains_iff_mem, once, if_false, later,
          State.setThread_posted]
        rw [posted, expected_snoc, List.dropLast_concat, if_pos added]
      · rw [Function.update_of_ne same]
        simp only [view, now, here, Thread.remaining, List.contains_iff_mem, once, List.mem_cons,
          true_or, if_true, if_false, same, false_or, State.setThread_posted]
    next other =>
      rw [List.append_nil]
      refine before.congr known' fun id _ => ?_
      simp only [view, now, here, Thread.remaining, List.contains_iff_mem, List.mem_cons, other,
        false_or]
      rfl
  · exact feeding.milestones_put rfl rfl

/-- When the master calls `update` in `postPostFrame`, it has sent what it had at the call. -/
theorem Feeding.posted_sent (feeding : Feeding inputManager s)
    (here : s.thread .master = .updatePost) (k : Fin n) :
    s.posted.length = (s.shown .master).length + 1 ∧ ∃ post,
      s.posted[(s.shown .master).length]? = some post ∧
      Brings site inputManager k (s.cluster.sent .master (.slave k)) (· ∈ post.servers)
        (expected (site.mDelta (.slave k)) s.posted) := by
  have counted := feeding.counted
  have last := feeding.last
  rw [here] at counted last
  have length : s.posted.length = (s.shown .master).length + 1 := counted
  refine ⟨length, ⟨s.mDeviceServers, s.devices⟩, ?_,
    (feeding.brings k).congr (fun id => ?_) fun id known => ?_⟩
  · rw [← last rfl, List.getLast?_eq_getElem?, length, Nat.add_sub_cancel]
  · simp [Known, here, Thread.owing]
  · simp [view, here, Thread.remaining]

omit [DecidableEq π] in
/-- When the number of end blocks that a slave was sent goes up, the master had sent as many as it
has completed updates. -/
theorem ends_now (lock : Gadget.Cluster.LockStep starNeighbours s.cluster) {j : Host n}
    {m : Gadget.Manager (Host n)} {frameNum : Nat}
    (lock' : Gadget.Cluster.LockStep starNeighbours
      ((s.cluster.setManager .master m).put .master j (.endBlock frameNum)))
    {k : Fin n} {number : Nat}
    (before : closed Gadget.Packet.isEndBlock (s.cluster.sent .master (.slave k)) < number)
    (ended : number ≤ closed Gadget.Packet.isEndBlock
      (((s.cluster.setManager .master m).put .master j (.endBlock frameNum)).sent .master
        (.slave k))) :
    Host.slave k = j ∧ number = s.cluster.updates .master + 1 ∧
      closed Gadget.Packet.isEndBlock (s.cluster.sent .master (.slave k)) =
        s.cluster.updates .master := by
  have member := slave_mem_starNeighbours k
  have earlier := lock.sentEnds .master (.slave k) member
  have later := lock'.sentEnds .master (.slave k) member
  have atMostOne := (((s.cluster.setManager .master m).put .master j
    (.endBlock frameNum)).manager .master).announced_le_one (Host.slave k)
  have updates : ((s.cluster.setManager .master m).put .master j
    (.endBlock frameNum)).updates .master = s.cluster.updates .master := rfl
  have receiver : Host.slave k = j := by
    by_contra other
    rw [put_sent, if_neg fun both => other both.2, List.append_nil] at ended
    exact absurd ended before.not_ge
  subst receiver
  rw [updates] at later
  simp only [put_sent, and_self, if_true, Gadget.Cluster.setManager_sent, closed_append,
    closed_singleton, Gadget.Packet.isEndBlock] at ended later
  refine ⟨rfl, ?_, ?_⟩
  · omega
  · omega

/-- An end block is sent to a node. At the end of `postPostFrame` all data were sent before it. -/
theorem Feeding.ends (feeding : Feeding inputManager s) (paced : Paced s .master)
    (lock : Gadget.Cluster.LockStep starNeighbours s.cluster) {j : Host n}
    {m : Gadget.Manager (Host n)} {frameNum : Nat}
    (lock' : Gadget.Cluster.LockStep starNeighbours
      ((s.cluster.setManager .master m).put .master j (.endBlock frameNum)))
    (here : (s.thread .master).updating) :
    Feeding inputManager { s with
      cluster := (s.cluster.setManager .master m).put .master j (.endBlock frameNum) } := by
  constructor
  · exact feeding.reusable
  · exact feeding.nodup
  · exact feeding.sending.of_same rfl rfl rfl rfl
  · exact feeding.served
  · exact feeding.counted
  · exact feeding.last
  · intro k
    simp only [put_sent, true_and, Gadget.Cluster.setManager_sent]
    split
    · exact (feeding.brings k).ignored fun _ => rfl
    · rw [List.append_nil]
      exact feeding.brings k
  · intro k number ended
    have grows : s.cluster.sent .master (.slave k) <+:
        ((s.cluster.setManager .master m).put .master j (.endBlock frameNum)).sent .master
          (.slave k) := by
      rw [put_sent]
      exact List.prefix_append _ _
    by_cases earlier : 2 * number + 2 ≤
        closed Gadget.Packet.isEndBlock (s.cluster.sent .master (.slave k))
    · exact (feeding.milestones k number earlier).grow List.prefix_rfl grows
    · obtain ⟨rfl, reached, counted⟩ := ends_now lock lock' (Nat.lt_of_not_le earlier) ended
      have rounds := paced.rounds
      rcases Thread.updating_cases here with draw | post
      · -- in `preDraw` the number of updates is even
        rw [draw] at rounds
        simp only [Thread.second] at rounds
        omega
      · obtain ⟨length, post', posted, brings⟩ := feeding.posted_sent post k
        rw [post] at rounds
        simp only [Thread.second] at rounds
        obtain rfl : number = (s.shown .master).length := by omega
        refine ⟨post', s.cluster.sent .master (.slave k), frameNum, posted, ?_, by omega, ?_⟩
        · simp [put_sent]
        · rw [← length, List.take_length]
          exact brings.ignored fun _ => rfl

/-- The call of `postPostFrame` returns on the master, and is counted among those that have. -/
theorem Feeding.postReturns (feeding : Feeding inputManager s)
    (here : s.thread .master = .updatePost) :
    Feeding inputManager { s.setThread site .master .beforeDraw with
      shown := Function.update s.shown .master (s.shown .master ++ [s.plugin .master]) } := by
  have now := State.setThread_self (s := s) .master .beforeDraw
  have counted := feeding.counted
  rw [here] at counted
  constructor
  · exact feeding.reusable
  · exact feeding.nodup
  · rw [now]
    trivial
  · exact feeding.served
  · rw [now]
    simpa [Thread.posting] using counted
  · rw [now]
    intro posting
    cases posting
  · intro k
    refine (feeding.brings k).congr (fun id => ?_) fun id known => ?_
    · simp only [Known, now, here, Thread.owing]
      rfl
    · simp only [view, now, here, Thread.remaining]
      rfl
  · intro k m ended
    exact (feeding.milestones k m ended).grow List.prefix_rfl List.prefix_rfl

theorem Move.feeding_master (feeding : Feeding inputManager s) (paced : Paced s .master)
    (lock : Gadget.Cluster.LockStep starNeighbours s.cluster)
    (lock' : Gadget.Cluster.LockStep starNeighbours t.cluster) (move : Move site s .master t) :
    Feeding inputManager t := by
  have sending := feeding.sending
  cases move with
  | change drawn id device rests =>
    -- the devices change before or after posting, when nothing is on the way
    have resting : (s.thread .master).posting = false := by rw [rests, posting_resting]
    refine ⟨feeding.reusable, feeding.nodup, ?_, feeding.served, feeding.counted,
      fun posting => ?_, feeding.brings, feeding.milestones⟩
    · cases drawn <;> simp [rests, RemoteInput.resting, Sending]
    · rw [resting] at posting
      cases posting
  | configures rests proper => exact feeding.configures rests proper
  | posts rests => exact feeding.posts rests
  | serialized here fits done => exact feeding.serialized here fits done
  | acknowledged here done => exact feeding.acknowledged here done
  | acknowledgedAll here =>
    rename_i drawn id device_ack
    apply feeding.setThread feeding.reusable
    · cases drawn <;> trivial
    · rw [here, posting_resting]
      rfl
    · intro k
      rw [here, owing_resting]
      rfl
    · intro k
      rw [here, remaining_resting]
      rfl
  | sent here done => exact feeding.sent here done
  | sentAll here =>
    rw [here] at sending
    apply feeding.setThread feeding.reusable
    · exact (List.suffix_cons _ _).trans sending.1
    · rw [here]
      rfl
    · intro k
      rw [here]
      rfl
    · intro k
      simp [here, Thread.remaining]
  | begins here busy =>
    rename_i m thread
    have kept : Feeding inputManager (s.setThread site .master thread) := by
      apply feeding.setThread feeding.reusable
      · rcases here with ⟨_, rfl⟩ | ⟨_, rfl⟩ <;> trivial
      · rcases here with ⟨now, rfl⟩ | ⟨now, rfl⟩ <;> rw [now] <;> rfl
      · intro k
        rcases here with ⟨now, rfl⟩ | ⟨now, rfl⟩ <;> rw [now] <;> rfl
      · intro k
        rcases here with ⟨now, rfl⟩ | ⟨now, rfl⟩ <;> rw [now] <;> rfl
    exact kept.setCluster rfl
  | goesOn here busy | receives here busy neighbour open_ arrived handled =>
    exact feeding.setCluster rfl
  | ends frameNum here busy => exact feeding.ends paced lock lock' here
  | drawReturns here idle =>
    have kept : Feeding inputManager (s.setThread site .master .afterDraw) := by
      apply feeding.setThread feeding.reusable
      · trivial
      · rw [here]
        rfl
      · intro k
        rw [here]
        rfl
      · intro k
        rw [here]
        rfl
    exact kept.setCluster rfl
  | postReturns here idle => exact (feeding.postReturns here).setCluster rfl
  | plugin ignored => exact feeding.put ignored

theorem Move.feeding {i : Host n} (move : Move site s i t) (feeding : Feeding inputManager s)
    (paced : Paced s .master) (lock : Gadget.Cluster.LockStep starNeighbours s.cluster)
    (lock' : Gadget.Cluster.LockStep starNeighbours t.cluster) : Feeding inputManager t := by
  cases i with
  | master => exact move.feeding_master feeding paced lock lock'
  | slave k =>
    have slave : Host.slave k ≠ .master := by simp
    obtain ⟨servers, devices, packets, posted⟩ := move.of_slave slave
    exact feeding.of_same (move.same slave.symm) servers devices packets posted

end Feeding

/-! ## What a slave has handled -/

section Followed

variable (inputManager : Host n → InputManager Created τ π) {s t : State n τ π site.type}

/-- The packets from the master that the slave has handled. -/
def handledBy (s : State n τ π site.type) (k : Fin n) : List (Gadget.Packet (List UInt8)) :=
  (s.cluster.handled (.slave k) .master).map Prod.snd

/-- The plugin of a slave is what became of it through the packets that were handled, and in an
update nothing is handled after the end block. -/
structure Followed (s : State n τ π site.type) (k : Fin n) : Prop where
  plugin : (handledBy s k).foldlM (site.deliver (.slave k)) (create (inputManager (.slave k))) =
    some (s.plugin (.slave k))
  ended : closed Gadget.Packet.isEndBlock (handledBy s k) = s.cluster.updates (.slave k) + 1 →
    ∃ front frameNum, handledBy s k = front ++ [.endBlock frameNum]

variable {inputManager}

theorem Followed.of_same {k : Fin n} (followed : Followed inputManager s k)
    (same : Same s t (.slave k)) : Followed inputManager t k := by
  have handled : handledBy t k = handledBy s k := by rw [handledBy, same.handled, handledBy]
  constructor
  · rw [handled, same.plugin]
    exact followed.plugin
  · rw [handled, same.updates]
    exact followed.ended

/-- One more packet is handled by a slave. -/
theorem Followed.receives {k : Fin n} (followed : Followed inputManager s k)
    (lock : Gadget.Cluster.LockStep starNeighbours s.cluster) {m : Gadget.Manager (Host n)}
    {p : Gadget.Packet (List UInt8)} {tail : List (Gadget.Packet (List UInt8))}
    {plugin : Plugin τ π} (open_ : (s.cluster.manager (.slave k)).gathered .master = 0)
    (handled : site.deliver (.slave k) (s.plugin (.slave k)) p = some plugin) :
    Followed inputManager { s with
      cluster := (s.cluster.setManager (.slave k) m).take (.slave k) .master p tail
      plugin := Function.update s.plugin (.slave k) plugin } k := by
  let u : State n τ π site.type := { s with
    cluster := (s.cluster.setManager (.slave k) m).take (.slave k) .master p tail
    plugin := Function.update s.plugin (.slave k) plugin }
  have after : handledBy u k = handledBy s k ++ [p] := by
    simp [u, handledBy, Gadget.Cluster.take]
  have current := lock.handledEnds (.slave k) .master (List.mem_singleton.mpr rfl)
  rw [open_, Nat.add_zero] at current
  show Followed inputManager u k
  constructor
  · rw [after]
    refine foldlM_snoc followed.plugin (handled.trans ?_)
    simp [u]
  · rw [after]
    intro more
    have before : closed Gadget.Packet.isEndBlock (handledBy s k) = s.cluster.updates (.slave k) :=
      current
    rw [closed_append, before] at more
    -- the number of end blocks has grown, so the packet is one
    cases p with
    | endBlock frameNum => exact ⟨_, frameNum, rfl⟩
    | other body => exact absurd more (by simp [Gadget.Packet.isEndBlock, u, Gadget.Cluster.take])

theorem Move.followed {i : Host n} (move : Move site s i t) {k : Fin n}
    (lock : Gadget.Cluster.LockStep starNeighbours s.cluster)
    (lock' : Gadget.Cluster.LockStep starNeighbours t.cluster)
    (followed : Followed inputManager s k) : Followed inputManager t k := by
  by_cases other : Host.slave k = i
  · subst other
    -- after a complete update no end block is gathered
    have fresh (m : Gadget.Manager (Host n)) (idle : m.phase = .idle)
        (lock' : Gadget.Cluster.LockStep starNeighbours (completed s.cluster (.slave k) m)) :
        closed Gadget.Packet.isEndBlock (handledBy s k) ≠
          (completed s.cluster (.slave k) m).updates (.slave k) + 1 := by
      have handled := lock'.handledEnds (.slave k) .master (List.mem_singleton.mpr rfl)
      have none : ((completed s.cluster (.slave k) m).manager (.slave k)).gathered .master = 0 := by
        have own : (completed s.cluster (.slave k) m).manager (.slave k) = m :=
          s.cluster.setManager_self _ m
        rw [own, Gadget.Manager.gathered, idle]
      rw [none, Nat.add_zero] at handled
      have same : closed Gadget.Packet.isEndBlock (handledBy s k) =
        (completed s.cluster (.slave k) m).updates (.slave k) := handled
      omega
    cases move with
    | postPostFrame | begins | goesOn | ends | plugin => exact ⟨followed.plugin, followed.ended⟩
    | receives here busy neighbour open_ arrived handled =>
      obtain rfl := List.mem_singleton.mp neighbour
      exact followed.receives lock open_ handled
    | drawReturns here idle =>
      exact ⟨followed.plugin, fun more => absurd more (fresh _ idle lock')⟩
    | postReturns here idle =>
      exact ⟨followed.plugin, fun more => absurd more (fresh _ idle lock')⟩
  · exact followed.of_same (move.same other)

end Followed

/-! ## What is shown -/

section Agreement

variable {inputManager : Host n → InputManager Created τ π} {s t : State n τ π site.type}

/-- When a call of `postPostFrame` returned on a slave, its virtual devices were those that the
master served at its call with the same number, with the data of all calls up to that one. -/
def Agrees (s : State n τ π site.type) (k : Fin n) : Prop :=
  ∀ (m : Nat) (plugin : Plugin τ π), (s.shown (.slave k))[m]? = some plugin →
    ∃ post serial, s.posted[m]? = some post ∧
      Mirrors site (· ∈ post.servers) (expected (site.mDelta (.slave k)) (s.posted.take (m + 1)))
        serial plugin

/-- Nothing that was posted is forgotten. -/
theorem Move.posted_grows {i : Host n} (move : Move site s i t) : s.posted <+: t.posted := by
  cases move with
  | posts rests => exact List.prefix_append _ _
  | _ => exact List.prefix_rfl

omit [DecidableEq π] in
theorem Agrees.grow {k : Fin n} (agrees : Agrees s k)
    (shown : t.shown (.slave k) = s.shown (.slave k)) (grows : s.posted <+: t.posted) :
    Agrees t k := by
  intro m plugin here
  rw [shown] at here
  obtain ⟨post, serial, posted, mirrors⟩ := agrees m plugin here
  obtain ⟨later, extended⟩ := grows
  obtain ⟨early, -⟩ := List.getElem?_eq_some_iff.mp posted
  refine ⟨post, serial, ?_, ?_⟩
  · rw [← extended, List.getElem?_append_left early]
    exact posted
  · rw [← extended, List.take_append_of_le_length early]
    exact mirrors

/-- The plugin of a slave when `postPostFrame` returns. -/
theorem agrees_now (feeding : Feeding inputManager s) {k : Fin n}
    (followed : Followed inputManager s k) (paced : Paced s (.slave k))
    (lock : Gadget.Cluster.LockStep starNeighbours s.cluster) {m : Gadget.Manager (Host n)}
    (lock' : Gadget.Cluster.LockStep starNeighbours (completed s.cluster (.slave k) m))
    (here : s.thread (.slave k) = .updatePost) (idle : m.phase = .idle) :
    ∃ post serial, s.posted[(s.shown (.slave k)).length]? = some post ∧
      Mirrors site (· ∈ post.servers) (expected (site.mDelta (.slave k))
        (s.posted.take ((s.shown (.slave k)).length + 1))) serial (s.plugin (.slave k)) := by
  have rounds := paced.rounds
  rw [here] at rounds
  simp only [Thread.second] at rounds
  -- the update has handled the end block of the master, and nothing behind it
  have ends : closed Gadget.Packet.isEndBlock (handledBy s k) =
      s.cluster.updates (.slave k) + 1 := by
    have handled := lock'.handledEnds (.slave k) .master (List.mem_singleton.mpr rfl)
    have own : (completed s.cluster (.slave k) m).manager (.slave k) = m :=
      s.cluster.setManager_self _ m
    have counted : (completed s.cluster (.slave k) m).updates (.slave k) =
      s.cluster.updates (.slave k) + 1 := Function.update_self ..
    rw [own, counted, Gadget.Manager.gathered, idle] at handled
    exact handled
  obtain ⟨front, frameNum, last⟩ := followed.ended ends
  have sent : s.cluster.sent .master (.slave k) =
    handledBy s k ++ s.cluster.link .master (.slave k) := lock.fifo (.slave k) .master
  have before : front ++ [.endBlock frameNum] <+: s.cluster.sent .master (.slave k) := by
    rw [sent, last]
    exact List.prefix_append _ _
  obtain ⟨post, front', frameNum', posted, before', counted, plugin, serial, brought, mirrors⟩ :=
    feeding.milestones k (s.shown (.slave k)).length (by rw [sent, closed_append]; omega)
  have same : front ++ [Gadget.Packet.endBlock frameNum] = front' ++ [.endBlock frameNum'] := by
    have isEnd (number : Nat) : Gadget.Packet.isEndBlock
      (.endBlock number : Gadget.Packet (List UInt8)) = true := rfl
    refine prefix_unique before before' (isEnd frameNum) (isEnd frameNum') ?_
    rw [last, closed_append, closed_singleton] at ends
    simp only [Gadget.Packet.isEndBlock, if_true] at ends
    omega
  have followed := followed.plugin
  rw [last, same, brought] at followed
  obtain rfl := Option.some.inj followed
  exact ⟨post, serial, posted, mirrors⟩

theorem Move.agrees {i : Host n} (move : Move site s i t) (feeding : Feeding inputManager s)
    {k : Fin n} (followed : Followed inputManager s k) (paced : Paced s (.slave k))
    (lock : Gadget.Cluster.LockStep starNeighbours s.cluster)
    (lock' : Gadget.Cluster.LockStep starNeighbours t.cluster) (agrees : Agrees s k) :
    Agrees t k := by
  have grows := move.posted_grows
  by_cases other : Host.slave k = i
  · subst other
    cases move with
    | postReturns here idle =>
      -- only here something is added to what is shown
      intro m plugin shown
      simp only [Function.update_self] at shown
      by_cases earlier : m < (s.shown (.slave k)).length
      · rw [List.getElem?_append_left earlier] at shown
        exact agrees m plugin shown
      · obtain ⟨last, equal⟩ := List.getElem?_eq_some_iff.mp shown
        rw [List.length_append, List.length_singleton] at last
        obtain rfl : m = (s.shown (.slave k)).length := by omega
        rw [List.getElem_concat_length rfl] at equal
        subst equal
        exact agrees_now feeding followed paced lock lock' here idle
    | _ => exact agrees.grow rfl grows
  · exact agrees.grow (move.same other).shown grows

end Agreement

/-! ## Runs -/

section Runs

variable (inputManager : Host n → InputManager Created τ π)

/-- What holds between two steps. -/
structure Shared (s : State n τ π site.type) : Prop where
  lock : Gadget.Cluster.LockStep starNeighbours s.cluster
  paced : ∀ i, Paced s i
  silent : ∀ k, Silent s k
  feeding : Feeding inputManager s
  followed : ∀ k, Followed inputManager s k
  agrees : ∀ k, Agrees s k

variable {inputManager}

theorem shared_start (devices : Devices site.type) :
    Shared inputManager (start site inputManager devices) where
  lock := Gadget.Cluster.lockStep_start
  paced := fun i => ⟨iff_of_true rfl rfl, rfl⟩
  silent := fun k j p member => nomatch member
  feeding := by
    refine ⟨reusable_createPacket, List.nodup_nil, trivial, ?_, rfl, ?_, fun k => ?_, ?_⟩
    · intro post member
      cases member
    · intro posting
      cases posting
    · refine (brings_nil (view (start site inputManager devices) k)).congr (fun id => ?_)
        fun id known => known.elim
      exact iff_of_false (fun known => List.not_mem_nil known.1) not_false
    · intro k m ended
      cases ended
  followed := fun k => ⟨rfl, fun ended => nomatch ended⟩
  agrees := fun k m plugin shown => nomatch shown

theorem Shared.step {s t : State n τ π site.type} (shared : Shared inputManager s)
    {act : Act n site.type} (proper : Proper site s act) (stepped : s.step site act = some t) :
    Shared inputManager t := by
  obtain ⟨lock, paced, silent, feeding, followed, agrees⟩ := shared
  have lock' := lockStep_of_step lock stepped
  obtain ⟨i, move⟩ := move_of_step lock proper stepped
  exact {
    lock := lock'
    paced := move.paced paced
    silent := fun k => move.silent (silent k)
    feeding := move.feeding feeding (paced .master) lock lock'
    followed := fun k => move.followed lock lock' (followed k)
    agrees := fun k => move.agrees feeding (followed k) (paced (.slave k)) lock lock' (agrees k) }

/-- Handling a packet that has come throws no exception. -/
theorem Shared.received {s : State n τ π site.type} (shared : Shared inputManager s) {i : Host n}
    (updating : (s.thread i).updating) {d : Gadget.Cluster (Host n) (List UInt8)}
    (arrived : s.cluster.step (.recv i) = some d) : ∃ t, s.recvNext site i = some t := by
  obtain ⟨count, done, ready, j, rest, p, tail, m, receiving, head, moved, -⟩ :=
    Gadget.Cluster.step_recv arrived
  obtain ⟨-, neighbour, -⟩ := (shared.lock.steady i).recv receiving p moved
  have sent := shared.lock.fifo i j
  rw [head] at sent
  have handled : ∃ plugin, site.deliver i (s.plugin i) p = some plugin := by
    cases i with
    | master =>
      obtain ⟨k, -, rfl⟩ := List.mem_map.mp neighbour
      exact ⟨_, shared.silent k .master p (by rw [sent]; simp) .master _⟩
    | slave k =>
      obtain rfl := List.mem_singleton.mp neighbour
      -- all that was sent can be handled, so also what comes next
      obtain ⟨last, serial, brought, -⟩ := shared.feeding.brings k
      rw [sent, List.foldlM_append] at brought
      obtain ⟨before, first, later⟩ := Option.bind_eq_some_iff.mp brought
      obtain rfl := Option.some.inj ((shared.followed k).plugin.symm.trans first)
      rw [List.foldlM_cons] at later
      obtain ⟨plugin, handled, -⟩ := Option.bind_eq_some_iff.mp later
      exact ⟨plugin, handled⟩
  obtain ⟨plugin, handled⟩ := handled
  simp [State.recvNext, updating, receiving, head, handled, arrived]

/-- What is promised of a state: when `postPostFrame` returned on a slave, it had the devices that
the master served at its call with the same number, with the samples that they had there; and
packets that come are handled without an exception. -/
structure DevicesShared (s : State n τ π site.type) : Prop where
  agrees : ∀ k, Agrees s k
  received : ∀ i d, (s.thread i).updating → s.cluster.step (.recv i) = some d →
    ∃ t, s.recvNext site i = some t

end Runs

/-! ## One frame -/

abbrev onlySlave : Host 1 := .slave ⟨0, Nat.one_pos⟩

/-- A device with buttons at a master of another byte order, whose clock is 3 behind. -/
def buttons : Site 1 Unit where
  name := fun _ => [66]
  type := fun _ => .inputMixer .input .digital
  order := fun i => if i = .master then .littleEndian else .bigEndian
  behind := fun _ => 0
  mHostname := [109]
  mDelta := fun _ => 3
  types := { getInstanceName := fun _ => "", dynamicPointerCast := fun _ _ => true }
  rehash := .stay

/-- No proxies. -/
def noProxies : Host 1 → InputManager Created Unit Empty := fun _ =>
  { proxies := fun i => nomatch i }

/-- A button was pressed at time 7. -/
def pressed : Devices buttons.type := fun _ => ((), ⟨[[⟨7, (1 : UInt32)⟩]], []⟩)

/-- The rest of an update, in which a node handles packets of the other node. -/
def handles (i j : Host 1) (packets : Nat) : List (Act 1 buttons.type) :=
  [.next i, .select i (.readable [j]), .next i] ++ List.replicate packets (.recv i) ++
    [.next i, .next i, .next i]

/-- The device is configured before the first frame. -/
def oneFrame : List (Act 1 buttons.type) :=
  [.configAdd mHandlerGUID, .send, .send, .update .master, .sendEndBlock .master,
    .update onlySlave, .sendEndBlock onlySlave] ++ handles onlySlave .master 2 ++
  handles .master onlySlave 1 ++
  [.postPostFrame .master, .updateLocalData, .send, .send, .update .master,
    .sendEndBlock .master, .postPostFrame onlySlave, .update onlySlave,
    .sendEndBlock onlySlave] ++ handles onlySlave .master 2

end VRJuggler.RemoteInput
