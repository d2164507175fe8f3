import Mathlib.Data.List.Induction
import VRJuggler.Cluster.RemoteInput
import VRJuggler.Gadget.DeviceReplication

/-!
# Virtual devices of remote input

What becomes of the plugin of a node through the packets that the master sends. `Mirrors` relates
the plugin to the ids that were acknowledged and to what their devices should contain; the packets
of an acknowledgement and of the data of a device carry it along.
-/
namespace VRJuggler.RemoteInput

open VRJuggler (ByteOrder)
open VRJuggler.Cluster (GUID Packet Outgoing RIMPlugin VirtualDevice)
open VRJuggler.Gadget (Host InputType)
open VRJuggler.Io

/-! ## Names and types -/

theorem toNat_ofNat_byte (byte : UInt8) : (Char.ofNat byte.toNat).toNat = byte.toNat := by
  have small := byte.toNat_lt
  rw [Char.ofNat, dif_pos (Or.inl (by omega))]
  rfl

theorem text_injective : Function.Injective text := by
  intro a b same
  refine List.map_injective_iff.mpr ?_ (String.ofList_injective same)
  intro first second equal
  have number := congrArg Char.toNat equal
  rw [toNat_ofNat_byte, toNat_ofNat_byte] at number
  exact UInt8.toNat_inj.mp number

/-- A string of characters that are bytes arrives as it is. -/
theorem text_bytes {characters : String} (narrow : ∀ c ∈ characters.toList, c.toNat < 256) :
    text (bytes characters) = characters := by
  have each : ∀ c ∈ characters.toList, Char.ofNat (UInt8.ofNat c.toNat).toNat = c := by
    intro c member
    rw [UInt8.toNat_ofNat_of_lt' (narrow c member), Char.ofNat_toNat]
  have all : (bytes characters).map (fun byte => Char.ofNat byte.toNat) = characters.toList := by
    rw [bytes, List.map_map]
    exact (List.map_congr_left each).trans (List.map_id _)
  rw [text, all, String.ofList_toList]

theorem narrow_of_all {characters : String}
    (all : (characters.toList.all fun c => decide (c.toNat < 256)) = true) :
    ∀ c ∈ characters.toList, c.toNat < 256 := by
  intro c member
  exact of_decide_eq_true (List.all_eq_true.mp all c member)

theorem narrow_getInputTypeName (type : InputType) :
    ∀ c ∈ type.getInputTypeName.toList, c.toNat < 256 := by
  induction type with
  | input | digital | analog | position | command | string | glove =>
    exact narrow_of_all (by decide)
  | inputMixer composedParent newParent composed added =>
    intro c member
    rw [InputType.getInputTypeName, String.toList_append] at member
    rcases List.mem_append.mp member with here | here
    · exact composed c here
    · exact added c here

/-- No two of the types that are registered have one name. -/
theorem createObject_known {type : InputType} (known : type ∈ hackLoadKnownDevices) :
    createObject type.getInputTypeName = some type := by
  revert type
  decide

theorem idle_placeholder (type : InputType) :
    type.Every (fun b => b.Idle) (placeholder type) := by
  induction type with
  | input => trivial
  | digital | analog | position | command | string | glove => exact rfl
  | inputMixer composedParent newParent composed added => exact ⟨composed, added⟩

/-! ## What a node should have -/

section Expected

variable {type : GUID → InputType}

/-- The device under an id after some calls of `postPostFrame`: each call replicates it if it was
served then. -/
def expected (delta : UInt64) (posts : List (Post type)) (id : GUID) : (type id).Device :=
  posts.foldl (fun old post =>
    if id ∈ post.servers then (type id).replica delta old (post.devices id) else old)
    (placeholder (type id))

theorem expected_snoc (delta : UInt64) (posts : List (Post type)) (post : Post type) (id : GUID) :
    expected delta (posts ++ [post]) id =
      if id ∈ post.servers then
        (type id).replica delta (expected delta posts id) (post.devices id)
      else expected delta posts id := by
  rw [expected, List.foldl_append]
  rfl

/-- Before it is served, a device is as it was made. -/
theorem expected_unserved (delta : UInt64) {posts : List (Post type)} {id : GUID}
    (unserved : ∀ post ∈ posts, id ∉ post.servers) :
    expected delta posts id = placeholder (type id) := by
  induction posts using List.reverseRecOn with
  | nil => rfl
  | append_singleton posts post ih =>
    rw [expected_snoc, if_neg (unserved post (by simp))]
    exact ih fun earlier member => unserved earlier (List.mem_append_left _ member)

theorem idle_expected (delta : UInt64) (posts : List (Post type)) (id : GUID) :
    (type id).Every (fun b => b.Idle) (expected delta posts id) := by
  induction posts using List.reverseRecOn with
  | nil => exact idle_placeholder _
  | append_singleton posts post ih =>
    rw [expected_snoc]
    split
    · exact InputType.idle_replica delta _ _ _
    · exact ih

end Expected

/-! ## The plugin and what it should have -/

section Mirrors

variable {n : Nat} {τ π : Type} [DecidableEq π] (site : Site n τ)

/-- The virtual device under an id, when the factory made its device as number `serial`. -/
def Site.virtualDevice (id : GUID) (serial : Nat) : VirtualDevice GUID Created where
  mName := text (site.name id)
  mId := id
  mBaseType := (site.type id).getInputTypeName
  mRemoteHostname := text site.mHostname
  mDevice := some (site.type id, serial)

omit [DecidableEq π] in
/-- The virtual devices of the plugin are those of the ids that are known, each under its name in
the input manager and with the contents given. -/
structure Mirrors (known : GUID → Prop) (contents : Devices site.type) (serial : GUID → Nat)
    (plugin : Plugin τ π) : Prop where
  inTouch : plugin.InTouch
  entries : ∀ e, e ∈ plugin.mVirtualDevices.entries ↔
    known e.1 ∧ e.2 = site.virtualDevice e.1 (serial e.1)
  made : ∀ id, known id → serial id < plugin.created
  apart : ∀ id other, known id → known other → serial id = serial other → id = other
  contents : ∀ id, known id →
    plugin.contents (site.type id, serial id) = ⟨site.type id, contents id⟩
  unused : ∀ type number, plugin.created ≤ number →
    plugin.contents (type, number) = ⟨type, placeholder type⟩

variable {site} {known : GUID → Prop} {contents : Devices site.type} {serial : GUID → Nat}
  {plugin : Plugin τ π} {i : Host n}

omit [DecidableEq π] in
theorem mirrors_create (inputManager : Gadget.InputManager Created τ π)
    (contents : Devices site.type) (serial : GUID → Nat) :
    Mirrors site (fun _ => False) contents serial (create inputManager) := by
  constructor
  · constructor
    · exact fun e member => nomatch member
    · exact fun e member => nomatch member
    · exact fun e member => nomatch member
  · intro e
    exact iff_of_false List.not_mem_nil fun both => both.1
  · exact fun id absent => absent.elim
  · exact fun id other absent => absent.elim
  · exact fun id absent => absent.elim
  · exact fun type number _ => rfl

omit [DecidableEq π] in
theorem Mirrors.congr {known' : GUID → Prop} {contents' : Devices site.type}
    (mirrors : Mirrors site known contents serial plugin) (same : ∀ id, known' id ↔ known id)
    (equal : ∀ id, known id → contents' id = contents id) :
    Mirrors site known' contents' serial plugin where
  inTouch := mirrors.inTouch
  entries := fun e => by rw [same]; exact mirrors.entries e
  made := fun id here => mirrors.made id ((same id).mp here)
  apart := fun id other here there =>
    mirrors.apart id other ((same id).mp here) ((same other).mp there)
  contents := fun id here => by
    rw [equal id ((same id).mp here)]
    exact mirrors.contents id ((same id).mp here)
  unused := mirrors.unused

omit [DecidableEq π] in
theorem Mirrors.getVirtualDevice (mirrors : Mirrors site known contents serial plugin) {id : GUID}
    (here : known id) : plugin.getVirtualDevice id = some (site.type id, serial id) := by
  have member : (id, site.virtualDevice id (serial id)) ∈ plugin.mVirtualDevices.entries :=
    (mirrors.entries _).mpr ⟨here, rfl⟩
  unfold RIMPlugin.getVirtualDevice RIMPlugin.lookFor
  cases found : plugin.mVirtualDevices.entries.find? fun e => decide (e.1 = id) with
  | some e =>
    have key : e.1 = id := by simpa using List.find?_some found
    rw [UnorderedMap.eq_of_key (List.mem_of_find?_eq_some found) member key]
    rfl
  | none =>
    have other := List.find?_eq_none.mp found _ member
    simp at other

/-! ### Data -/

omit [DecidableEq π] in
/-- What is read is in the device afterwards, and no other device has changed. -/
theorem Mirrors.handleData (mirrors : Mirrors site known contents serial plugin) {id : GUID}
    (here : known id) {reader : BufferObjectReader} {device : (site.type id).Device}
    (read : site.readObject i reader (site.node i).delta ⟨site.type id, contents id⟩ =
      .ok ⟨site.type id, device⟩) :
    Mirrors site known (Function.update contents id device) serial
      (plugin.handleData (site.library i) id reader (site.node i).delta) := by
  have after : plugin.handleData (site.library i) id reader (site.node i).delta =
      { plugin with contents :=
          Function.update plugin.contents (site.type id, serial id) ⟨site.type id, device⟩ } := by
    unfold RIMPlugin.handleData
    rw [mirrors.getVirtualDevice here]
    simp only [mirrors.contents id here, Site.library, read]
  rw [after]
  constructor
  · exact ⟨mirrors.inTouch.ids, mirrors.inTouch.names, mirrors.inTouch.table⟩
  · exact mirrors.entries
  · exact mirrors.made
  · exact mirrors.apart
  · intro other there
    show Function.update plugin.contents _ _ _ = _
    by_cases same : other = id
    · subst same
      rw [Function.update_self, Function.update_self]
    · -- under another id is another device of the factory
      have different : (site.type other, serial other) ≠ (site.type id, serial id) := fun equal =>
        same (mirrors.apart other id there here (congrArg Prod.snd equal))
      rw [Function.update_of_ne different, Function.update_of_ne same]
      exact mirrors.contents other there
  · intro type number later
    have different : (type, number) ≠ (site.type id, serial id) := by
      intro equal
      obtain ⟨rfl, rfl⟩ := Prod.mk.inj equal
      exact absurd later (mirrors.made id here).not_ge
    show Function.update plugin.contents _ _ _ = _
    rw [Function.update_of_ne different]
    exact mirrors.unused type number later

/-! ### Acknowledgements -/

omit [DecidableEq π] in
/-- No virtual device has a name that none of the known ids has. -/
theorem Mirrors.unnamed (mirrors : Mirrors site known contents serial plugin) {id : GUID}
    (names : ∀ other, known other → site.name other ≠ site.name id) :
    ∀ e ∈ plugin.mVirtualDevices.entries, e.2.mName ≠ text (site.name id) := by
  intro e member equal
  obtain ⟨there, device⟩ := (mirrors.entries e).mp member
  rw [device] at equal
  exact names e.1 there (text_injective equal)

variable (site) in
/-- The acknowledgement of the device under an id is handled. -/
def Site.acknowledge (i : Host n) (id : GUID) (plugin : Plugin τ π) : Plugin τ π :=
  plugin.handleAck (site.library i) site.rehash id (text (site.name id))
    (text (bytes (site.type id).getInputTypeName)) (text site.mHostname)

/-- The next device of the factory is put into the map. -/
theorem acknowledge_unknown {id : GUID}
    (unknown : plugin.getVirtualDeviceNamed (text (site.name id)) = none)
    (registered : site.type id ∈ hackLoadKnownDevices) :
    ∃ inputManager, site.acknowledge i id plugin =
      { plugin with
        mVirtualDevices := plugin.mVirtualDevices.assign site.rehash id
          (site.virtualDevice id plugin.created)
        created := plugin.created + 1
        inputManager := inputManager } := by
  have name := text_bytes (narrow_getInputTypeName (site.type id))
  have made : plugin.addVirtualDevice (site.library i) site.rehash id (text (site.name id))
      (text (bytes (site.type id).getInputTypeName)) (text site.mHostname) =
      { plugin with
        mVirtualDevices := plugin.mVirtualDevices.assign site.rehash id
          (site.virtualDevice id plugin.created)
        created := plugin.created + 1 } := by
    simp only [RIMPlugin.addVirtualDevice, Site.library, Site.virtualDevice, name,
      createObject_known registered, Option.map_some]
  unfold Site.acknowledge RIMPlugin.handleAck
  rw [unknown, made]
  exact ⟨_, rfl⟩

/-- A device that was acknowledged is made, and no other has changed. -/
theorem Mirrors.acknowledge (mirrors : Mirrors site known contents serial plugin) {id : GUID}
    (fresh : ¬ known id) (names : ∀ other, known other → site.name other ≠ site.name id)
    (registered : site.type id ∈ hackLoadKnownDevices)
    (empty : contents id = placeholder (site.type id)) :
    Mirrors site (fun other => known other ∨ other = id) contents
      (Function.update serial id plugin.created) (site.acknowledge i id plugin) := by
  have unnamed := mirrors.unnamed names
  have unknown : plugin.getVirtualDeviceNamed (text (site.name id)) = none := by
    unfold RIMPlugin.getVirtualDeviceNamed RIMPlugin.lookFor
    rw [List.find?_eq_none.mpr fun e member => by simpa using unnamed e member]
  have inTouch : (site.acknowledge i id plugin).InTouch :=
    (RIMPlugin.inTouch_handleAck_iff mirrors.inTouch unknown).mpr
      fun e member equal => absurd equal (unnamed e member)
  obtain ⟨inputManager, after⟩ := acknowledge_unknown (i := i) unknown registered
  have older : ∀ other, known other →
      Function.update serial id plugin.created other = serial other := by
    intro other there
    apply Function.update_of_ne
    rintro rfl
    exact fresh there
  have newest : Function.update serial id plugin.created id = plugin.created :=
    Function.update_self ..
  rw [after] at inTouch ⊢
  constructor
  · exact inTouch
  · -- an entry is the new one, or it was there under another id
    rintro ⟨key, device⟩
    rw [UnorderedMap.mem_assign, mirrors.entries]
    constructor
    · rintro (new | ⟨-, there, old⟩)
      · obtain ⟨rfl, rfl⟩ := Prod.mk.inj new
        exact ⟨Or.inr rfl, by rw [newest]⟩
      · exact ⟨Or.inl there, by rw [older key there, old]⟩
    · rintro ⟨there | rfl, equal⟩
      · refine Or.inr ⟨?_, there, ?_⟩
        · rintro rfl
          exact fresh there
        · rw [equal, older key there]
      · rw [newest] at equal
        exact Or.inl (Prod.ext rfl equal)
  · rintro other (there | rfl)
    · rw [older other there]
      exact (mirrors.made other there).trans (Nat.lt_succ_self _)
    · rw [newest]
      exact Nat.lt_succ_self _
  · -- the numbers of the older devices are below that of the new one
    rintro first second (here | rfl) (there | rfl) same
    · rw [older first here, older second there] at same
      exact mirrors.apart first second here there same
    · rw [older first here, newest] at same
      exact absurd same (mirrors.made first here).ne
    · rw [older second there, newest] at same
      exact absurd same.symm (mirrors.made second there).ne
    · rfl
  · rintro other (there | rfl)
    · rw [older other there]
      exact mirrors.contents other there
    · -- nothing was read into a device before it was made
      rw [newest, empty]
      exact mirrors.unused _ _ le_rfl
  · intro type number later
    exact mirrors.unused type number ((Nat.le_succ _).trans later)

end Mirrors

/-! ## Packets -/

section Packets

variable {n : Nat} {τ π : Type} [DecidableEq π] {site : Site n τ} {plugin : Plugin τ π}
  {i : Host n}

/-- A packet that is short enough is received as it was sent. -/
theorem deliver_sent {out : Outgoing} (small : out.size < 2 ^ 32) :
    site.deliver i plugin (.other out.bytes) = site.handlePacket i out.received plugin := by
  obtain ⟨requested, received⟩ := Cluster.Node.recvPacket_append (site.order i) site.behind small
    (.connected out.bytes) (List.append_nil _).symm
  rw [Site.deliver, received]

theorem deliver_other {out : Outgoing} (other : out.pluginId ≠ mHandlerGUID)
    (small : out.size < 2 ^ 32) : site.deliver i plugin (.other out.bytes) = some plugin := by
  have other' : out.received.mPluginId ≠ mHandlerGUID := other
  rw [deliver_sent small, Site.handlePacket, if_neg other']

theorem deliver_ack {id : GUID} (small : (site.deviceAck id).size < 2 ^ 32) :
    site.deliver i plugin (.other (site.deviceAck id).bytes) =
      some (site.acknowledge i id plugin) := by
  have own : (site.deviceAck id).received.mPluginId = mHandlerGUID := rfl
  rw [deliver_sent small, Site.handlePacket, if_pos own]
  rfl

/-- The data of a device of the master are replicated in the virtual device. -/
theorem readObject_sent {id : GUID} {old device : (site.type id).Device}
    (within : (site.type id).Every (fun b => b.Within) device)
    (idle : (site.type id).Every (fun b => b.Idle) old)
    (small : (Outgoing.dataPacket mHandlerGUID id ((site.type id).writeObject device)).size <
      2 ^ 32) :
    site.readObject i
        (Outgoing.dataPacket mHandlerGUID id
          ((site.type id).writeObject device)).received.mPacketReader
        (site.node i).delta ⟨site.type id, old⟩ =
      .ok ⟨site.type id, (site.type id).replica (site.mDelta i) old device⟩ := by
  obtain ⟨t, replays, -⟩ := Cluster.Node.replays_object (site.order i) site.behind small
  -- the tags are not on the network, so the calls may be exchanged for those that are read
  rw [Gadget.replays_values] at replays
  have expected := (site.type id).values_expected device
  have read := (site.type id).readsBack_expected
    (BufferObjectReader.reader site.behind (site.order i)) (site.mDelta i) within idle _ t
    (Gadget.replays_values _ _ |>.mpr (by rw [expected]; exact replays))
  have delta : UInt64.ofNat (site.node i).delta = site.mDelta i := UInt64.ofNat_toNat
  rw [Site.readObject, delta]
  show Except.map _ (Prod.fst (InputType.readObject _ _ _ _ _)) = _
  rw [read]
  rfl

omit [DecidableEq π] in
theorem throws_of_read {id : GUID} {reader : BufferObjectReader} {dev : Created}
    {read : Contents} (found : plugin.getVirtualDevice id = some dev)
    (ok : site.readObject i reader (site.node i).delta (plugin.contents dev) = .ok read) :
    site.throws i plugin (.dataPacket id reader) = false := by
  simp only [Site.throws, found, ok]

theorem deliver_data {known : GUID → Prop} {contents : Devices site.type} {serial : GUID → Nat}
    (mirrors : Mirrors site known contents serial plugin) {id : GUID} (here : known id)
    {device : (site.type id).Device} (within : (site.type id).Every (fun b => b.Within) device)
    (idle : (site.type id).Every (fun b => b.Idle) (contents id))
    (small : (Outgoing.dataPacket mHandlerGUID id ((site.type id).writeObject device)).size <
      2 ^ 32) :
    ∃ handled, site.deliver i plugin (.other (Outgoing.dataPacket mHandlerGUID id
        ((site.type id).writeObject device)).bytes) = some handled ∧
      Mirrors site known (Function.update contents id
        ((site.type id).replica (site.mDelta i) (contents id) device)) serial handled := by
  have read := readObject_sent (i := i) within idle small
  refine ⟨_, ?_, mirrors.handleData (i := i) here read⟩
  have own : (Outgoing.dataPacket mHandlerGUID id
    ((site.type id).writeObject device)).received.mPluginId = mHandlerGUID := rfl
  rw [deliver_sent small, Site.handlePacket, if_pos own]
  have caught : site.throws i plugin (rimPacket (Outgoing.dataPacket mHandlerGUID id
      ((site.type id).writeObject device)).received) = false :=
    throws_of_read (mirrors.getVirtualDevice here) (mirrors.contents id here ▸ read)
  rw [caught]
  rfl

end Packets

end VRJuggler.RemoteInput
