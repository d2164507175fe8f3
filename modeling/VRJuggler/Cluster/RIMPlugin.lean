import VRJuggler.Base.UnorderedMap
import VRJuggler.Gadget.Proxies

/-!
# Virtual devices

The plugin for remote input keeps the devices of other nodes in a map by id and hands them to the
input manager, which keeps them by name; the local devices that it serves to other nodes are in a
list. An iterator that is advanced after its element was erased, and a null pointer that is
followed, are undefined.
-/
namespace VRJuggler.Cluster

open Gadget

structure VirtualDevice (γ δ : Type) where
  mName : String
  mId : γ
  mBaseType : String
  mRemoteHostname : String
  mDevice : Option δ

structure DeviceServer (δ : Type) where
  mName : String
  mDevice : Option δ
  deriving DecidableEq

/-- What the plugin uses: `createObject` makes an object of a base type, and none of a type that
is not registered; `readObject` reads a packet into a device; `leftover` is what the removal of
elements from a vector leaves behind the elements that are kept. -/
structure RimLibrary (δ τ ρ κ : Type) where
  types : DeviceTypes δ τ
  createObject : String → Nat → Option δ
  readObject : ρ → Nat → κ → κ
  leftover : List (Option (DeviceServer δ)) → Nat → Option (DeviceServer δ)

/-- The plugin, the input manager, and the contents of the devices. -/
structure RIMPlugin (γ δ τ π κ : Type) where
  mVirtualDevices : UnorderedMap γ (VirtualDevice γ δ) := {}
  mDeviceServers : List (Option (DeviceServer δ)) := []
  inputManager : InputManager δ τ π
  contents : δ → κ
  created : Nat := 0

inductive RimPacket (γ ρ : Type) where
  | deviceAck (id : γ) (deviceName deviceBaseType hostname : String)
  | dataPacket (objectId : γ) (reader : ρ)
  | other (packetType : Nat)

structure RimNode where
  hostname : String
  delta : Nat

variable {γ δ τ π ρ κ : Type} [DecidableEq γ] [DecidableEq δ] [DecidableEq π]

namespace RIMPlugin

variable (lib : RimLibrary δ τ ρ κ) (s : RIMPlugin γ δ τ π κ)

/-- The first virtual device of which `p` holds. -/
def lookFor (p : γ × VirtualDevice γ δ → Bool) : Option δ :=
  match s.mVirtualDevices.entries.find? p with
  | some i => i.2.mDevice
  | none => none

def getVirtualDevice (deviceId : γ) : Option δ := s.lookFor fun i => i.1 = deviceId

def getVirtualDeviceNamed (deviceName : String) : Option δ :=
  s.lookFor fun i => i.2.mName = deviceName

/-- That the type is registered is only asserted. -/
def addVirtualDevice (rehash : Rehash γ (VirtualDevice γ δ)) (device_id : γ)
    (name device_base_type hostname : String) : RIMPlugin γ δ τ π κ :=
  let input_device := lib.createObject device_base_type s.created
  let virtual_device :=
    { mName := name, mId := device_id, mBaseType := device_base_type
      mRemoteHostname := hostname, mDevice := input_device }
  { s with
    mVirtualDevices := s.mVirtualDevices.assign rehash device_id virtual_device
    created := s.created + 1 }

def handleAck (rehash : Rehash γ (VirtualDevice γ δ)) (id : γ)
    (device_name deviceBaseType hostname : String) : RIMPlugin γ δ τ π κ :=
  match s.getVirtualDeviceNamed device_name with
  -- a device of this name is known: the acknowledgement is dropped
  | some _ => s
  | none =>
    let added := s.addVirtualDevice lib rehash id device_name deviceBaseType hostname
    -- the device is looked up again by its name, not taken from the map by its id
    let input_dev := added.getVirtualDeviceNamed device_name
    { added with
      inputManager := (added.inputManager.addRemoteDevice lib.types input_dev device_name).1 }

def handleData (objectId : γ) (reader : ρ) (delta : Nat) : RIMPlugin γ δ τ π κ :=
  match s.getVirtualDevice objectId with
  | some dev =>
    { s with
      contents := Function.update s.contents dev (lib.readObject reader delta (s.contents dev)) }
  | none => s

/-- A packet of another type is answered by an exception. -/
def handlePacket (rehash : Rehash γ (VirtualDevice γ δ)) (packet : Option (RimPacket γ ρ))
    (node : Option RimNode) : RIMPlugin γ δ τ π κ × Option String :=
  match packet, node with
  | some (.deviceAck id name base host), some _ => (s.handleAck lib rehash id name base host, none)
  | some (.dataPacket objectId reader), some node =>
    (s.handleData lib objectId reader node.delta, none)
  | some (.other packetType), some _ =>
    (s, some s!"RIMPlugin does not handle packet type: {packetType}")
  | _, _ => (s, none)

def removeVirtualDevice (device_name : String) : RIMPlugin γ δ τ π κ :=
  { s with
    inputManager := (s.inputManager.removeDevice lib.types device_name).1
    mVirtualDevices := s.mVirtualDevices.eraseFirst fun i => i.2.mName = device_name }

/-- The loop over the virtual devices, with those to come. The iterator is advanced after the call
that removes a device, and nothing says what that does when its own element was erased. -/
def removeLoop (hostName : String) :
    List (γ × VirtualDevice γ δ) → RIMPlugin γ δ τ π κ → Option (RIMPlugin γ δ τ π κ)
  | [], s => some s
  | i :: rest, s =>
    if i.2.mRemoteHostname = hostName then
      -- `removeVirtualDevice` looks for the name and erases the element the iterator is at
      let t := s.removeVirtualDevice lib i.2.mName
      if i.1 ∈ t.mVirtualDevices.keys then removeLoop hostName rest t else none
    else removeLoop hostName rest s

def removeVirtualDevicesOnHost (hostName : String) : Option (RIMPlugin γ δ τ π κ) :=
  s.removeLoop lib hostName s.mVirtualDevices.entries

def recoverFromLostNode (lostNode : RimNode) : Option (RIMPlugin γ δ τ π κ) :=
  s.removeVirtualDevicesOnHost lib lostNode.hostname

def addDeviceServer (name : String) (device : Option δ) : RIMPlugin γ δ τ π κ :=
  { s with mDeviceServers := s.mDeviceServers ++ [some { mName := name, mDevice := device }] }

/-- Whether a server stays; the name of a null pointer is not asked for. -/
def stays (deviceName : String) (ds : Option (DeviceServer δ)) : Bool :=
  ds.map DeviceServer.mName ≠ some deviceName

/-- `std::remove_if` moves the elements to keep to the front. The vector keeps its length. -/
def removeDeviceServer (deviceName : String) : Option (RIMPlugin γ δ τ π κ) :=
  if none ∈ s.mDeviceServers then none
  else
    let kept := s.mDeviceServers.filter (stays deviceName)
    -- the elements behind the new end are whatever the moves left there
    let rest := (List.range (s.mDeviceServers.length - kept.length)).map
      (lib.leftover s.mDeviceServers)
    some { s with mDeviceServers := kept ++ rest }

end RIMPlugin

inductive RimCall (γ δ ρ : Type) where
  | handlePacket (rehash : Rehash γ (VirtualDevice γ δ)) (packet : Option (RimPacket γ ρ))
      (node : Option RimNode)
  | recoverFromLostNode (lostNode : RimNode)
  | addDeviceServer (name : String) (device : Option δ)
  | removeDeviceServer (deviceName : String)

def RIMPlugin.step (lib : RimLibrary δ τ ρ κ) (s : RIMPlugin γ δ τ π κ) :
    RimCall γ δ ρ → Option (RIMPlugin γ δ τ π κ)
  | .handlePacket rehash packet node => some (s.handlePacket lib rehash packet node).1
  | .recoverFromLostNode lostNode => s.recoverFromLostNode lib lostNode
  | .addDeviceServer name device => some (s.addDeviceServer name device)
  | .removeDeviceServer deviceName => s.removeDeviceServer lib deviceName

/-! ## What the calls should do -/

namespace RIMPlugin

variable (s t : RIMPlugin γ δ τ π κ)

/-- The registries of virtual devices agree. -/
structure InTouch : Prop where
  ids : ∀ i ∈ s.mVirtualDevices.entries, ∀ j ∈ s.mVirtualDevices.entries, i.1 = j.1 → i = j
  names : ∀ i ∈ s.mVirtualDevices.entries, ∀ j ∈ s.mVirtualDevices.entries,
    i.2.mName = j.2.mName → i = j
  table : ∀ i ∈ s.mVirtualDevices.entries,
    s.inputManager.mDevTable.find i.2.mName = some i.2.mDevice

/-- `t` is `s` without the virtual devices of the host, in both registries. -/
structure WithoutHost (hostname : String) : Prop where
  devices : t.mVirtualDevices.entries =
    s.mVirtualDevices.entries.filter fun i => i.2.mRemoteHostname ≠ hostname
  removed : ∀ i ∈ s.mVirtualDevices.entries, i.2.mRemoteHostname = hostname →
    t.inputManager.mDevTable.find i.2.mName = none
  kept : ∀ name, (∀ i ∈ s.mVirtualDevices.entries, i.2.mName = name →
    i.2.mRemoteHostname ≠ hostname) →
    t.inputManager.mDevTable.find name = s.inputManager.mDevTable.find name

/-- What a call should do beside keeping the registries in touch. -/
def Effect : RimCall γ δ ρ → Prop
  | .recoverFromLostNode lostNode => WithoutHost s t lostNode.hostname
  | .removeDeviceServer deviceName =>
    t.mDeviceServers = s.mDeviceServers.filter (stays deviceName)
  | _ => True

/-- The call is defined and does what it should. -/
def Works (lib : RimLibrary δ τ ρ κ) (call : RimCall γ δ ρ) : Prop :=
  ∃ t, s.step lib call = some t ∧ t.InTouch ∧ Effect s t call

/-- No device of the lost node is there, no server has the name, and no virtual device without
an object has the name that an acknowledgement gives to another id. -/
def Harmless : RimCall γ δ ρ → Prop
  | .recoverFromLostNode lostNode =>
    ∀ i ∈ s.mVirtualDevices.entries, i.2.mRemoteHostname ≠ lostNode.hostname
  | .removeDeviceServer deviceName => ∀ ds ∈ s.mDeviceServers, stays deviceName ds = true
  | .handlePacket _ (some (.deviceAck id name _ _)) (some _) =>
    ∀ i ∈ s.mVirtualDevices.entries, i.2.mName = name → i.2.mDevice = none → i.1 = id
  | _ => True

end RIMPlugin

/-! ## A lost node -/

namespace RIMPlugin

variable {lib : RimLibrary δ τ ρ κ} {s : RIMPlugin γ δ τ π κ}

/-- Where no device is of the host, the loop does nothing. -/
theorem removeLoop_absent {hostName : String} {rest : List (γ × VirtualDevice γ δ)}
    (absent : ∀ i ∈ rest, i.2.mRemoteHostname ≠ hostName) :
    removeLoop lib hostName rest s = some s := by
  induction rest with
  | nil => rfl
  | cons i rest ih =>
    rw [removeLoop, if_neg (absent i (List.mem_cons_self ..))]
    exact ih fun j member => absent j (List.mem_cons_of_mem _ member)

/-- At the first device of the host, the loop advances an iterator to an erased element. -/
theorem removeLoop_present (inTouch : s.InTouch) {hostName : String}
    {rest : List (γ × VirtualDevice γ δ)} (part : ∀ i ∈ rest, i ∈ s.mVirtualDevices.entries)
    (present : ∃ i ∈ rest, i.2.mRemoteHostname = hostName) :
    removeLoop lib hostName rest s = none := by
  induction rest with
  | nil =>
    obtain ⟨i, member, -⟩ := present
    cases member
  | cons i rest ih =>
    have here := part i (List.mem_cons_self ..)
    by_cases host : i.2.mRemoteHostname = hostName
    · -- the names are different, so that the device itself is erased
      have erased : i.1 ∉ (s.removeVirtualDevice lib i.2.mName).mVirtualDevices.keys := by
        refine UnorderedMap.key_eraseFirst here (decide_eq_true rfl) ?_
        intro j member name
        exact inTouch.names j member i here (of_decide_eq_true name)
      rw [removeLoop, if_pos host, if_neg erased]
    · rw [removeLoop, if_neg host]
      refine ih (fun j member => part j (List.mem_cons_of_mem _ member)) ?_
      obtain ⟨j, member, equal⟩ := present
      rcases List.mem_cons.mp member with rfl | later
      · exact absurd equal host
      · exact ⟨j, later, equal⟩

theorem recoverFromLostNode_harmless {lostNode : RimNode}
    (harmless : s.Harmless (.recoverFromLostNode lostNode : RimCall γ δ ρ)) :
    s.recoverFromLostNode lib lostNode = some s :=
  removeLoop_absent harmless

/-- A lost node is handled when it has no device. -/
theorem works_recoverFromLostNode (inTouch : s.InTouch) (lostNode : RimNode) :
    s.Works lib (.recoverFromLostNode lostNode) ↔
      s.Harmless (.recoverFromLostNode lostNode : RimCall γ δ ρ) := by
  constructor
  · rintro ⟨t, stepped, -⟩ i member host
    have undefined : s.recoverFromLostNode lib lostNode = none :=
      removeLoop_present inTouch (fun _ here => here) ⟨i, member, host⟩
    cases undefined.symm.trans stepped
  · intro harmless
    refine ⟨s, recoverFromLostNode_harmless harmless, inTouch, ?_, ?_, ?_⟩
    · refine (List.filter_eq_self.mpr fun i member => ?_).symm
      exact decide_eq_true (harmless i member)
    · intro i member host
      exact absurd host (harmless i member)
    · intro name _
      rfl

/-! ## Servers -/

omit [DecidableEq γ] [DecidableEq π] in
theorem removeDeviceServer_eq (lib : RimLibrary δ τ ρ κ) (noNull : none ∉ s.mDeviceServers)
    (deviceName : String) :
    let kept := s.mDeviceServers.filter (stays deviceName)
    let rest := (List.range (s.mDeviceServers.length - kept.length)).map
      (lib.leftover s.mDeviceServers)
    s.removeDeviceServer lib deviceName = some { s with mDeviceServers := kept ++ rest } :=
  if_neg noNull

/-- Servers are removed when there are none to remove. -/
theorem works_removeDeviceServer (inTouch : s.InTouch) (noNull : none ∉ s.mDeviceServers)
    (deviceName : String) :
    s.Works lib (.removeDeviceServer deviceName) ↔
      s.Harmless (.removeDeviceServer deviceName : RimCall γ δ ρ) := by
  have removal := removeDeviceServer_eq lib noNull deviceName
  constructor
  · rintro ⟨t, stepped, -, removed⟩
    obtain rfl := Option.some.inj (removal.symm.trans stepped)
    -- the vector is as long as before
    have length := congrArg List.length removed
    have shorter := List.length_filter_le (stays (δ := δ) deviceName) s.mDeviceServers
    simp only [List.length_append, List.length_map, List.length_range] at length
    exact List.length_filter_eq_length_iff.mp (by omega)
  · intro stay
    have all : s.mDeviceServers.filter (stays deviceName) = s.mDeviceServers :=
      List.filter_eq_self.mpr stay
    refine ⟨_, removal, ⟨inTouch.ids, inTouch.names, inTouch.table⟩, ?_⟩
    simp [Effect, all]

/-! ## Acknowledgements -/

omit [DecidableEq δ] in
theorem mDevTable_addRemoteDevice (types : DeviceTypes δ τ) (m : InputManager δ τ π)
    (devPtr : Option δ) (device_name : String) :
    (m.addRemoteDevice types devPtr device_name).1.mDevTable =
      m.mDevTable.insert device_name devPtr :=
  (foldl_change _ _ _).1

omit [DecidableEq γ] [DecidableEq δ] [DecidableEq π] in
/-- What is found by a name that one device has. -/
theorem getVirtualDeviceNamed_of_mem {i : γ × VirtualDevice γ δ}
    (member : i ∈ s.mVirtualDevices.entries)
    (only : ∀ j ∈ s.mVirtualDevices.entries, j.2.mName = i.2.mName → j = i) :
    s.getVirtualDeviceNamed i.2.mName = i.2.mDevice := by
  unfold getVirtualDeviceNamed lookFor
  cases found : s.mVirtualDevices.entries.find? fun j => decide (j.2.mName = i.2.mName) with
  | some j =>
    have name : j.2.mName = i.2.mName := by simpa using List.find?_some found
    rw [only j (List.mem_of_find?_eq_some found) name]
  | none =>
    have other := List.find?_eq_none.mp found i member
    simp at other

omit [DecidableEq δ] in
/-- A device that is there already stays as it is. -/
theorem handleAck_known {rehash : Rehash γ (VirtualDevice γ δ)} {id : γ}
    {name base host : String} {dev : δ} (known : s.getVirtualDeviceNamed name = some dev) :
    s.handleAck lib rehash id name base host = s := by
  unfold handleAck
  rw [known]

omit [DecidableEq δ] in
/-- An acknowledgement of a new name keeps the registries in touch when no other entry has the
name. -/
theorem inTouch_handleAck_iff (inTouch : s.InTouch) {rehash : Rehash γ (VirtualDevice γ δ)}
    {id : γ} {name base host : String} (unknown : s.getVirtualDeviceNamed name = none) :
    (s.handleAck lib rehash id name base host).InTouch ↔
      ∀ i ∈ s.mVirtualDevices.entries, i.2.mName = name → i.1 = id := by
  let new : VirtualDevice γ δ :=
    { mName := name, mId := id, mBaseType := base, mRemoteHostname := host
      mDevice := lib.createObject base s.created }
  let added := s.addVirtualDevice lib rehash id name base host
  -- an unknown name takes the branch that makes a device and registers it
  have after : s.handleAck lib rehash id name base host =
      { added with
        inputManager := (s.inputManager.addRemoteDevice lib.types
          (added.getVirtualDeviceNamed name) name).1 } := by
    unfold handleAck
    rw [unknown]
    rfl
  have entries : ∀ i, i ∈ added.mVirtualDevices.entries ↔
      i = (id, new) ∨ i.1 ≠ id ∧ i ∈ s.mVirtualDevices.entries :=
    fun i => UnorderedMap.mem_assign
  rw [after]
  constructor
  · intro kept i member equal
    by_contra other
    -- two entries with different ids have the name
    have same := kept.names i ((entries i).mpr (Or.inr ⟨other, member⟩)) (id, new)
      ((entries _).mpr (Or.inl rfl)) equal
    exact other (congrArg Prod.fst same)
  · intro alone
    -- no device the table keeps has the new name
    have apart : ∀ i, i.1 ≠ id → i ∈ s.mVirtualDevices.entries → i.2.mName ≠ name :=
      fun i other member equal => other (alone i member equal)
    have names : ∀ i ∈ added.mVirtualDevices.entries, i.2.mName = name → i = (id, new) := by
      intro i member equal
      rcases (entries i).mp member with rfl | ⟨other, old⟩
      · rfl
      · exact absurd equal (apart i other old)
    have found : added.getVirtualDeviceNamed name = new.mDevice :=
      getVirtualDeviceNamed_of_mem (i := (id, new)) ((entries _).mpr (Or.inl rfl)) names
    refine ⟨?_, ?_, ?_⟩
    · intro i first j second
      exact UnorderedMap.eq_of_key first second
    · intro i first j second equal
      rcases (entries j).mp second with rfl | ⟨other, old⟩
      · exact names i first equal
      · rcases (entries i).mp first with rfl | ⟨-, before⟩
        · exact absurd equal.symm (apart j other old)
        · exact inTouch.names i before j old equal
    · intro i member
      show (InputManager.mDevTable _).find i.2.mName = _
      rw [mDevTable_addRemoteDevice, found]
      rcases (entries i).mp member with rfl | ⟨other, old⟩
      · exact SortedMap.find_insert_self _ _ _
      · rw [SortedMap.find_insert_of_ne _ _ (apart i other old)]
        exact inTouch.table i old

omit [DecidableEq γ] [DecidableEq δ] [DecidableEq π] in
/-- The device that is found by a name is that of every entry with the name. -/
theorem InTouch.device_of_name (inTouch : s.InTouch) {i : γ × VirtualDevice γ δ}
    (member : i ∈ s.mVirtualDevices.entries) :
    s.getVirtualDeviceNamed i.2.mName = i.2.mDevice :=
  getVirtualDeviceNamed_of_mem member fun j there equal => inTouch.names j there i member equal

theorem works_handleAck (inTouch : s.InTouch) (rehash : Rehash γ (VirtualDevice γ δ)) (id : γ)
    (name base host : String) (node : RimNode) :
    let call : RimCall γ δ ρ :=
      .handlePacket rehash (some (.deviceAck id name base host)) (some node)
    s.Works lib call ↔ s.Harmless call := by
  intro call
  have works : s.Works lib call ↔ (s.handleAck lib rehash id name base host).InTouch := by
    constructor
    · rintro ⟨t, stepped, kept, -⟩
      obtain rfl := Option.some.inj stepped
      exact kept
    · intro kept
      exact ⟨_, rfl, kept, trivial⟩
  rw [works]
  cases found : s.getVirtualDeviceNamed name with
  | some dev =>
    rw [handleAck_known found]
    refine iff_of_true inTouch ?_
    rintro i member rfl null
    rw [inTouch.device_of_name member, null] at found
    cases found
  | none =>
    rw [inTouch_handleAck_iff inTouch found]
    constructor
    · intro alone i member equal _
      exact alone i member equal
    · rintro alone i member rfl
      rw [inTouch.device_of_name member] at found
      exact alone i member rfl found

/-! ## Runs -/

/-- The plugin when it is created, beside an input manager that may have devices. -/
def create (inputManager : InputManager δ τ π) (contents : δ → κ) : RIMPlugin γ δ τ π κ :=
  { inputManager, contents }

theorem works_iff_harmless (inTouch : s.InTouch) (noNull : none ∉ s.mDeviceServers)
    (call : RimCall γ δ ρ) : s.Works lib call ↔ s.Harmless call := by
  cases call with
  | handlePacket rehash packet node =>
    match packet, node with
    | some (.deviceAck id name base host), some node =>
      exact works_handleAck inTouch rehash id name base host node
    | some (.dataPacket objectId reader), some node =>
      refine iff_of_true ⟨_, rfl, ?_, trivial⟩ trivial
      show (s.handleData lib objectId reader node.delta).InTouch
      unfold handleData
      split
      · exact ⟨inTouch.ids, inTouch.names, inTouch.table⟩
      · exact inTouch
    | some (.other _), some _ => exact iff_of_true ⟨s, rfl, inTouch, trivial⟩ trivial
    -- without a node, a packet of any type is ignored
    | some (.deviceAck ..), none => exact iff_of_true ⟨s, rfl, inTouch, trivial⟩ trivial
    | some (.dataPacket ..), none => exact iff_of_true ⟨s, rfl, inTouch, trivial⟩ trivial
    | some (.other _), none => exact iff_of_true ⟨s, rfl, inTouch, trivial⟩ trivial
    | none, _ => exact iff_of_true ⟨s, rfl, inTouch, trivial⟩ trivial
  | recoverFromLostNode lostNode => exact works_recoverFromLostNode inTouch lostNode
  | addDeviceServer name device =>
    exact iff_of_true ⟨_, rfl, ⟨inTouch.ids, inTouch.names, inTouch.table⟩, trivial⟩ trivial
  | removeDeviceServer deviceName => exact works_removeDeviceServer inTouch noNull deviceName

theorem mDeviceServers_handlePacket (rehash : Rehash γ (VirtualDevice γ δ))
    (packet : Option (RimPacket γ ρ)) (node : Option RimNode) :
    (s.handlePacket lib rehash packet node).1.mDeviceServers = s.mDeviceServers := by
  unfold handlePacket
  split
  · unfold handleAck
    split <;> rfl
  · unfold handleData
    split <;> rfl
  · rfl
  · rfl

/-- A call that works brings no null pointer among the servers. -/
theorem noNull_of_works {t : RIMPlugin γ δ τ π κ} {call : RimCall γ δ ρ} (inTouch : s.InTouch)
    (noNull : none ∉ s.mDeviceServers) (works : s.Works lib call)
    (stepped : s.step lib call = some t) : none ∉ t.mDeviceServers := by
  cases call with
  | handlePacket rehash packet node =>
    obtain rfl := Option.some.inj stepped
    rw [mDeviceServers_handlePacket]
    exact noNull
  | recoverFromLostNode lostNode =>
    have harmless := (works_recoverFromLostNode inTouch lostNode).mp works
    obtain rfl := Option.some.inj ((recoverFromLostNode_harmless harmless).symm.trans stepped)
    exact noNull
  | addDeviceServer name device =>
    obtain rfl := Option.some.inj stepped
    intro null
    rcases List.mem_append.mp null with before | new
    · exact noNull before
    · cases List.mem_singleton.mp new
  | removeDeviceServer deviceName =>
    obtain ⟨u, also, -, removed⟩ := works
    obtain rfl := Option.some.inj (also.symm.trans stepped)
    rw [removed]
    intro null
    exact noNull (List.mem_filter.mp null).1

/-- Every call of a run does what it should just when every call is harmless. -/
theorem registries_agree_iff_harmless (lib : RimLibrary δ τ ρ κ)
    (inputManager : InputManager δ τ π) (contents : δ → κ) (calls : List (RimCall γ δ ρ)) :
    Attempts (step lib) (fun s call => s.Works lib call) (create inputManager contents) calls ↔
      Attempts (step lib) (fun s call => s.Harmless call) (create inputManager contents) calls := by
  refine attempts_iff_attempts (fun s => s.InTouch ∧ none ∉ s.mDeviceServers) ?_ ?_ ?_ calls
  · rintro s call ⟨inTouch, noNull⟩
    exact works_iff_harmless inTouch noNull call
  · rintro s call t ⟨inTouch, noNull⟩ works stepped
    refine ⟨?_, noNull_of_works inTouch noNull works stepped⟩
    obtain ⟨u, also, kept, -⟩ := works
    obtain rfl := Option.some.inj (also.symm.trans stepped)
    exact kept
  · refine ⟨⟨?_, ?_, ?_⟩, List.not_mem_nil⟩
    · intro i member
      cases member
    · intro i member
      cases member
    · intro i member
      cases member

/-- A device of one type, for which a data packet does nothing. -/
def plainLibrary : RimLibrary Nat Unit Unit Unit where
  types := { getInstanceName := fun _ => "", dynamicPointerCast := fun _ _ => true }
  createObject := fun base created => if base = "Position" then some created else none
  readObject := fun _ _ contents => contents
  leftover := fun servers _ => servers.getLast?.join

/-- The node of the only virtual device is lost. -/
theorem lost_node_undefined :
    ¬ ∀ calls : List (RimCall Nat Nat Unit),
      Attempts (step plainLibrary) (fun s call => s.Works plainLibrary call)
        (create { proxies := fun i : Empty => nomatch i } fun _ => ()) calls := by
  intro all
  have attempts := all
    [.handlePacket .stay (some (.deviceAck 1 "Wand" "Position" "slave1")) (some ⟨"slave1", 0⟩),
      .recoverFromLostNode ⟨"slave1", 0⟩]
  obtain ⟨⟨t, stepped, -⟩, -⟩ := attempts.2 _ rfl
  cases stepped

end RIMPlugin

end VRJuggler.Cluster
