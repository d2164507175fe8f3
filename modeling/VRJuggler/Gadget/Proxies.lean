import Mathlib.Data.String.Basic
import Mathlib.Logic.Function.Basic
import VRJuggler.Base.Run
import VRJuggler.Base.SortedMap

/-!
# Devices and their proxies

The tables of the input manager. A proxy keeps the device that it found at its last refresh, and
every change of the device table refreshes all proxies of the proxy table. Proxies are objects
that stay where they are when they leave the table.
-/
namespace VRJuggler.Gadget

/-- The input devices: the name of an instance, and the types to which it can be cast. -/
structure DeviceTypes (δ τ : Type) where
  getInstanceName : δ → String
  dynamicPointerCast : δ → τ → Bool

/-- A typed proxy. The device is kept when the proxy is stupefied. -/
structure Proxy (δ τ : Type) where
  mName : String
  mDeviceName : String
  devType : τ
  mTypedDevice : Option δ := none
  mStupefied : Bool := true

/-- `mProxyTable` holds names of proxies in `proxies`, the objects themselves. -/
structure InputManager (δ τ π : Type) where
  mDevTable : SortedMap String (Option δ) := .empty
  mProxyTable : SortedMap String π := .empty
  proxies : π → Proxy δ τ

variable {δ τ π : Type} [DecidableEq δ] [DecidableEq π]

namespace Proxy

def isStupefied (p : Proxy δ τ) : Bool := p.mStupefied

def stupefy (p : Proxy δ τ) (newState : Bool) : Proxy δ τ := { p with mStupefied := newState }

def getProxiedInputDevice (p : Proxy δ τ) : Option δ :=
  if p.mTypedDevice = none ∨ p.mStupefied = true then none else p.mTypedDevice

def getTypedInputDevice (p : Proxy δ τ) : Option δ :=
  if p.mStupefied then none else p.mTypedDevice

/-- `refresh`, with the device that the input manager has under the device name. -/
def refresh (types : DeviceTypes δ τ) (input_dev : Option δ) (p : Proxy δ τ) : Proxy δ τ :=
  match input_dev with
  | none => p.stupefy true
  | some dev =>
    if types.dynamicPointerCast dev p.devType then
      { p with mTypedDevice := some dev }.stupefy false
    else p.stupefy true

end Proxy

namespace InputManager

variable (types : DeviceTypes δ τ) (m : InputManager δ τ π)

def getDevice (deviceName : String) : Option δ :=
  match m.mDevTable.find deviceName with
  | some dev => dev
  | none => none

/-- One of the proxies is changed by `f`. -/
def change (f : Proxy δ τ → Proxy δ τ) (i : π) : InputManager δ τ π :=
  { m with proxies := Function.update m.proxies i (f (m.proxies i)) }

/-- A loop over the proxy table. -/
def forEachProxy (f : Proxy δ τ → Proxy δ τ) : InputManager δ τ π :=
  m.mProxyTable.entries.foldl (fun m entry => m.change f entry.2) m

/-- A proxy looks for its device. -/
def refreshed (p : Proxy δ τ) : Proxy δ τ := p.refresh types (m.getDevice p.mDeviceName)

def refreshAllProxies : InputManager δ τ π := m.forEachProxy (m.refreshed types)

def addDevice (dev : δ) : InputManager δ τ π × Bool :=
  let table := m.mDevTable.insert (types.getInstanceName dev) (some dev)
  ({ m with mDevTable := table }.refreshAllProxies types, true)

def addRemoteDevice (devPtr : Option δ) (device_name : String) : InputManager δ τ π × Bool :=
  let table := m.mDevTable.insert device_name devPtr
  ({ m with mDevTable := table }.refreshAllProxies types, true)

def removeDevice (instName : String) : InputManager δ τ π × Bool :=
  match m.mDevTable.find instName with
  | none => (m, false)
  | some none => (m, false)
  | some (some dev) =>
    -- the proxies of the device first, whatever name they know it by
    let stupefied := m.forEachProxy fun p =>
      if p.getProxiedInputDevice = some dev then p.stupefy true else p
    let table := m.mDevTable.erase instName
    ({ stupefied with mDevTable := table }.refreshAllProxies types, true)

/-- Remove a device under the first name that it has. -/
def removeDevicePtr (devPtr : Option δ) : InputManager δ τ π × Bool :=
  match m.mDevTable.entries.find? fun entry => entry.2 = devPtr with
  | some entry => m.removeDevice types entry.1
  | none => (m, false)

def addProxy (proxy : π) : InputManager δ τ π × Bool :=
  let proxy_name := (m.proxies proxy).mName
  match m.mProxyTable.find proxy_name with
  | some _ => (m, false)
  | none => ({ m with mProxyTable := m.mProxyTable.insert proxy_name proxy }, true)

def removeProxy (proxyName : String) : InputManager δ τ π × Bool :=
  match m.mProxyTable.find proxyName with
  | none => (m, false)
  | some _ => ({ m with mProxyTable := m.mProxyTable.erase proxyName }, true)

end InputManager

/-- A call; a proxy is refreshed just before it is added. -/
inductive InputCall (δ π : Type) where
  | addDevice (dev : δ)
  | addRemoteDevice (devPtr : Option δ) (device_name : String)
  | removeDevice (instName : String)
  | removeDevicePtr (devPtr : Option δ)
  | addProxy (proxy : π)
  | removeProxy (proxyName : String)

def InputManager.call (types : DeviceTypes δ τ) (m : InputManager δ τ π) :
    InputCall δ π → InputManager δ τ π × Bool
  | .addDevice dev => m.addDevice types dev
  | .addRemoteDevice devPtr device_name => m.addRemoteDevice types devPtr device_name
  | .removeDevice instName => m.removeDevice types instName
  | .removeDevicePtr devPtr => m.removeDevicePtr types devPtr
  | .addProxy proxy => (m.change (m.refreshed types) proxy).addProxy proxy
  | .removeProxy proxyName => m.removeProxy proxyName

def InputManager.step (types : DeviceTypes δ τ) (m : InputManager δ τ π) (c : InputCall δ π) :
    Option (InputManager δ τ π) := some (m.call types c).1

/-! ## What the proxies should do -/

/-- The proxy is awake exactly when the table has a device of its type under its device name,
and then that is its device. -/
structure Follows (types : DeviceTypes δ τ) (table : SortedMap String (Option δ))
    (p : Proxy δ τ) : Prop where
  awake_iff : p.isStupefied = false ↔ ∃ dev, table.find p.mDeviceName = some (some dev) ∧
    types.dynamicPointerCast dev p.devType = true
  device : ∀ dev, table.find p.mDeviceName = some (some dev) →
    types.dynamicPointerCast dev p.devType = true →
      p.getProxiedInputDevice = some dev ∧ p.getTypedInputDevice = some dev

/-- The proxy refers to the device. -/
def Proxy.RefersTo (p : Proxy δ τ) (dev : δ) : Prop :=
  p.getProxiedInputDevice = some dev ∨ p.getTypedInputDevice = some dev

/-- The device is in the table, under whatever name. -/
def InTable (table : SortedMap String (Option δ)) (dev : δ) : Prop :=
  ∃ name, table.find name = some (some dev)

/-! ## Refreshing -/

omit [DecidableEq δ] [DecidableEq π] in
/-- What a stupefied proxy keeps it does not show. -/
theorem Proxy.not_refersTo {p : Proxy δ τ} (stupefied : p.isStupefied = true) (dev : δ) :
    ¬ p.RefersTo dev := by
  simp only [isStupefied] at stupefied
  simp [RefersTo, getProxiedInputDevice, getTypedInputDevice, stupefied]

variable {types : DeviceTypes δ τ} {m : InputManager δ τ π}

omit [DecidableEq δ] [DecidableEq π] in
/-- However the proxy was before, it follows the table after a refresh. -/
theorem follows_refreshed (p : Proxy δ τ) :
    Follows types m.mDevTable (m.refreshed types p) := by
  unfold InputManager.refreshed InputManager.getDevice Proxy.refresh
  cases found : m.mDevTable.find p.mDeviceName with
  | none => constructor <;> simp [Proxy.isStupefied, Proxy.stupefy, found]
  | some devPtr =>
    cases devPtr with
    | none => constructor <;> simp [Proxy.isStupefied, Proxy.stupefy, found]
    | some dev =>
      by_cases cast : types.dynamicPointerCast dev p.devType = true
      · constructor <;> simp [Proxy.isStupefied, Proxy.stupefy, found, cast,
          Proxy.getProxiedInputDevice, Proxy.getTypedInputDevice]
      · constructor <;> simp [Proxy.isStupefied, Proxy.stupefy, found, cast]

omit [DecidableEq δ] in
/-- A loop over proxies leaves the tables as they are, and each of these proxies as `f` makes
it. -/
theorem foldl_change (f : Proxy δ τ → Proxy δ τ) (entries : List (String × π))
    (m : InputManager δ τ π) :
    let after := entries.foldl (fun m entry => m.change f entry.2) m
    after.mDevTable = m.mDevTable ∧ after.mProxyTable = m.mProxyTable ∧
      ∀ i, (i ∈ entries.map Prod.snd → ∃ p, after.proxies i = f p) ∧
        (i ∉ entries.map Prod.snd → after.proxies i = m.proxies i) := by
  induction entries generalizing m with
  | nil => exact ⟨rfl, rfl, fun i => ⟨nofun, fun _ => rfl⟩⟩
  | cons entry rest ih =>
    obtain ⟨devices, table, each⟩ := ih (m.change f entry.2)
    refine ⟨devices, table, fun i => ?_⟩
    obtain ⟨inside, outside⟩ := each i
    rw [List.foldl_cons]
    by_cases later : i ∈ rest.map Prod.snd
    · exact ⟨fun _ => inside later, fun none' => absurd (List.mem_cons_of_mem _ later) none'⟩
    · rw [outside later, List.map_cons, List.mem_cons]
      by_cases here : i = entry.2
      · subst here
        exact ⟨fun _ => ⟨_, Function.update_self ..⟩, fun other => absurd (.inl rfl) other⟩
      · constructor
        · rintro (same | member)
          · exact absurd same here
          · exact absurd member later
        · exact fun _ => Function.update_of_ne here ..

/-- All proxies of the proxy table follow the device table. -/
def AllFollow (types : DeviceTypes δ τ) (m : InputManager δ τ π) : Prop :=
  ∀ name i, m.mProxyTable.find name = some i → Follows types m.mDevTable (m.proxies i)

omit [DecidableEq δ] in
theorem allFollow_refreshAllProxies : AllFollow types (m.refreshAllProxies types) := by
  obtain ⟨devices, table, each⟩ := foldl_change (m.refreshed types) m.mProxyTable.entries m
  intro name i found
  rw [InputManager.refreshAllProxies, InputManager.forEachProxy, table] at found
  have member : i ∈ m.mProxyTable.entries.map Prod.snd :=
    List.mem_map_of_mem (SortedMap.mem_entries_of_find found)
  obtain ⟨p, refreshed⟩ := (each i).1 member
  rw [InputManager.refreshAllProxies, InputManager.forEachProxy, devices, refreshed]
  exact follows_refreshed p

/-! ## Runs -/

theorem allFollow_removeDevice (follow : AllFollow types m) (instName : String) :
    AllFollow types (m.removeDevice types instName).1 := by
  unfold InputManager.removeDevice
  split
  · exact follow
  · exact follow
  · exact allFollow_refreshAllProxies

/-- What one call preserves. -/
theorem allFollow_call (follow : AllFollow types m) (c : InputCall δ π) :
    AllFollow types (m.call types c).1 := by
  cases c with
  | addDevice dev => exact allFollow_refreshAllProxies
  | addRemoteDevice devPtr device_name => exact allFollow_refreshAllProxies
  | removeDevice instName => exact allFollow_removeDevice follow instName
  | removeDevicePtr devPtr =>
    simp only [InputManager.call, InputManager.removeDevicePtr]
    split
    · exact allFollow_removeDevice follow _
    · exact follow
  | addProxy proxy =>
    have all : ∀ name i, m.mProxyTable.find name = some i ∨ i = proxy →
        Follows types m.mDevTable ((m.change (m.refreshed types) proxy).proxies i) := by
      intro name i known
      by_cases here : i = proxy
      · subst here
        simp only [InputManager.change, Function.update_self]
        exact follows_refreshed _
      · simp only [InputManager.change, Function.update_of_ne here]
        exact follow name i (known.resolve_right here)
    simp only [InputManager.call, InputManager.addProxy]
    split
    · exact fun name i found => all name i (.inl found)
    · intro name i found
      dsimp only at found
      by_cases own : name = ((m.change (m.refreshed types) proxy).proxies proxy).mName
      · rw [own, SortedMap.find_insert_self] at found
        exact all name i (.inr (Option.some.inj found).symm)
      · rw [SortedMap.find_insert_of_ne _ _ own] at found
        exact all name i (.inl found)
  | removeProxy proxyName =>
    simp only [InputManager.call, InputManager.removeProxy]
    split
    · exact follow
    · intro name i found
      dsimp only at found
      by_cases same : name = proxyName
      · subst same
        rw [SortedMap.find_erase_self] at found
        cases found
      · rw [SortedMap.find_erase_of_ne _ same] at found
        exact follow name i found

/-- The proxies of the proxy table follow the device table in every run, from whatever proxies
there are. -/
theorem proxies_follow_table (types : DeviceTypes δ τ) (proxies : π → Proxy δ τ)
    (calls : List (InputCall δ π)) (m : InputManager δ τ π)
    (reached : run (InputManager.step types) { proxies := proxies } calls = some m) :
    (∀ name i, m.mProxyTable.find name = some i → Follows types m.mDevTable (m.proxies i)) ∧
    (∀ i, (m.proxies i).isStupefied = true → ∀ dev, ¬ (m.proxies i).RefersTo dev) ∧
    (∀ name i dev, m.mProxyTable.find name = some i → (m.proxies i).RefersTo dev →
      InTable m.mDevTable dev) := by
  have follow : AllFollow types m := by
    refine run_invariant (AllFollow types) ?_ ?_ reached
    · rintro m c after follow ⟨⟩
      exact allFollow_call follow c
    · exact nofun
  refine ⟨follow, fun i => Proxy.not_refersTo, fun name i dev found refers => ?_⟩
  have follows := follow name i found
  have awake : (m.proxies i).isStupefied = false := by
    by_contra stupefied
    exact Proxy.not_refersTo (by simpa using stupefied) dev refers
  obtain ⟨held, here, cast⟩ := follows.awake_iff.mp awake
  obtain ⟨proxied, typed⟩ := follows.device held here cast
  -- both accessors show the device of the table
  have same : held = dev := by
    rcases refers with shown | shown
    · exact Option.some.inj (proxied.symm.trans shown)
    · exact Option.some.inj (typed.symm.trans shown)
  exact ⟨_, same ▸ here⟩

/-- One device under the names `d` and `e`: when it leaves the first, its proxy is stupefied. -/
theorem proxies_follow_table_twice :
    let types : DeviceTypes Unit Unit := ⟨fun _ => "d", fun _ _ => true⟩
    let proxies := fun _ : Unit => { mName := "p", mDeviceName := "d", devType := () }
    ∃ m, run (InputManager.step types) { proxies := proxies }
        [.addDevice (), .addRemoteDevice (some ()) "e", .addProxy (), .removeDevicePtr (some ())] =
          some m ∧ m.mProxyTable.find "p" = some () ∧ (m.proxies ()).isStupefied = true ∧
      Follows types m.mDevTable (m.proxies ()) := by
  intro types proxies
  obtain ⟨m, reached, table, stupefied⟩ : ∃ m, run (InputManager.step types) { proxies := proxies }
      [.addDevice (), .addRemoteDevice (some ()) "e", .addProxy (), .removeDevicePtr (some ())] =
        some m ∧ m.mProxyTable.find "p" = some () ∧ (m.proxies ()).isStupefied = true :=
    ⟨_, rfl, by decide +kernel, by decide +kernel⟩
  exact ⟨m, reached, table, stupefied,
    (proxies_follow_table types proxies _ m reached).1 "p" () table⟩

/-- A proxy that left the proxy table keeps its device when that leaves the device table. -/
theorem removed_proxy_refers : ¬ ∀ (types : DeviceTypes Unit Unit)
    (proxies : Unit → Proxy Unit Unit) (calls : List (InputCall Unit Unit))
    (m : InputManager Unit Unit Unit),
    (∀ i, (proxies i).mTypedDevice = none ∧ (proxies i).mStupefied = true) →
    run (InputManager.step types) { proxies := proxies } calls = some m →
    (∀ name i, m.mProxyTable.find name = some i → Follows types m.mDevTable (m.proxies i)) ∧
    (∀ i, (m.proxies i).isStupefied = true → ∀ dev, ¬ (m.proxies i).RefersTo dev) ∧
    (∀ i dev, (m.proxies i).RefersTo dev → InTable m.mDevTable dev) := by
  intro claim
  have all := claim ⟨fun _ => "d", fun _ _ => true⟩
    (fun _ => { mName := "p", mDeviceName := "d", devType := () })
    [.addDevice (), .addProxy (), .removeProxy "p", .removeDevice "d"] _
    (fun _ => ⟨rfl, rfl⟩) rfl
  obtain ⟨name, found⟩ := all.2.2 () () (.inl rfl)
  have empty : ∀ name, (SortedMap.empty : SortedMap String (Option Unit)).find name ≠
      some (some ()) := by simp
  exact empty name found

end VRJuggler.Gadget
