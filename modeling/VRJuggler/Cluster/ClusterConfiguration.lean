import Mathlib.Data.String.Basic
import VRJuggler.Base.SortedMap
import VRJuggler.Base.Stateful
import VRJuggler.Jccl.ConfigManager

/-!
# Changes of the cluster configuration

`ClusterManager::configurationChanged` looks at a configuration that is to be added or removed,
before its elements become requests. It edits one thing after the other, and what it has done
stays done when it throws.
-/
namespace VRJuggler.Cluster

open Jccl (PendingType)
open Stateful

/-- What the cluster manager asks of the elements of a configuration. Embedded elements are not
null, as `getChildElements` asserts. -/
structure Elements (ε : Type) where
  getName : ε → String
  getID : ε → String
  host_name : ε → String
  getChildElements : ε → List ε

/-- The exceptions, with their messages. -/
inductive ConfigurationThrown where
  | cluster (msg : String)
  | unknownHost (msg : String)

/-- The cluster manager, the nodes of its network and the requests that come in at the
configuration manager. -/
structure ClusterManager (ε : Type) where
  mClusterElement : Option ε := none
  mClusterNodeElements : SortedMap String ε := .empty
  mLocalNodeElement : Option ε := none
  mSystemConfiguration : List ε := []
  mWindowOpened : Bool := false
  mNodes : List String := []
  mIncomingConfig : List (PendingType × ε) := []

variable {ε : Type}

namespace Elements

variable (e : Elements ε)

def getByType (cfg : List ε) (typeName : String) : List ε :=
  cfg.filter fun elm => e.getID elm = typeName

/-- Only the first element of the name is removed. -/
def remove (mElements : List ε) (name : String) : List ε :=
  mElements.eraseP fun elm => e.getName elm = name

/-- An element of the same name is overwritten. -/
def add (newElement : ε) : List ε → List ε
  | [] => [newElement]
  | elm :: rest =>
    if e.getName elm = e.getName newElement then newElement :: rest else elm :: add newElement rest

def mergeConfigurations (dst src : List ε) (type : PendingType) : List ε :=
  src.foldl (fun dst elm =>
    if type = .ADD then e.add elm dst else e.remove dst (e.getName elm)) dst

end Elements

namespace ClusterManager

variable (e : Elements ε)

/-- What is done for the node of the local machine: its embedded elements are requested. -/
def localNode (node_elm : ε) (s : ClusterManager ε) : ClusterManager ε :=
  let child_elms := e.getChildElements node_elm
  { s with
    mLocalNodeElement := some node_elm
    mWindowOpened :=
      if child_elms.any fun elm => e.getID elm = "display_window" then s.mWindowOpened else true
    mIncomingConfig := s.mIncomingConfig ++ child_elms.map fun elm => (PendingType.ADD, elm) }

/-- One round of the loop over the node elements. `isLocalHost` throws when it cannot resolve
the name. -/
def nodeChanged (isLocalHost : String → Except String Bool) (node_elm : ε) :
    EStateM ConfigurationThrown (ClusterManager ε) Unit := do
  let node_name := e.getName node_elm
  if ((← get).mClusterNodeElements.find node_name).isSome then
    throw (.cluster ("Already have a configuration element for cluster node: " ++ node_name))
  modify fun s =>
    { s with mClusterNodeElements := s.mClusterNodeElements.insert node_name node_elm }
  match isLocalHost (e.host_name node_elm) with
  | .error msg => throw (.unknownHost msg)
  | .ok isLocal => if isLocal then modify (localNode e node_elm) else pure ()

def nodesChanged (isLocalHost : String → Except String Bool) :
    List ε → EStateM ConfigurationThrown (ClusterManager ε) Unit
  | [] => pure ()
  | node_elm :: rest => do
    nodeChanged e isLocalHost node_elm
    nodesChanged isLocalHost rest

/-- The checks of the `cluster_manager` elements, of which there can be one. -/
def clusterChanged (cluster_elements : List ε) (type : PendingType) :
    EStateM ConfigurationThrown (ClusterManager ε) Unit :=
  match cluster_elements with
  | [] => pure ()
  | first :: others => do
    if type = .REMOVE then
      throw (.cluster "Can't remove a cluster_manager element.")
    if (← get).mClusterElement.isSome ∨ others ≠ [] then
      throw (.cluster "Can't have more than one cluster configurations.")
    modify fun s => { s with mClusterElement := some first }

def configurationChanged (isLocalHost : String → Except String Bool) (cfg : List ε)
    (type : PendingType) : EStateM ConfigurationThrown (ClusterManager ε) Unit := do
  clusterChanged (e.getByType cfg "cluster_manager") type
  nodesChanged e isLocalHost (e.getByType cfg "cluster_node")
  modify fun s =>
    { s with mSystemConfiguration := e.mergeConfigurations s.mSystemConfiguration cfg type }

/-! ## What a change should keep -/

/-- As before, in all that is told of a change that throws. -/
def Kept (s t : ClusterManager ε) : Prop :=
  t.mClusterElement = s.mClusterElement ∧ t.mClusterNodeElements = s.mClusterNodeElements ∧
    t.mNodes = s.mNodes ∧ t.mIncomingConfig = s.mIncomingConfig ∧
    t.mSystemConfiguration = s.mSystemConfiguration

/-- No new node, and no new request to add an element. -/
def AddsNothing (s t : ClusterManager ε) : Prop :=
  (∀ name, (t.mClusterNodeElements.find name).isSome →
    (s.mClusterNodeElements.find name).isSome) ∧ t.mNodes = s.mNodes ∧
    ∃ new, t.mIncomingConfig = s.mIncomingConfig ++ new ∧ ∀ request ∈ new, request.1 ≠ .ADD

/-- The change is made as a whole, or not at all, and a removal adds nothing. -/
def Sound (type : PendingType) (s : ClusterManager ε) :
    EStateM.Result ConfigurationThrown (ClusterManager ε) Unit → Prop
  | .ok _ t => type = .REMOVE → AddsNothing s t
  | .error _ t => Kept s t ∧ (type = .REMOVE → AddsNothing s t)

/-- The cluster manager has an element for a node of that name. -/
def Knows (s : ClusterManager ε) (node_elm : ε) : Prop :=
  (s.mClusterNodeElements.find (e.getName node_elm)).isSome

/-- Nodes that can all be added: their names are new and different, and their hosts can be
resolved. -/
def AllNew (isLocalHost : String → Except String Bool) (s : ClusterManager ε)
    (nodes : List ε) : Prop :=
  (nodes.map e.getName).Nodup ∧
    ∀ node_elm ∈ nodes, ¬ s.Knows e node_elm ∧ ∃ isLocal, isLocalHost (e.host_name node_elm) =
      .ok isLocal

/-- The changes that go right, by what is in the configuration. -/
inductive Orderly (isLocalHost : String → Except String Bool) (s : ClusterManager ε)
    (cfg : List ε) (type : PendingType) : Prop where
  /-- Its cluster element is refused before anything is done. -/
  | refused (some' : e.getByType cfg "cluster_manager" ≠ [])
      (wrong : type = .REMOVE ∨ s.mClusterElement.isSome ∨
        2 ≤ (e.getByType cfg "cluster_manager").length)
  /-- It has none, and its first node is refused. -/
  | known (none' : e.getByType cfg "cluster_manager" = []) {first : ε} {rest : List ε}
      (nodes : e.getByType cfg "cluster_node" = first :: rest) (known : s.Knows e first)
  /-- All of its nodes are added. -/
  | added (add : type = .ADD) (new : AllNew e isLocalHost s (e.getByType cfg "cluster_node"))
  /-- A removal in which there is nothing of the cluster. -/
  | removed (remove : type = .REMOVE) (none' : e.getByType cfg "cluster_manager" = [])
      (noNodes : e.getByType cfg "cluster_node" = [])

/-! ## The loop over the nodes -/

section Nodes

variable {e} {isLocalHost : String → Except String Bool} {s : ClusterManager ε}
  {node_elm : ε} {nodes : List ε}

/-- The element of a new node. -/
def withNode (e : Elements ε) (node_elm : ε) (s : ClusterManager ε) : ClusterManager ε :=
  { s with mClusterNodeElements := s.mClusterNodeElements.insert (e.getName node_elm) node_elm }

theorem nodeChanged_known (isLocalHost : String → Except String Bool)
    (known : s.Knows e node_elm) :
    Refuses (nodeChanged e isLocalHost node_elm) s := by
  refine ⟨.cluster ("Already have a configuration element for cluster node: " ++
    e.getName node_elm), ?_⟩
  unfold Knows at known
  simp [nodeChanged, known]

theorem nodeChanged_unknownHost (new : ¬ s.Knows e node_elm) {msg : String}
    (failed : isLocalHost (e.host_name node_elm) = .error msg) :
    (nodeChanged e isLocalHost node_elm).run s =
      .error (.unknownHost msg) (withNode e node_elm s) := by
  unfold Knows at new
  simp [nodeChanged, new, failed, withNode]

theorem nodeChanged_new (new : ¬ s.Knows e node_elm) {isLocal : Bool}
    (resolved : isLocalHost (e.host_name node_elm) = .ok isLocal) :
    (nodeChanged e isLocalHost node_elm).run s = .ok ()
      (if isLocal then localNode e node_elm (withNode e node_elm s)
        else withNode e node_elm s) := by
  unfold Knows at new
  cases isLocal <;> simp [nodeChanged, new, resolved, withNode]

/-- After a round the new node is known, and what was known before. -/
theorem knows_localNode (e : Elements ε) (s : ClusterManager ε) (node_elm : ε) (local' : Bool)
    (name : String) :
    ((if local' then localNode e node_elm (withNode e node_elm s)
        else withNode e node_elm s).mClusterNodeElements.find name).isSome ↔
      name = e.getName node_elm ∨ (s.mClusterNodeElements.find name).isSome := by
  have inserted : ((s.mClusterNodeElements.insert (e.getName node_elm) node_elm).find name).isSome ↔
      name = e.getName node_elm ∨ (s.mClusterNodeElements.find name).isSome := by
    by_cases same : name = e.getName node_elm
    · simp [same]
    · rw [SortedMap.find_insert_of_ne _ _ same]
      simp [same]
  cases local' <;> exact inserted

/-- A round changes neither the cluster element nor forgets a node. -/
theorem after_nodeChanged (e : Elements ε) (isLocalHost : String → Except String Bool)
    (s : ClusterManager ε) (node_elm : ε) :
    (after (nodeChanged e isLocalHost node_elm) s).mClusterElement = s.mClusterElement ∧
      (∀ name, (s.mClusterNodeElements.find name).isSome →
        ((after (nodeChanged e isLocalHost node_elm) s).mClusterNodeElements.find name).isSome) ∧
      (after (nodeChanged e isLocalHost node_elm) s).Knows e node_elm := by
  by_cases known : s.Knows e node_elm
  · obtain ⟨msg, thrown⟩ := nodeChanged_known isLocalHost known
    unfold after
    rw [thrown]
    exact ⟨rfl, fun _ before => before, known⟩
  · cases resolved : isLocalHost (e.host_name node_elm) with
    | error msg =>
      have added := knows_localNode e s node_elm false
      simp only [after, nodeChanged_unknownHost known resolved]
      exact ⟨rfl, fun name before => (added name).mpr (.inr before), (added _).mpr (.inl rfl)⟩
    | ok isLocal =>
      have added := knows_localNode e s node_elm isLocal
      simp only [after, nodeChanged_new known resolved]
      refine ⟨?_, fun name before => (added name).mpr (.inr before), (added _).mpr (.inl rfl)⟩
      cases isLocal <;> rfl

theorem after_nodesChanged (e : Elements ε) (isLocalHost : String → Except String Bool)
    (s : ClusterManager ε) (nodes : List ε) :
    (after (nodesChanged e isLocalHost nodes) s).mClusterElement = s.mClusterElement ∧
      ∀ name, (s.mClusterNodeElements.find name).isSome →
        ((after (nodesChanged e isLocalHost nodes) s).mClusterNodeElements.find name).isSome := by
  induction nodes generalizing s with
  | nil => exact ⟨rfl, fun _ before => before⟩
  | cons first rest ih =>
    obtain ⟨element, known, _⟩ := after_nodeChanged e isLocalHost s first
    refine after_bind (fun t : ClusterManager ε => t.mClusterElement = s.mClusterElement ∧
      ∀ name, (s.mClusterNodeElements.find name).isSome →
        (t.mClusterNodeElements.find name).isSome) ⟨element, known⟩ ?_
    intro _ t ⟨element, known⟩
    obtain ⟨element', known'⟩ := ih t
    exact ⟨element'.trans element, fun name before => known' name (known name before)⟩

/-- However the loop ends, its first node is known then. -/
theorem knows_after_nodesChanged (e : Elements ε) (isLocalHost : String → Except String Bool)
    (s : ClusterManager ε) (first : ε) (rest : List ε) :
    (after (nodesChanged e isLocalHost (first :: rest)) s).Knows e first := by
  refine after_bind (fun t : ClusterManager ε => t.Knows e first)
    (after_nodeChanged e isLocalHost s first).2.2 ?_
  intro _ t known
  exact (after_nodesChanged e isLocalHost t rest).2 _ known

theorem allNew_cons (s : ClusterManager ε) (first : ε) (rest : List ε) (local' : Bool) :
    AllNew e isLocalHost s (first :: rest) ↔ ¬ s.Knows e first ∧
      (∃ isLocal, isLocalHost (e.host_name first) = .ok isLocal) ∧
      AllNew e isLocalHost (if local' then localNode e first (withNode e first s)
        else withNode e first s) rest := by
  have added (node_elm : ε) := knows_localNode e s first local' (e.getName node_elm)
  simp only [AllNew, List.map_cons, List.nodup_cons, List.forall_mem_cons, List.mem_map,
    not_exists, not_and, Knows, added, not_or]
  constructor
  · rintro ⟨⟨other, distinct⟩, ⟨new, resolved⟩, later⟩
    exact ⟨new, resolved, distinct, fun n member =>
      ⟨⟨other n member, (later n member).1⟩, (later n member).2⟩⟩
  · rintro ⟨new, resolved, distinct, later⟩
    exact ⟨⟨fun n member => (later n member).1.1, distinct⟩, ⟨new, resolved⟩,
      fun n member => ⟨(later n member).1.2, (later n member).2⟩⟩

/-- The loop returns exactly when all nodes can be added. -/
theorem nodesChanged_ok_iff (e : Elements ε) (isLocalHost : String → Except String Bool)
    (s : ClusterManager ε) (nodes : List ε) :
    (∃ t, (nodesChanged e isLocalHost nodes).run s = .ok () t) ↔
      AllNew e isLocalHost s nodes := by
  induction nodes generalizing s with
  | nil => simp [nodesChanged, AllNew]
  | cons first rest ih =>
    by_cases known : s.Knows e first
    · obtain ⟨msg, thrown⟩ := nodeChanged_known isLocalHost known
      rw [allNew_cons s first rest false, nodesChanged, run_bind_error thrown]
      simp [known]
    · cases resolved : isLocalHost (e.host_name first) with
      | error msg =>
        rw [allNew_cons s first rest false, nodesChanged,
          run_bind_error (nodeChanged_unknownHost known resolved)]
        simp [resolved]
      | ok isLocal =>
        rw [allNew_cons s first rest isLocal, nodesChanged,
          run_bind_ok (nodeChanged_new known resolved), ih]
        simp [known, resolved]

end Nodes

/-! ## The whole change -/

section Changes

variable {e} {isLocalHost : String → Except String Bool} {s : ClusterManager ε} {cfg : List ε}
  {type : PendingType}

/-- What is left of the call once the cluster element was looked at. -/
def nodesAndMerge (e : Elements ε) (isLocalHost : String → Except String Bool) (cfg : List ε)
    (type : PendingType) : EStateM ConfigurationThrown (ClusterManager ε) Unit := do
  nodesChanged e isLocalHost (e.getByType cfg "cluster_node")
  modify fun s =>
    { s with mSystemConfiguration := e.mergeConfigurations s.mSystemConfiguration cfg type }

theorem kept_refl (s : ClusterManager ε) : Kept s s := ⟨rfl, rfl, rfl, rfl, rfl⟩

theorem addsNothing_refl (s : ClusterManager ε) : AddsNothing s s :=
  ⟨fun _ before => before, rfl, [], (List.append_nil _).symm, nofun⟩

/-- A call that throws at once does nothing wrong. -/
theorem sound_of_refuses {x : EStateM ConfigurationThrown (ClusterManager ε) Unit}
    (refuses : Refuses x s) : Sound type s (x.run s) := by
  obtain ⟨thrown, same⟩ := refuses
  rw [same]
  exact ⟨kept_refl s, fun _ => addsNothing_refl s⟩

/-- The rest of the call returns when the nodes can be added, and otherwise throws. -/
theorem nodesAndMerge_cases (e : Elements ε) (isLocalHost : String → Except String Bool)
    (cfg : List ε) (type : PendingType) (s : ClusterManager ε) :
    (AllNew e isLocalHost s (e.getByType cfg "cluster_node") ∧
      ∃ t, (nodesAndMerge e isLocalHost cfg type).run s = .ok () t ∧
        t.mClusterNodeElements = (after (nodesChanged e isLocalHost
          (e.getByType cfg "cluster_node")) s).mClusterNodeElements) ∨
    (¬ AllNew e isLocalHost s (e.getByType cfg "cluster_node") ∧ ∃ thrown t,
      (nodesAndMerge e isLocalHost cfg type).run s = .error thrown t ∧
      after (nodesChanged e isLocalHost (e.getByType cfg "cluster_node")) s = t) := by
  have returns := nodesChanged_ok_iff e isLocalHost s (e.getByType cfg "cluster_node")
  cases ran : (nodesChanged e isLocalHost (e.getByType cfg "cluster_node")).run s with
  | ok _ t =>
    let merged : ClusterManager ε :=
      { t with mSystemConfiguration := e.mergeConfigurations t.mSystemConfiguration cfg type }
    refine .inl ⟨returns.mp ⟨t, ran⟩, merged, ?_, ?_⟩
    · rw [nodesAndMerge, run_bind_ok ran]
      rfl
    · rw [after, ran]
  | error thrown t =>
    refine .inr ⟨fun new => ?_, thrown, t, ?_, ?_⟩
    · obtain ⟨u, ran'⟩ := returns.mpr new
      cases ran.symm.trans ran'
    · rw [nodesAndMerge, run_bind_error ran]
    · rw [after, ran]

/-- Without a cluster element. -/
theorem sound_nodes_iff (none' : e.getByType cfg "cluster_manager" = []) :
    Sound type s ((nodesAndMerge e isLocalHost cfg type).run s) ↔
      Orderly e isLocalHost s cfg type := by
  cases nodes : e.getByType cfg "cluster_node" with
  | nil =>
    -- there is nothing to throw at, and the merge adds neither a node nor a request
    have new : AllNew e isLocalHost s (e.getByType cfg "cluster_node") := by simp [nodes, AllNew]
    have ran : (nodesAndMerge e isLocalHost cfg type).run s = .ok () { s with
        mSystemConfiguration := e.mergeConfigurations s.mSystemConfiguration cfg type } := by
      rw [nodesAndMerge, nodes]
      rfl
    rw [ran]
    refine iff_of_true (fun _ => addsNothing_refl s) ?_
    cases type with
    | ADD => exact .added rfl new
    | REMOVE => exact .removed rfl none' nodes
  | cons first rest =>
    -- the first node that is known already throws before anything changes
    by_cases known : s.Knows e first
    · refine iff_of_true (sound_of_refuses ?_) (.known none' nodes known)
      rw [nodesAndMerge, nodes]
      exact ((nodeChanged_known isLocalHost known).bind).bind
    · have knows := knows_after_nodesChanged e isLocalHost s first rest
      rw [← nodes] at knows
      -- of the orderly cases, only the one with new nodes is left
      have orderly : Orderly e isLocalHost s cfg type ↔
          type = .ADD ∧ AllNew e isLocalHost s (e.getByType cfg "cluster_node") := by
        constructor
        · rintro (⟨some', _⟩ | ⟨_, nodes', known'⟩ | ⟨add, new⟩ | ⟨_, _, noNodes⟩)
          · exact absurd none' some'
          · obtain ⟨rfl, rfl⟩ := List.cons.inj (nodes.symm.trans nodes')
            exact absurd known' known
          · exact ⟨add, new⟩
          · cases nodes.symm.trans noNodes
        · exact fun both => .added both.1 both.2
      rw [orderly]
      rcases nodesAndMerge_cases e isLocalHost cfg type s with
        ⟨new, t, ran, left⟩ | ⟨old, thrown, t, ran, left⟩
      · rw [ran]
        cases type with
        | ADD => exact iff_of_true nofun ⟨rfl, new⟩
        | REMOVE =>
          -- the removal has added its first node
          refine iff_of_false (fun sound => known ((sound rfl).1 _ ?_)) (fun both => nomatch both.1)
          unfold Knows at knows
          rwa [left]
      · rw [ran]
        rw [left] at knows
        refine iff_of_false (fun sound => known ?_) (fun both => old both.2)
        unfold Knows at knows ⊢
        rwa [sound.1.2.1] at knows

/-- With a cluster element that was accepted, all nodes must be added. -/
theorem sound_cluster_iff {element : ε} (unset : s.mClusterElement = none) :
    Sound .ADD s ((nodesAndMerge e isLocalHost cfg .ADD).run
      { s with mClusterElement := some element }) ↔
        AllNew e isLocalHost s (e.getByType cfg "cluster_node") := by
  rcases nodesAndMerge_cases e isLocalHost cfg .ADD
    { s with mClusterElement := some element } with ⟨new, t, ran, _⟩ | ⟨old, thrown, t, ran, left⟩
  · rw [ran]
    exact iff_of_true nofun new
  · rw [ran]
    refine iff_of_false (fun sound => ?_) old
    have element' := (after_nodesChanged e isLocalHost
      { s with mClusterElement := some element } (e.getByType cfg "cluster_node")).1
    rw [left, sound.1.1, unset] at element'
    cases element'

/-- In every state a change goes right exactly when it is an orderly one. -/
theorem configurationChanged_sound_iff (e : Elements ε)
    (isLocalHost : String → Except String Bool) (s : ClusterManager ε) (cfg : List ε)
    (type : PendingType) :
    Sound type s ((configurationChanged e isLocalHost cfg type).run s) ↔
      Orderly e isLocalHost s cfg type := by
  have parts : configurationChanged e isLocalHost cfg type =
      clusterChanged (e.getByType cfg "cluster_manager") type >>= fun _ =>
        nodesAndMerge e isLocalHost cfg type := rfl
  rw [parts]
  cases elements : e.getByType cfg "cluster_manager" with
  | nil =>
    have looked : (clusterChanged ([] : List ε) type).run s = .ok () s := rfl
    rw [run_bind_ok looked]
    exact sound_nodes_iff elements
  | cons first others =>
    have some' : e.getByType cfg "cluster_manager" ≠ [] := by simp [elements]
    cases type with
    | REMOVE =>
      refine iff_of_true (sound_of_refuses ?_) (.refused some' (.inl rfl))
      exact Refuses.bind ⟨.cluster "Can't remove a cluster_manager element.", rfl⟩
    | ADD =>
      by_cases second : s.mClusterElement.isSome ∨ others ≠ []
      · refine iff_of_true (sound_of_refuses ?_) (.refused some' (.inr ?_))
        · refine Refuses.bind ⟨.cluster "Can't have more than one cluster configurations.", ?_⟩
          simp [clusterChanged, second]
        · rw [elements, List.length_cons]
          refine second.imp_right fun more => ?_
          have := List.length_pos_iff.mpr more
          omega
      · obtain ⟨unset, alone⟩ := not_or.mp second
        have accepted : (clusterChanged (first :: others) .ADD).run s =
            .ok () { s with mClusterElement := some first } := by
          simp [clusterChanged, second]
        have orderly : Orderly e isLocalHost s cfg .ADD ↔
            AllNew e isLocalHost s (e.getByType cfg "cluster_node") := by
          constructor
          · rintro (⟨_, remove | known | two⟩ | ⟨none', _, _⟩ | ⟨_, new⟩ | ⟨remove, _⟩)
            · cases remove
            · exact absurd known unset
            · rw [elements, not_not.mp alone] at two
              simp at two
            · exact absurd none' some'
            · exact new
            · cases remove
          · exact .added rfl
        rw [run_bind_ok accepted, orderly]
        exact sound_cluster_iff (by simpa using unset)

/-- A new manager takes the cluster element of a configuration in which the host of the node
cannot be resolved; and a removal of the node adds it. -/
theorem changed_by_failure_and_removal :
    let e : Elements Bool := {
      getName := fun manager => if manager then "cluster" else "node"
      getID := fun manager => if manager then "cluster_manager" else "cluster_node"
      host_name := fun _ => "nowhere"
      getChildElements := fun _ => [] }
    ¬ (∀ isLocalHost cfg, Sound .ADD {} ((configurationChanged e isLocalHost cfg .ADD).run {})) ∧
    ¬ (∀ isLocalHost cfg, Sound .REMOVE {}
      ((configurationChanged e isLocalHost cfg .REMOVE).run {})) := by
  intro e
  constructor
  · intro claim
    have sound := claim (fun _ => .error "Could not find address") [true, false]
    have ran : (configurationChanged e (fun _ => .error "Could not find address") [true, false]
        .ADD).run {} = .error (.unknownHost "Could not find address") {
          mClusterElement := some true
          mClusterNodeElements := SortedMap.empty.insert "node" false } := by
      simp [configurationChanged, clusterChanged, nodesChanged, nodeChanged, Elements.getByType, e]
    rw [ran] at sound
    cases sound.1.1
  · intro claim
    have sound := claim (fun _ => .ok false) [false]
    have ran : (configurationChanged e (fun _ => .ok false) [false] .REMOVE).run {} = .ok () {
          mClusterNodeElements := SortedMap.empty.insert "node" false } := by
      simp [configurationChanged, clusterChanged, nodesChanged, nodeChanged, Elements.getByType, e,
        Elements.mergeConfigurations, Elements.remove]
    rw [ran] at sound
    have known := (sound rfl).1 "node"
    simp at known

end Changes

end ClusterManager

end VRJuggler.Cluster
