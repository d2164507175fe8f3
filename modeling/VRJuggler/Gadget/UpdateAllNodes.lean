import VRJuggler.Base.Lists
import VRJuggler.Gadget.NetworkManager

/-!
# Receiving until every peer has delivered its end block

`NetworkManager::updateAllNodes` keeps a bare counter that is compared for
equality with the number of nodes. A node is settled when its end block was
handled or its connection was shut down. The loop is right as long as the
counter equals the number of settled nodes. Three kinds of steps break that:
`select` throws, the read of a header throws (neither is a `ClusterException`),
or the loop comes back to a node that it shut down before and counts it again.
-/
namespace VRJuggler.Gadget.Manager

variable {ι α : Type}

def settled (m : Manager ι) (i : ι) : Bool := (m.node i).updated || !(m.node i).sockStream

def settledCount (m : Manager ι) : Nat := m.handles.countP m.settled

/-- `completed_nodes`, while `updateAllNodes` runs. -/
def completed (m : Manager ι) : Option Nat :=
  match m.phase with
  | .select _ c _ | .scan _ c _ _ | .receive _ c _ _ _ => some c
  | .idle | .sendEndBlocks _ _ _ | .threw _ => none

/-- The entry of `updateAllNodes` with the given connected nodes. -/
def enterUpdateAllNodes (nodes : List ι) : Manager ι where
  mNodes := nodes
  node := fun _ => ⟨.connected, false, true⟩
  handles := nodes
  phase := .select nodes.length 0 []

/-- What holds of a manager that waits for input, has returned or has thrown:
nothing was thrown, every settled node was counted exactly once, and it has
returned exactly when all nodes are settled. -/
structure Sound (m : Manager ι) : Prop where
  noException : ∀ e, m.phase ≠ .threw e
  countedOnce : ∀ c, m.completed = some c → c = m.settledCount
  returned : m.phase = .idle ↔ ∀ i ∈ m.handles, m.settled i

/-- The steps after which the loop still counts right. -/
def Allowed (m : Manager ι) : Event ι α → Prop
  | .select answer => answer ≠ .fails
  | .recv a => a ≠ .headerFails
  | .next => ∀ n c ready i rest, m.phase = .receive n c ready i rest →
      (m.node i).updated ∨ (m.node i).sockStream
  | .update _ | .sendEndBlock _ => True

/-! ### Right and wrong counters -/

/-- The counter together with the node that is about to be counted. -/
def tally (m : Manager ι) : Nat :=
  match m.phase with
  | .select _ c _ | .scan _ c _ _ => c
  | .receive _ c _ i _ => c + if (m.node i).updated then 1 else 0
  | .idle | .sendEndBlocks _ _ _ | .threw _ => m.handles.length

/-- The loop is at work on the registered nodes, or has returned. -/
def Working (m : Manager ι) : Prop :=
  m.handles.Nodup ∧
  match m.phase with
  | .select n _ ready => n = m.handles.length ∧ ready ⊆ m.handles
  | .scan n _ ready rest => n = m.handles.length ∧ ready ⊆ m.handles ∧ rest ⊆ m.handles
  | .receive n _ ready i rest =>
    n = m.handles.length ∧ ready ⊆ m.handles ∧ i ∈ m.handles ∧ rest ⊆ m.handles
  | .idle => True
  | .sendEndBlocks _ _ _ | .threw _ => False

def CountsRight (m : Manager ι) : Prop := m.Working ∧ m.tally = m.settledCount

def CountsWrong (m : Manager ι) : Prop :=
  (∃ e, m.phase = .threw e) ∨ (m.Working ∧ m.settledCount < m.tally)

/-- A step keeps the distance between the counter and the number of settled
nodes, unless it throws or counts a node that was counted before. -/
def Balanced (ok : Prop) (m t : Manager ι) : Prop :=
  (ok → t.Working ∧ t.tally + m.settledCount = m.tally + t.settledCount) ∧
  (¬ ok → (∃ e, t.phase = .threw e) ∨
    (t.Working ∧ t.tally = m.tally + 1 ∧ t.settledCount = m.settledCount))

theorem settledCount_eq_length (m : Manager ι) :
    m.settledCount = m.handles.length ↔ ∀ i ∈ m.handles, m.settled i := List.countP_eq_length

theorem countsRight_enter (nodes : List ι) (nodup : nodes.Nodup) :
    (enterUpdateAllNodes nodes).CountsRight := by
  refine ⟨⟨nodup, rfl, by simp⟩, ?_⟩
  have none_settled : nodes.countP (enterUpdateAllNodes nodes).settled = 0 := by
    rw [List.countP_eq_zero]
    intro i _
    simp [settled, enterUpdateAllNodes]
  exact none_settled.symm

/-- A step that changes the phase only. -/
theorem balanced_of_phase {ok : Prop} {m : Manager ι} (p : Phase ι) (allowed : ok)
    (working : ({ m with phase := p } : Manager ι).Working)
    (same : ({ m with phase := p } : Manager ι).tally = m.tally) :
    Balanced ok m { m with phase := p } := by
  refine ⟨fun _ => ⟨working, ?_⟩, fun no => absurd allowed no⟩
  rw [same]
  rfl

/-- A step that settles one node and counts it. -/
theorem balanced_of_count {ok : Prop} {m t : Manager ι} (allowed : ok) (working : t.Working)
    (counted : t.tally = m.tally + 1) (settles : t.settledCount = m.settledCount + 1) :
    Balanced ok m t := by
  refine ⟨fun _ => ⟨working, ?_⟩, fun no => absurd allowed no⟩
  omega

variable [DecidableEq ι]

/-- The steps of `updateAllNodes` alone. -/
def updateAllNodesStep (m : Manager ι) : Event ι α → Option (Manager ι)
  | .update _ | .sendEndBlock _ => none
  | .select answer => m.step (.select answer : Event ι α)
  | .recv a => m.step (.recv a)
  | .next => m.next

/-! ### Counting settled nodes -/

@[simp] theorem setNode_handles (m : Manager ι) (i : ι) (n : Node) :
    (m.setNode i n).handles = m.handles := rfl
@[simp] theorem setNode_phase (m : Manager ι) (i : ι) (n : Node) :
    (m.setNode i n).phase = m.phase := rfl
@[simp] theorem setNode_mNodes (m : Manager ι) (i : ι) (n : Node) :
    (m.setNode i n).mNodes = m.mNodes := rfl
@[simp] theorem setNode_node_self (m : Manager ι) (i : ι) (n : Node) :
    (m.setNode i n).node i = n := Function.update_self _ _ _
theorem setNode_node_of_ne (m : Manager ι) {i j : ι} (n : Node) (other : j ≠ i) :
    (m.setNode i n).node j = m.node j := Function.update_of_ne other _ _

/-- Settling one more node raises the count by one. -/
theorem settledCount_setNode (m : Manager ι) (i : ι) (n : Node) (nodup : m.handles.Nodup)
    (member : i ∈ m.handles) (owed : m.settled i = false)
    (settles : (n.updated || !n.sockStream) = true) :
    (m.setNode i n).settledCount = m.settledCount + 1 := by
  refine countP_eq_succ nodup member owed ?_ fun j _ other => ?_
  · simpa only [settled, setNode_node_self] using settles
  · simp only [settled, setNode_node_of_ne m n other]

/-- Settling a node again changes nothing. -/
theorem settledCount_setNode_of_settled (m : Manager ι) (i : ι) (n : Node)
    (before : m.settled i = true) (settles : (n.updated || !n.sockStream) = true) :
    (m.setNode i n).settledCount = m.settledCount := by
  apply List.countP_congr
  intro j _
  by_cases same : j = i
  · subst same
    simp only [settled, setNode_node_self, settles] at before ⊢
    simp [before]
  · simp only [settled, setNode_node_of_ne m n same]

/-! ### One step -/

theorem select_balanced {m t : Manager ι} (working : m.Working) (answer : Poll ι)
    (stepped : m.step (.select answer : Event ι α) = some t) :
    Balanced (m.Allowed (.select answer : Event ι α)) m t := by
  obtain ⟨mNodes, node, handles, phase⟩ := m
  cases phase with
  | select n c ready =>
    obtain ⟨nodup, total, subset⟩ := working
    by_cases finished : c = n
    · simp [step, finished] at stepped
    · simp only [step, finished, if_false] at stepped
      cases answer with
      | timeout =>
        obtain rfl := Option.some.inj stepped
        exact balanced_of_phase _ nofun ⟨nodup, total, subset, subset⟩ rfl
      | readable mask =>
        obtain rfl := Option.some.inj stepped
        have ready_sub : handles.filter (· ∈ mask) ⊆ handles := List.filter_subset_self _
        exact balanced_of_phase _ nofun ⟨nodup, total, ready_sub, ready_sub⟩ rfl
      | fails =>
        obtain rfl := Option.some.inj stepped
        exact ⟨fun ok => absurd rfl ok, fun _ => Or.inl ⟨_, rfl⟩⟩
  | idle => simp [step] at stepped
  | sendEndBlocks temp rest n => simp [step] at stepped
  | scan n c ready rest => simp [step] at stepped
  | receive n c ready i rest => simp [step] at stepped
  | threw e => simp [step] at stepped

theorem recv_balanced {m t : Manager ι} (working : m.Working) (a : Arrival α)
    (stepped : m.step (.recv a) = some t) : Balanced (m.Allowed (.recv a)) m t := by
  obtain ⟨mNodes, node, handles, phase⟩ := m
  cases phase with
  | receive n c ready i rest =>
    obtain ⟨nodup, total, subset, member, rest_sub⟩ := working
    simp only [step] at stepped
    split at stepped
    next => simp at stepped
    next open_ =>
      simp only [Bool.or_eq_true, Bool.not_eq_true', not_or, Bool.not_eq_true,
        Bool.not_eq_false] at open_
      obtain ⟨owed, stream⟩ := open_
      simp only [recvPacket, stream, if_true] at stepped
      have unsettled :
          (⟨mNodes, node, handles, .receive n c ready i rest⟩ : Manager ι).settled i = false := by
        simp [settled, owed, stream]
      cases a with
      | packet p =>
        obtain rfl := Option.some.inj stepped
        cases p with
        | endBlock frameNum =>
          refine balanced_of_count nofun ⟨nodup, total, subset, member, rest_sub⟩ ?_ ?_
          · simp [handlePacket, Packet.isEndBlock, tally, owed, setNode]
          · exact settledCount_setNode _ i _ nodup member unsettled rfl
        | other body =>
          exact balanced_of_phase (.receive n c ready i rest) nofun
            ⟨nodup, total, subset, member, rest_sub⟩ rfl
      | headerFails =>
        obtain rfl := Option.some.inj stepped
        exact ⟨fun ok => absurd rfl ok, fun _ => Or.inl ⟨_, rfl⟩⟩
      | payloadFails =>
        obtain rfl := Option.some.inj stepped
        refine balanced_of_count nofun ⟨nodup, total, subset, rest_sub⟩ ?_ ?_
        · simp [tally, owed]
        · exact settledCount_setNode _ i _ nodup member unsettled (by simp [Node.shutdown])
  | idle => simp [step] at stepped
  | sendEndBlocks temp rest n => simp [step] at stepped
  | scan n c ready rest => simp [step] at stepped
  | select n c ready => simp [step] at stepped
  | threw e => simp [step] at stepped

theorem next_balanced {m t : Manager ι} (working : m.Working) (stepped : m.next = some t) :
    Balanced (m.Allowed (.next : Event ι α)) m t := by
  obtain ⟨mNodes, node, handles, phase⟩ := m
  -- a node that was updated is passed over, one that is owed is waited for
  cases phase with
  | idle => simp [next] at stepped
  | threw e => simp [next] at stepped
  | sendEndBlocks temp rest n => exact absurd working.2 id
  | select n c ready =>
    obtain ⟨nodup, total, subset⟩ := working
    simp only [next] at stepped
    split at stepped
    next finished =>
      obtain rfl := Option.some.inj stepped
      refine balanced_of_phase _ nofun ⟨nodup, trivial⟩ ?_
      simp only [tally]
      exact (finished.trans total).symm
    next => simp at stepped
  | scan n c ready rest =>
    obtain ⟨nodup, total, subset, rest_sub⟩ := working
    cases rest with
    | nil =>
      obtain rfl := Option.some.inj stepped
      exact balanced_of_phase _ nofun ⟨nodup, total, subset⟩ rfl
    | cons i rest =>
      rw [List.cons_subset] at rest_sub
      simp only [next] at stepped
      split at stepped
      next =>
        obtain rfl := Option.some.inj stepped
        exact balanced_of_phase _ nofun ⟨nodup, total, subset, rest_sub.2⟩ rfl
      next owed =>
        obtain rfl := Option.some.inj stepped
        refine balanced_of_phase _ nofun ⟨nodup, total, subset, rest_sub.1, rest_sub.2⟩ ?_
        simp only [tally, owed]
        rfl
  | receive n c ready i rest =>
    obtain ⟨nodup, total, subset, member, rest_sub⟩ := working
    simp only [next] at stepped
    split at stepped
    next updated =>
      obtain rfl := Option.some.inj stepped
      refine balanced_of_phase _ ?_ ⟨nodup, total, subset, rest_sub⟩ ?_
      · rintro n' c' ready' i' rest' ⟨⟩
        exact Or.inl updated
      · simp [tally, updated]
    next owed =>
      split at stepped
      next => simp at stepped
      next gone =>
        -- the node was shut down and counted before
        obtain rfl := Option.some.inj stepped
        have again : ¬ Allowed (⟨mNodes, node, handles, .receive n c ready i rest⟩ : Manager ι)
            (.next : Event ι α) := by
          intro ok
          rcases ok n c ready i rest rfl with yes | yes
          · exact owed yes
          · exact gone yes
        refine ⟨fun ok => absurd ok again, fun _ => Or.inr ?_⟩
        refine ⟨⟨nodup, total, subset, rest_sub⟩, ?_, ?_⟩
        · simp [tally, owed]
        · exact settledCount_setNode_of_settled _ i _ (by simp [settled, gone])
            (by simp [Node.shutdown])

theorem updateAllNodesStep_balanced {m t : Manager ι} (working : m.Working) (ev : Event ι α)
    (stepped : m.updateAllNodesStep ev = some t) : Balanced (m.Allowed ev) m t := by
  cases ev with
  | update temp => simp [updateAllNodesStep] at stepped
  | sendEndBlock delivered => simp [updateAllNodesStep] at stepped
  | select answer => exact select_balanced working answer stepped
  | recv a => exact recv_balanced working a stepped
  | next => exact next_balanced working stepped

/-! ### Whole updates -/

/-- Nothing happens any more once an exception has escaped. -/
theorem updateAllNodesStep_threw {m : Manager ι} {e : Exn} (thrown : m.phase = .threw e)
    (ev : Event ι α) : m.updateAllNodesStep ev = none := by
  cases ev <;> simp [updateAllNodesStep, step, next, thrown]

theorem countsRight_step {m t : Manager ι} (right : m.CountsRight) (ev : Event ι α)
    (allowed : m.Allowed ev) (stepped : m.updateAllNodesStep ev = some t) : t.CountsRight := by
  obtain ⟨working, equal⟩ := right
  obtain ⟨working', kept⟩ := (updateAllNodesStep_balanced working ev stepped).1 allowed
  exact ⟨working', by omega⟩

theorem countsWrong_of_countsRight {m t : Manager ι} (right : m.CountsRight) (ev : Event ι α)
    (refused : ¬ m.Allowed ev) (stepped : m.updateAllNodesStep ev = some t) : t.CountsWrong := by
  obtain ⟨working, equal⟩ := right
  rcases (updateAllNodesStep_balanced working ev stepped).2 refused with
    threw | ⟨working', up, same⟩
  · exact Or.inl threw
  · exact Or.inr ⟨working', by omega⟩

/-- The counter never catches up with itself again. -/
theorem countsWrong_step {m t : Manager ι} (wrong : m.CountsWrong) (ev : Event ι α)
    (stepped : m.updateAllNodesStep ev = some t) : t.CountsWrong := by
  rcases wrong with ⟨e, thrown⟩ | ⟨working, ahead⟩
  · simp [updateAllNodesStep_threw thrown] at stepped
  · have balanced := updateAllNodesStep_balanced working ev stepped
    by_cases allowed : m.Allowed ev
    · obtain ⟨working', kept⟩ := balanced.1 allowed
      exact Or.inr ⟨working', by omega⟩
    · rcases balanced.2 allowed with threw | ⟨working', up, same⟩
      · exact Or.inl threw
      · exact Or.inr ⟨working', by omega⟩

omit [DecidableEq ι] in
theorem not_countsRight_of_countsWrong {m : Manager ι} (wrong : m.CountsWrong) :
    ¬ m.CountsRight := by
  rintro ⟨working, equal⟩
  rcases wrong with ⟨e, thrown⟩ | ⟨_, ahead⟩
  · simp [Working, thrown] at working
  · omega

/-- The counter is right at the end exactly when every step was an allowed one. -/
theorem countsRight_iff_meets (nodes : List ι) (nodup : nodes.Nodup) (evs : List (Event ι α))
    {m : Manager ι} (reached : run updateAllNodesStep (enterUpdateAllNodes nodes) evs = some m) :
    m.CountsRight ↔ Meets updateAllNodesStep Allowed (enterUpdateAllNodes nodes) evs :=
  run_good_iff_meets CountsRight CountsWrong Allowed
    (fun _ ev _ right allowed stepped => countsRight_step right ev allowed stepped)
    (fun _ ev _ right refused stepped => countsWrong_of_countsRight right ev refused stepped)
    (fun _ ev _ wrong stepped => countsWrong_step wrong ev stepped)
    (fun _ wrong => not_countsRight_of_countsWrong wrong)
    (countsRight_enter nodes nodup) reached

theorem right_or_wrong (nodes : List ι) (nodup : nodes.Nodup) (evs : List (Event ι α))
    {m : Manager ι} (reached : run updateAllNodesStep (enterUpdateAllNodes nodes) evs = some m) :
    m.CountsRight ∨ m.CountsWrong := by
  refine run_invariant (fun m => m.CountsRight ∨ m.CountsWrong) ?_
    (Or.inl (countsRight_enter nodes nodup)) reached
  intro s ev t before stepped
  rcases before with right | wrong
  · by_cases allowed : s.Allowed ev
    · exact Or.inl (countsRight_step right ev allowed stepped)
    · exact Or.inr (countsWrong_of_countsRight right ev allowed stepped)
  · exact Or.inr (countsWrong_step wrong ev stepped)

/-! ### Managers at rest -/

/-- A right counter shows in what can be seen of a manager at rest. -/
theorem sound_of_countsRight {m : Manager ι} (rest : m.next = none) (right : m.CountsRight) :
    m.Sound := by
  obtain ⟨mNodes, node, handles, phase⟩ := m
  obtain ⟨⟨nodup, working⟩, equal⟩ := right
  have all_iff := settledCount_eq_length (⟨mNodes, node, handles, phase⟩ : Manager ι)
  cases phase with
  | idle => exact ⟨nofun, nofun, iff_of_true rfl (all_iff.mp equal.symm)⟩
  | threw e => exact working.elim
  | sendEndBlocks temp l n => exact working.elim
  | scan n c ready l =>
    cases l with
    | nil => simp [next] at rest
    | cons i l =>
      simp only [next] at rest
      split at rest <;> simp at rest
  | select n c ready =>
    simp only [next] at rest
    split at rest
    next => simp at rest
    next unfinished =>
      refine ⟨nofun, fun c' hc => ?_, iff_of_false nofun fun all => unfinished ?_⟩
      · obtain rfl : c = c' := Option.some.inj hc
        exact equal
      · exact equal.trans ((all_iff.mpr all).trans working.1.symm)
  | receive n c ready i l =>
    simp only [next] at rest
    split at rest
    next => simp at rest
    next owed =>
      split at rest
      next stream =>
        have unfinished : ¬ ∀ j ∈ handles,
            settled ⟨mNodes, node, handles, .receive n c ready i l⟩ j := by
          intro all
          have one := all i working.2.2.1
          simp [settled, owed, stream] at one
        refine ⟨nofun, fun c' hc => ?_, iff_of_false nofun unfinished⟩
        obtain rfl : c = c' := Option.some.inj hc
        simpa [tally, owed] using equal
      next => simp at rest

/-- And so does a wrong one. -/
theorem not_sound_of_countsWrong {m : Manager ι} (rest : m.next = none) (wrong : m.CountsWrong) :
    ¬ m.Sound := by
  rintro ⟨noException, countedOnce, returned⟩
  rcases wrong with ⟨e, thrown⟩ | ⟨⟨nodup, working⟩, ahead⟩
  · exact noException e thrown
  obtain ⟨mNodes, node, handles, phase⟩ := m
  cases phase with
  | idle =>
    have all : settledCount (⟨mNodes, node, handles, .idle⟩ : Manager ι) = handles.length :=
      (settledCount_eq_length _).mpr (returned.mp rfl)
    simp only [tally] at ahead
    omega
  | threw e => exact working
  | sendEndBlocks temp l n => exact working
  | scan n c ready l =>
    cases l with
    | nil => simp [next] at rest
    | cons i l =>
      simp only [next] at rest
      split at rest <;> simp at rest
  | select n c ready =>
    have equal := countedOnce c rfl
    simp only [tally] at ahead
    omega
  | receive n c ready i l =>
    have equal := countedOnce c rfl
    simp only [next] at rest
    split at rest
    next => simp at rest
    next owed =>
      simp only [tally, owed] at ahead
      simp at ahead
      omega

/-- How many loop tests can still follow one another. -/
def testsLeft (m : Manager ι) : Nat :=
  match m.phase with
  | .idle | .threw _ => 0
  | .select _ _ _ => 1
  | .sendEndBlocks _ l _ => l.length + 2
  | .scan _ _ _ l => 2 * l.length + 2
  | .receive _ _ _ _ l => 2 * l.length + 3

theorem next_testsLeft {m t : Manager ι} (stepped : m.next = some t) :
    t.testsLeft < m.testsLeft := by
  obtain ⟨mNodes, node, handles, phase⟩ := m
  cases phase with
  | idle => simp [next] at stepped
  | threw e => simp [next] at stepped
  | select n c ready =>
    simp only [next] at stepped
    split at stepped
    next => obtain rfl := Option.some.inj stepped; simp [testsLeft]
    next => simp at stepped
  | sendEndBlocks temp l n =>
    cases l <;> simp only [next] at stepped <;> split at stepped <;>
      first
      | (obtain rfl := Option.some.inj stepped; simp [testsLeft])
      | simp at stepped
  | scan n c ready l =>
    cases l with
    | nil => obtain rfl := Option.some.inj stepped; simp [testsLeft]
    | cons i l =>
      simp only [next] at stepped
      split at stepped <;> obtain rfl := Option.some.inj stepped <;>
        simp only [testsLeft, List.length_cons] <;> omega
  | receive n c ready i l =>
    simp only [next] at stepped
    split at stepped
    next => obtain rfl := Option.some.inj stepped; simp [testsLeft]
    next =>
      split at stepped
      next => simp at stepped
      next => obtain rfl := Option.some.inj stepped; simp [testsLeft]

/-- The loop tests come to an end: after finitely many of them the manager waits
for input, has returned or has thrown. -/
theorem next_ends (m : Manager ι) : ∃ k u,
    run updateAllNodesStep m (List.replicate k (.next : Event ι α)) = some u ∧ u.next = none := by
  induction left : m.testsLeft using Nat.strongRecOn generalizing m with
  | _ n ih =>
    cases stepped : m.next with
    | none => exact ⟨0, m, rfl, stepped⟩
    | some t =>
      obtain ⟨k, u, reached, rest⟩ := ih t.testsLeft (left ▸ next_testsLeft stepped) t rfl
      refine ⟨k + 1, u, run_cons_eq_some.mpr ⟨t, stepped, reached⟩, rest⟩

/-! ### The result -/

/-- `updateAllNodes` always comes to rest, and at rest it is as it should be
exactly when `select` never threw, no read of a header failed, and the loop never
came back to a node that it had shut down. -/
theorem updateAllNodes_sound_iff (nodes : List ι) (nodup : nodes.Nodup)
    (evs : List (Event ι α)) (m : Manager ι)
    (reached : run updateAllNodesStep (enterUpdateAllNodes nodes) evs = some m) :
    (∃ k u, run updateAllNodesStep m (List.replicate k (.next : Event ι α)) = some u ∧
      u.next = none) ∧
    (m.next = none →
      (m.Sound ↔ Meets updateAllNodesStep Allowed (enterUpdateAllNodes nodes) evs)) := by
  refine ⟨next_ends m, fun rest => ?_⟩
  rw [← countsRight_iff_meets nodes nodup evs reached]
  constructor
  · intro sound
    rcases right_or_wrong nodes nodup evs reached with right | wrong
    · exact right
    · exact absurd sound (not_sound_of_countsWrong rest wrong)
  · exact sound_of_countsRight rest

/-- One node whose end block arrives after a timeout. -/
def oneEndBlock : List (Event Nat Unit) :=
  [.select .timeout, .next, .select (.readable [0]), .next, .recv (.packet (.endBlock 0)), .next,
    .next, .next]

theorem updateAllNodes_one_end_block :
    ∃ m : Manager Nat, run updateAllNodesStep (enterUpdateAllNodes [0]) oneEndBlock = some m ∧
      m.phase = .idle ∧
      (m.Sound ↔ Meets updateAllNodesStep Allowed (enterUpdateAllNodes [0]) oneEndBlock) := by
  have ends : (run updateAllNodesStep (enterUpdateAllNodes [0]) oneEndBlock).map Manager.phase =
      some .idle := by decide
  obtain ⟨m, reached, idle⟩ := Option.map_eq_some_iff.mp ends
  have result := updateAllNodes_sound_iff [0] (by decide) oneEndBlock m reached
  exact ⟨m, reached, idle, result.2 (by simp [next, idle])⟩

/-- The stream of the only node is closed while its header is read: the exception
escapes, although every node has failed. -/
theorem updateAllNodes_header_failure :
    ∃ m : Manager Nat,
      run updateAllNodesStep (enterUpdateAllNodes [0])
        ([.select (.readable [0]), .next, .recv .headerFails] : List (Event Nat Unit)) = some m ∧
      m.next = none ∧ m.phase = .threw .io ∧ ¬ m.Sound := by
  refine ⟨_, rfl, rfl, rfl, fun sound => ?_⟩
  exact sound.noException .io rfl

end VRJuggler.Gadget.Manager
