import VRJuggler.Base.Segment
import VRJuggler.Gadget.Cluster

/-!
# Lock-step of the cluster

For every connection the stream of packets is cut into frames by the end blocks.
Each node has sent as many end blocks on a connection as it has completed
updates, or one more; and it has handled as many end blocks of a neighbour as it
has completed updates, or one more while it collects. With the order of the
streams this fixes in which update every packet is handled.
-/
namespace VRJuggler.Gadget

namespace Manager

variable {ι α : Type}

/-! ### Steps of a manager while nothing fails -/

/-- How many end blocks of `j` were handled in the update that is under way. -/
def gathered (m : Manager ι) (j : ι) : Nat :=
  match m.phase with
  | .select _ _ _ | .scan _ _ _ _ | .receive _ _ _ _ _ => if (m.node j).updated then 1 else 0
  | .idle | .sendEndBlocks _ _ _ | .threw _ => 0

/-- How many end blocks were sent to `j` in the update that is under way. -/
def announced [DecidableEq ι] (m : Manager ι) (j : ι) : Nat :=
  match m.phase with
  | .idle | .threw _ => 0
  | .sendEndBlocks _ rest _ => if j ∈ rest then 0 else 1
  | .select _ _ _ | .scan _ _ _ _ | .receive _ _ _ _ _ => 1

/-- The manager has its connections, and the counters of `update` are right. -/
structure Steady (nodes : List ι) (m : Manager ι) : Prop where
  peers : m.mNodes = nodes
  registered : m.handles = nodes
  alive : ∀ j, (m.node j).isConnected ∧ (m.node j).sockStream
  counts : match m.phase with
    | .idle => True
    | .sendEndBlocks _ rest n =>
      rest <:+ nodes ∧ n + rest.length = nodes.length ∧ ∀ j ∈ nodes, (m.node j).updated = false
    | .select _ _ _ | .scan _ _ _ _ | .receive _ _ _ _ _ | .threw _ => m.CountsRight

variable [DecidableEq ι] {nodes : List ι} {m t : Manager ι}

theorem announced_of_idle (idle : m.phase = .idle) (j : ι) : m.announced j = 0 := by
  rw [announced, idle]

theorem announced_le_one (m : Manager ι) (j : ι) : m.announced j ≤ 1 := by
  rw [announced]
  split
  · exact Nat.zero_le _
  · exact Nat.zero_le _
  · split
    · exact Nat.zero_le _
    · exact Nat.le_refl _
  all_goals exact Nat.le_refl _

theorem Steady.update (steady : m.Steady nodes) (temp : Nat)
    (stepped : m.step (.update temp : Event ι α) = some t) :
    t.Steady nodes ∧ ∀ j ∈ nodes, t.gathered j = m.gathered j ∧ t.announced j = m.announced j := by
  obtain ⟨mNodes, node, handles, phase⟩ := m
  obtain ⟨rfl, registered, alive, counts⟩ := steady
  cases phase with
  | idle =>
    obtain rfl := Option.some.inj stepped
    refine ⟨⟨rfl, registered, fun j => ?_, ⟨List.suffix_rfl, Nat.zero_add _, fun j member => ?_⟩⟩,
      fun j member => ⟨rfl, ?_⟩⟩
    · simp only [setAllUpdated]
      split <;> simpa using alive j
    · simp [setAllUpdated, member]
    · simp [announced, member]
  | _ => simp [step] at stepped

theorem Steady.sendEndBlock (nodup : nodes.Nodup) (steady : m.Steady nodes) {temp n : Nat} {i : ι}
    {rest : List ι} (sending : m.phase = .sendEndBlocks temp (i :: rest) n)
    (stepped : m.step (.sendEndBlock true : Event ι α) = some t) :
    t.Steady nodes ∧ i ∈ nodes ∧ ∀ j ∈ nodes, t.gathered j = m.gathered j ∧
      t.announced j = m.announced j + if j = i then 1 else 0 := by
  obtain ⟨mNodes, node, handles, phase⟩ := m
  obtain rfl : phase = _ := sending
  obtain ⟨rfl, registered, alive, ⟨suffix, total, owed⟩⟩ := steady
  simp only [step, (alive i).1, if_true] at stepped
  obtain rfl := Option.some.inj stepped
  have fresh : i ∉ rest := (List.nodup_cons.mp (nodup.sublist suffix.sublist)).1
  refine ⟨⟨rfl, registered, alive, ⟨(List.suffix_cons i rest).trans suffix, ?_, owed⟩⟩,
    suffix.subset (List.mem_cons_self ..), fun j _ => ⟨rfl, ?_⟩⟩
  · rw [List.length_cons] at total
    omega
  · by_cases same : j = i
    · subst same
      simp [announced, fresh]
    · simp [announced, same]

theorem Steady.select (steady : m.Steady nodes) (answer : Poll ι) (answers : answer ≠ .fails)
    (stepped : m.step (.select answer : Event ι α) = some t) :
    t.Steady nodes ∧ ∀ j ∈ nodes, t.gathered j = m.gathered j ∧ t.announced j = m.announced j := by
  obtain ⟨mNodes, node, handles, phase⟩ := m
  obtain ⟨rfl, registered, alive, counts⟩ := steady
  cases phase with
  | select n c ready =>
    have right : t.CountsRight :=
      countsRight_step counts (.select answer : Event ι α) answers stepped
    simp only [step] at stepped
    split at stepped
    next => simp at stepped
    next =>
      cases answer with
      | timeout =>
        obtain rfl := Option.some.inj stepped
        exact ⟨⟨rfl, registered, alive, right⟩, fun _ _ => ⟨rfl, rfl⟩⟩
      | readable mask =>
        obtain rfl := Option.some.inj stepped
        exact ⟨⟨rfl, registered, alive, right⟩, fun _ _ => ⟨rfl, rfl⟩⟩
      | fails => exact absurd rfl answers
  | _ => simp [step] at stepped

theorem Steady.recv (steady : m.Steady nodes) {n c : Nat} {ready rest : List ι} {i : ι}
    (receiving : m.phase = .receive n c ready i rest) (p : Packet α)
    (stepped : m.step (.recv (.packet p)) = some t) :
    t.Steady nodes ∧ i ∈ nodes ∧ m.gathered i = 0 ∧ ∀ j ∈ nodes, t.announced j = m.announced j ∧
      t.gathered j = m.gathered j + if j = i ∧ p.isEndBlock then 1 else 0 := by
  obtain ⟨mNodes, node, handles, phase⟩ := m
  obtain rfl : phase = _ := receiving
  obtain ⟨rfl, registered, alive, counts⟩ := steady
  have right : t.CountsRight := countsRight_step counts (.recv (.packet p)) nofun stepped
  have member : i ∈ handles := counts.1.2.2.2.1
  have stream : (node i).sockStream = true := (alive i).2
  cases owed : (node i).updated with
  | true => simp [step, owed] at stepped
  | false =>
    simp only [step, owed, stream, recvPacket, Bool.not_true, Bool.or_self, Bool.false_eq_true,
      if_false, if_true] at stepped
    obtain rfl := Option.some.inj stepped
    obtain rfl : handles = mNodes := registered
    cases p with
    | other body =>
      exact ⟨⟨rfl, rfl, alive, right⟩, member, by simp [gathered, owed],
        fun j _ => ⟨rfl, by simp [Packet.isEndBlock, handlePacket]⟩⟩
    | endBlock frameNum =>
      refine ⟨⟨rfl, rfl, fun j => ?_, right⟩, member, by simp [gathered, owed],
        fun j _ => ⟨rfl, ?_⟩⟩
      · by_cases same : j = i
        · subst same
          simpa [handlePacket, Packet.isEndBlock] using alive j
        · simpa [handlePacket, Packet.isEndBlock, setNode_node_of_ne _ _ same] using alive j
      · by_cases same : j = i
        · subst same
          simp [gathered, handlePacket, Packet.isEndBlock, setNode, owed]
        · simp [gathered, handlePacket, Packet.isEndBlock, setNode, same]

omit [DecidableEq ι] in
/-- All peers are updated when the counter has reached the number of nodes. -/
theorem Steady.updated_of_finished (steady : m.Steady nodes) {n : Nat} {ready : List ι}
    (finished : m.phase = .select n n ready) : ∀ j ∈ nodes, (m.node j).updated := by
  obtain ⟨mNodes, node, handles, phase⟩ := m
  obtain rfl : phase = _ := finished
  obtain ⟨rfl, registered, alive, ⟨working, equal⟩⟩ := steady
  dsimp only at registered alive
  subst registered
  have all := (settledCount_eq_length _).mp (equal.symm.trans working.2.1)
  intro j member
  have one := all j member
  simpa [settled, (alive j).2] using one

omit [DecidableEq ι] in
/-- A steady manager never comes back to a node without a stream. -/
theorem Steady.allowed_next (steady : m.Steady nodes) : m.Allowed (.next : Event ι Unit) :=
  fun _ _ _ i _ _ => Or.inr (steady.alive i).2

theorem Steady.next (nodup : nodes.Nodup) (steady : m.Steady nodes) (stepped : m.next = some t) :
    t.Steady nodes ∧
    (t.phase = .idle → ∀ j ∈ nodes, m.gathered j = 1 ∧ t.gathered j = 0 ∧
      m.announced j = 1 ∧ t.announced j = 0) ∧
    (t.phase ≠ .idle → ∀ j ∈ nodes, t.gathered j = m.gathered j ∧
      t.announced j = m.announced j) := by
  have before := steady
  obtain ⟨mNodes, node, handles, phase⟩ := m
  obtain ⟨rfl, registered, alive, counts⟩ := steady
  -- only going back to idle ends a round, and then everything was gathered
  cases phase with
  | idle => simp [Manager.next] at stepped
  | threw e => simp [Manager.next] at stepped
  | sendEndBlocks temp rest n =>
    obtain ⟨suffix, total, owed⟩ := counts
    dsimp only at alive total owed nodup
    cases rest with
    | cons i rest => simp [Manager.next, (alive i).1] at stepped
    | nil =>
      have streams : mNodes.all (fun i => (node i).sockStream) := by simp [fun i => (alive i).2]
      simp only [Manager.next, streams, if_true] at stepped
      obtain rfl := Option.some.inj stepped
      obtain rfl : handles = mNodes := registered
      refine ⟨⟨rfl, rfl, alive, ⟨nodup, by simpa using total, by simp⟩, ?_⟩, by simp,
        fun _ j member => ⟨by simp [gathered, owed j member], by simp [announced]⟩⟩
      symm
      apply List.countP_eq_zero.mpr
      intro j member
      simp [settled, owed j member, (alive j).2]
  | select n c ready =>
    have right : t.CountsRight :=
      countsRight_step counts (.next : Event ι Unit) before.allowed_next stepped
    simp only [Manager.next] at stepped
    split at stepped
    next finished =>
      subst finished
      obtain rfl := Option.some.inj stepped
      have all : ∀ j ∈ mNodes, (node j).updated := before.updated_of_finished rfl
      exact ⟨⟨rfl, registered, alive, trivial⟩,
        fun _ j member => ⟨by simp [gathered, all j member], rfl, rfl, rfl⟩,
        fun busy => absurd rfl busy⟩
    next => simp at stepped
  | scan n c ready rest =>
    have right : t.CountsRight :=
      countsRight_step counts (.next : Event ι Unit) before.allowed_next stepped
    cases rest with
    | nil =>
      obtain rfl := Option.some.inj stepped
      exact ⟨⟨rfl, registered, alive, right⟩, by simp, fun _ _ _ => ⟨rfl, rfl⟩⟩
    | cons i rest =>
      simp only [Manager.next] at stepped
      split at stepped
      all_goals
        obtain rfl := Option.some.inj stepped
        exact ⟨⟨rfl, registered, alive, right⟩, by simp, fun _ _ _ => ⟨rfl, rfl⟩⟩
  | receive n c ready i rest =>
    have right : t.CountsRight :=
      countsRight_step counts (.next : Event ι Unit) before.allowed_next stepped
    simp only [Manager.next] at stepped
    split at stepped
    next =>
      obtain rfl := Option.some.inj stepped
      exact ⟨⟨rfl, registered, alive, right⟩, by simp, fun _ _ _ => ⟨rfl, rfl⟩⟩
    next =>
      split at stepped
      next => simp at stepped
      next gone => exact absurd (alive i).2 gone

end Manager

namespace Cluster

variable {ι α : Type} [DecidableEq ι]

/-! ### The invariant -/

/-- The state of the cluster between two steps, by node and neighbour. -/
structure LockStep (neighbours : ι → List ι) (c : Cluster ι α) : Prop where
  steady : ∀ i, (c.manager i).Steady (neighbours i)
  fifo : ∀ i j, c.sent j i = (c.handled i j).map Prod.snd ++ c.link j i
  booked : ∀ i j, WellBooked Packet.isEndBlock (c.handled i j)
  handledEnds : ∀ i, ∀ j ∈ neighbours i,
    closed Packet.isEndBlock ((c.handled i j).map Prod.snd) =
      c.updates i + (c.manager i).gathered j
  sentEnds : ∀ i, ∀ j ∈ neighbours i,
    closed Packet.isEndBlock (c.sent i j) = c.updates i + (c.manager i).announced j

variable {neighbours : ι → List ι} {c : Cluster ι α}

theorem lockStep_start : LockStep neighbours (start neighbours : Cluster ι α) where
  steady := fun _ => ⟨rfl, rfl, fun _ => ⟨rfl, rfl⟩, trivial⟩
  fifo := fun _ _ => rfl
  booked := fun _ _ => wellBooked_nil _
  handledEnds := fun _ _ _ => rfl
  sentEnds := fun _ _ _ => rfl

/-- A step of one manager that neither sends nor handles an end block. -/
theorem LockStep.setManager (inv : LockStep neighbours c) (i : ι) {m : Manager ι}
    (steady : m.Steady (neighbours i))
    (same : ∀ j ∈ neighbours i, m.gathered j = (c.manager i).gathered j ∧
      m.announced j = (c.manager i).announced j) :
    LockStep neighbours (c.setManager i m) where
  steady := fun a => by
    by_cases acting : a = i
    · subst acting
      rwa [setManager_self]
    · rw [setManager_of_ne c m acting]
      exact inv.steady a
  fifo := inv.fifo
  booked := inv.booked
  handledEnds := fun a j member => by
    by_cases acting : a = i
    · subst acting
      rw [setManager_self, (same j member).1]
      exact inv.handledEnds a j member
    · rw [setManager_of_ne c m acting]
      exact inv.handledEnds a j member
  sentEnds := fun a j member => by
    by_cases acting : a = i
    · subst acting
      rw [setManager_self, (same j member).2]
      exact inv.sentEnds a j member
    · rw [setManager_of_ne c m acting]
      exact inv.sentEnds a j member

/-- One packet more was sent on the connection from `i` to `j`. -/
theorem LockStep.put (inv : LockStep neighbours c) (i j : ι) (p : Packet α) {m : Manager ι}
    (steady : m.Steady (neighbours i))
    (gathered : ∀ b ∈ neighbours i, m.gathered b = (c.manager i).gathered b)
    (announced : ∀ b ∈ neighbours i, m.announced b =
      (c.manager i).announced b + if b = j ∧ p.isEndBlock then 1 else 0) :
    LockStep neighbours ((c.setManager i m).put i j p) where
  steady := fun a => by
    by_cases acting : a = i
    · subst acting
      simpa [Cluster.put] using steady
    · simpa [Cluster.put, setManager_of_ne c m acting] using inv.steady a
  fifo := fun a b => by
    simp only [Cluster.put, setManager_sent, setManager_link, setManager_handled, inv.fifo a b]
    split
    next => rw [List.append_assoc]
    next => rfl
  booked := inv.booked
  handledEnds := fun a b member => by
    by_cases acting : a = i
    · subst acting
      simpa [Cluster.put, gathered b member] using inv.handledEnds a b member
    · simpa [Cluster.put, setManager_of_ne c m acting] using inv.handledEnds a b member
  sentEnds := fun a b member => by
    have before := inv.sentEnds a b member
    by_cases acting : a = i
    · subst acting
      simp only [Cluster.put, setManager_self, setManager_sent, setManager_updates,
        announced b member]
      by_cases here : b = j
      · subst here
        simp only [and_self, true_and, if_true, closed_append, closed_singleton, before]
        omega
      · simpa [here] using before
    · simpa [Cluster.put, setManager_of_ne c m acting, acting] using before

/-- Node `i` handles the packet at the head of the stream from `j`. -/
theorem LockStep.take (inv : LockStep neighbours c) (i j : ι) (p : Packet α)
    {rest : List (Packet α)} (arrived : c.link j i = p :: rest) {m : Manager ι}
    (member : j ∈ neighbours i) (steady : m.Steady (neighbours i))
    (open_ : (c.manager i).gathered j = 0)
    (announced : ∀ b ∈ neighbours i, m.announced b = (c.manager i).announced b)
    (gathered : ∀ b ∈ neighbours i, m.gathered b =
      (c.manager i).gathered b + if b = j ∧ p.isEndBlock then 1 else 0) :
    LockStep neighbours ((c.setManager i m).take i j p rest) where
  steady := fun a => by
    by_cases acting : a = i
    · subst acting
      simpa [Cluster.take] using steady
    · simpa [Cluster.take, setManager_of_ne c m acting] using inv.steady a
  fifo := fun a b => by
    simp only [Cluster.take, setManager_sent, setManager_link, setManager_handled, inv.fifo a b]
    by_cases here : a = i ∧ b = j
    · obtain ⟨rfl, rfl⟩ := here
      simp [arrived]
    · rw [if_neg here, if_neg fun swapped => here swapped.symm]
  booked := fun a b => by
    simp only [Cluster.take, setManager_handled, setManager_updates]
    split
    next here =>
      obtain ⟨rfl, rfl⟩ := here
      apply (inv.booked a b).snoc
      rw [inv.handledEnds a b member, open_, Nat.add_zero]
    next => exact inv.booked a b
  handledEnds := fun a b neighbour => by
    have before := inv.handledEnds a b neighbour
    by_cases acting : a = i
    · subst acting
      simp only [Cluster.take, setManager_self, setManager_handled, setManager_updates,
        gathered b neighbour]
      by_cases here : b = j
      · subst here
        simp only [and_self, true_and, if_true, List.map_append, List.map_cons, List.map_nil,
          closed_append, closed_singleton, before]
        omega
      · simpa [here] using before
    · simpa [Cluster.take, setManager_of_ne c m acting, acting] using before
  sentEnds := fun a b neighbour => by
    by_cases acting : a = i
    · subst acting
      simpa [Cluster.take, announced b neighbour] using inv.sentEnds a b neighbour
    · simpa [Cluster.take, setManager_of_ne c m acting] using inv.sentEnds a b neighbour

/-- Node `i` returns from `update`. -/
theorem LockStep.complete (inv : LockStep neighbours c) (i : ι) {m : Manager ι}
    (steady : m.Steady (neighbours i))
    (counts : ∀ j ∈ neighbours i, (c.manager i).gathered j = 1 ∧ m.gathered j = 0 ∧
      (c.manager i).announced j = 1 ∧ m.announced j = 0) :
    LockStep neighbours { c.setManager i m with
      updates := Function.update c.updates i (c.updates i + 1) } where
  steady := fun a => by
    by_cases acting : a = i
    · subst acting
      simpa using steady
    · simpa [setManager_of_ne c m acting] using inv.steady a
  fifo := inv.fifo
  booked := inv.booked
  handledEnds := fun a b member => by
    have before := inv.handledEnds a b member
    by_cases acting : a = i
    · subst acting
      simpa [(counts b member).1, (counts b member).2.1] using before
    · simpa [setManager_of_ne c m acting, acting] using before
  sentEnds := fun a b member => by
    have before := inv.sentEnds a b member
    by_cases acting : a = i
    · subst acting
      simpa [(counts b member).2.2.1, (counts b member).2.2.2] using before
    · simpa [setManager_of_ne c m acting, acting] using before

/-! ### Steps and runs -/

theorem lockStep_step (nodup : ∀ i, (neighbours i).Nodup) (inv : LockStep neighbours c)
    (act : Act ι α) {d : Cluster ι α} (stepped : c.step act = some d) : LockStep neighbours d := by
  cases act with
  | send i j body =>
    obtain ⟨-, rfl⟩ := step_send stepped
    have unchanged : c = c.setManager i (c.manager i) := by simp [Cluster.setManager]
    rw [unchanged]
    exact inv.put i j (.other body) (inv.steady i) (fun _ _ => rfl)
      fun _ _ => by simp [Packet.isEndBlock]
  | update i temp =>
    obtain ⟨m, moved, rfl⟩ := step_update stepped
    obtain ⟨steady, same⟩ := (inv.steady i).update temp moved
    exact inv.setManager i steady same
  | sendEndBlock i =>
    obtain ⟨temp, j, rest, n, m, sending, moved, rfl⟩ := step_sendEndBlock stepped
    obtain ⟨steady, member, change⟩ := (inv.steady i).sendEndBlock (nodup i) sending moved
    exact inv.put i j (.endBlock temp) steady (fun b hb => (change b hb).1)
      fun b hb => by simpa [Packet.isEndBlock] using (change b hb).2
  | select i answer =>
    obtain ⟨answers, m, moved, rfl⟩ := step_select stepped
    obtain ⟨steady, same⟩ := (inv.steady i).select answer answers moved
    exact inv.setManager i steady same
  | recv i =>
    obtain ⟨n, done, ready, j, rest, p, tail, m, receiving, arrived, moved, rfl⟩ :=
      step_recv stepped
    obtain ⟨steady, member, open_, change⟩ := (inv.steady i).recv receiving p moved
    exact inv.take i j p arrived member steady open_ (fun b hb => (change b hb).1)
      fun b hb => (change b hb).2
  | next i =>
    obtain ⟨m, moved, ⟨idle, rfl⟩ | ⟨busy, rfl⟩⟩ := step_next stepped
    · obtain ⟨steady, completes, -⟩ := (inv.steady i).next (nodup i) moved
      exact inv.complete i steady (completes idle)
    · obtain ⟨steady, -, goesOn⟩ := (inv.steady i).next (nodup i) moved
      exact inv.setManager i steady (goesOn busy)

theorem lockStep_run (nodup : ∀ i, (neighbours i).Nodup) (acts : List (Act ι α))
    (reached : run step (start neighbours) acts = some c) : LockStep neighbours c :=
  run_invariant (LockStep neighbours)
    (fun _ act _ inv stepped => lockStep_step nodup inv act stepped) lockStep_start reached

/-! ### The result -/

/-- What a node `i` and its neighbour `j` have done up to now fits together. -/
structure InStep (c : Cluster ι α) (i j : ι) : Prop where
  /-- The `k`-th update returned after the `k`-th end block was sent. -/
  returnsAfter : c.updates i ≤ closed Packet.isEndBlock (c.sent j i)
  /-- A completed update has handled its frame, no more and no less. -/
  frame : ∀ k < c.updates i,
    booked (c.handled i j) k = segment Packet.isEndBlock k (c.sent j i)
  /-- The update under way has handled the first packets of its frame. -/
  current : ∀ k, booked (c.handled i j) k <+: segment Packet.isEndBlock k (c.sent j i)
  /-- Everything is handled in the order in which it was sent. -/
  order : (c.handled i j).map Prod.snd <+: c.sent j i
  ahead : c.updates i ≤ c.updates j + 1

theorem LockStep.inStep (inv : LockStep neighbours c) {i j : ι} (forward : j ∈ neighbours i)
    (backward : i ∈ neighbours j) : c.InStep i j := by
  have handled := inv.handledEnds i j forward
  have sent : closed Packet.isEndBlock (c.sent j i) = c.updates j + (c.manager j).announced i :=
    inv.sentEnds j i backward
  have split : c.sent j i = (c.handled i j).map Prod.snd ++ c.link j i := inv.fifo i j
  have counted : closed Packet.isEndBlock ((c.handled i j).map Prod.snd) ≤
      closed Packet.isEndBlock (c.sent j i) := by
    rw [split, closed_append]
    exact Nat.le_add_right _ _
  have atMostOne := (c.manager j).announced_le_one i
  refine ⟨by omega, fun k done => ?_, fun k => ?_, ?_, by omega⟩
  · rw [inv.booked i j k, split, segment_append _ _ _ _ (by omega)]
  · rw [inv.booked i j k, split]
    exact segment_prefix _ _ _ _
  · rw [split]
    exact List.prefix_append _ _

end Cluster

open Cluster

/-- In a star cluster all connections stay in step, and the master and a slave
are never more than one update apart. -/
theorem star_inStep {α : Type} (n : Nat) (acts : List (Act (Host n) α)) (c : Cluster (Host n) α)
    (reached : run step (start starNeighbours) acts = some c) :
    (∀ i, ∀ j ∈ starNeighbours i, c.InStep i j) ∧
    ∀ k, c.updates .master ≤ c.updates (.slave k) + 1 ∧
      c.updates (.slave k) ≤ c.updates .master + 1 := by
  have inv := lockStep_run starNeighbours_nodup acts reached
  have inStep : ∀ i, ∀ j ∈ starNeighbours i, c.InStep i j :=
    fun i j adjacent => inv.inStep adjacent (starNeighbours_symm adjacent)
  refine ⟨inStep, fun k => ⟨?_, ?_⟩⟩
  · exact (inStep .master (.slave k) (List.mem_map.mpr ⟨k, List.mem_finRange k, rfl⟩)).ahead
  · exact (inStep (.slave k) .master (List.mem_singleton.mpr rfl)).ahead

/-- The first update of the master in a cluster with one slave. -/
def firstUpdate : List (Act (Host 1) Nat) :=
  [.send (.slave 0) .master 7, .update .master 0, .sendEndBlock .master, .next .master,
    .update (.slave 0) 0, .sendEndBlock (.slave 0), .select .master (.readable [.slave 0]),
    .next .master, .recv .master, .recv .master, .next .master, .next .master, .next .master]

theorem star_first_update :
    ∃ c, run step (start starNeighbours) firstUpdate = some c ∧
      c.updates .master = 1 ∧ c.handled .master (.slave 0) = [(0, .other 7), (0, .endBlock 0)] ∧
      (∀ i, ∀ j ∈ starNeighbours i, c.InStep i j) ∧
      ∀ k, c.updates .master ≤ c.updates (.slave k) + 1 ∧
        c.updates (.slave k) ≤ c.updates .master + 1 := by
  have ends : (run step (start starNeighbours) firstUpdate).map
      (fun c => (c.updates .master, c.handled .master (.slave 0))) =
      some (1, [(0, .other 7), (0, .endBlock 0)]) := by decide
  obtain ⟨c, reached, final⟩ := Option.map_eq_some_iff.mp ends
  exact ⟨c, reached, congrArg Prod.fst final, congrArg Prod.snd final,
    star_inStep 1 firstUpdate c reached⟩

end VRJuggler.Gadget
