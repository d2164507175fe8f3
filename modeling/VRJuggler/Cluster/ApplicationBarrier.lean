import VRJuggler.Base.Lists
import VRJuggler.Gadget.Cluster

/-!
# The application barrier

`cluster::ApplicationBarrier` on every node of a cluster, over reliable first-in
first-out connections. A node that calls `wait` announces itself to the nodes it
is connected to, and goes on when its counter equals the number of these. The
counter is raised by the thread that receives, without the lock of the condition
variable, and put back to zero when the node leaves the barrier.
-/
namespace VRJuggler.ApplicationBarrier

/-- Where the thread is that calls `wait`: outside, sending to the peers that
are left, about to test the counter (with the lock held), asleep on the condition
variable, or past the test and about to reset the counter (with the lock held). -/
inductive Wait (ι : Type) where
  | outside
  | sendWait (rest : List ι)
  | test
  | asleep
  | reset
  deriving DecidableEq, Repr

/-- One node's barrier object. `signalling` is set while the receiving thread
is between its own test of the counter and the signal. -/
structure Barrier (ι : Type) where
  mTotalNodes : Nat
  mNodesWaiting : Nat
  wait : Wait ι
  signalling : Bool
  deriving Repr

/-- The lock of `mWaitCond` is held by the waiting thread. -/
def Barrier.locked {ι : Type} (b : Barrier ι) : Bool :=
  match b.wait with
  | .test | .reset => true
  | .outside | .sendWait _ | .asleep => false

/-- The barriers of all nodes. An arrival carries nothing in the code; here it is
represented by its round, the number of the call of `wait` that sent it. `link i j`
holds the arrivals in flight from `i` to `j`, `arrived i j` those of `j` that were
handled at `i`; `entered` and `returned` count the calls of `wait`. -/
structure State (ι : Type) where
  node : ι → Barrier ι
  link : ι → ι → List Nat
  arrived : ι → ι → List Nat
  entered : ι → Nat
  returned : ι → Nat

inductive Act (ι : Type) where
  | enter (i : ι)
  | sendWait (i : ι)
  | test (i : ι)
  | wake (i : ι)
  | reset (i : ι)
  | deliver (j i : ι)
  | signal (i : ι)
  deriving DecidableEq, Repr

variable {ι : Type} [DecidableEq ι]

/-- The constructor initialises neither counter. -/
def start (total waiting : ι → Nat) : State ι where
  node := fun i => ⟨total i, waiting i, .outside, false⟩
  link := fun _ _ => []
  arrived := fun _ _ => []
  entered := fun _ => 0
  returned := fun _ => 0

namespace State

def setNode (s : State ι) (i : ι) (b : Barrier ι) : State ι :=
  { s with node := Function.update s.node i b }

/-- Node `j` sends its arrival to `i`. -/
def put (s : State ι) (j i : ι) : State ι :=
  { s with link := fun a b => if a = j ∧ b = i then s.link a b ++ [s.entered j] else s.link a b }

/-- The first arrival in flight from `j` reaches `i`. -/
def take (s : State ι) (j i : ι) (round : Nat) (rest : List Nat) : State ι :=
  { s with
    link := fun a b => if a = j ∧ b = i then rest else s.link a b
    arrived := fun a b => if a = i ∧ b = j then s.arrived a b ++ [round] else s.arrived a b }

end State

@[simp] theorem setNode_self (s : State ι) (i : ι) (b : Barrier ι) : (s.setNode i b).node i = b :=
  Function.update_self _ _ _
theorem setNode_of_ne (s : State ι) {i j : ι} (b : Barrier ι) (other : j ≠ i) :
    (s.setNode i b).node j = s.node j := Function.update_of_ne other _ _
@[simp] theorem setNode_link (s : State ι) (i : ι) (b : Barrier ι) :
    (s.setNode i b).link = s.link := rfl
@[simp] theorem setNode_arrived (s : State ι) (i : ι) (b : Barrier ι) :
    (s.setNode i b).arrived = s.arrived := rfl
@[simp] theorem setNode_entered (s : State ι) (i : ι) (b : Barrier ι) :
    (s.setNode i b).entered = s.entered := rfl
@[simp] theorem setNode_returned (s : State ι) (i : ι) (b : Barrier ι) :
    (s.setNode i b).returned = s.returned := rfl

/-- `ApplicationBarrier::incWaitingNodes`, up to the signal. -/
def Barrier.incWaitingNodes (b : Barrier ι) : Barrier ι :=
  { b with
    mNodesWaiting := b.mNodesWaiting + 1
    signalling := b.mNodesWaiting + 1 == b.mTotalNodes }

/-- One step of one thread; `peers` are the nodes of the network manager. -/
def step (peers : ι → List ι) (s : State ι) : Act ι → Option (State ι)
  | .enter i =>
    match (s.node i).wait with
    | .outside =>
      some { s.setNode i { s.node i with
          mTotalNodes := (peers i).length, wait := .sendWait (peers i) } with
        entered := Function.update s.entered i (s.entered i + 1) }
    | _ => none
  | .sendWait i =>
    match (s.node i).wait with
    | .sendWait (j :: rest) =>
      some ((s.setNode i { s.node i with wait := .sendWait rest }).put i j)
    | .sendWait [] => some (s.setNode i { s.node i with wait := .test })
    | _ => none
  | .test i =>
    match (s.node i).wait with
    | .test =>
      if (s.node i).mNodesWaiting ≠ (s.node i).mTotalNodes then
        some (s.setNode i { s.node i with wait := .asleep })
      else some (s.setNode i { s.node i with wait := .reset })
    | _ => none
  | .wake i =>
    -- a condition variable may also wake up without a signal
    match (s.node i).wait with
    | .asleep => some (s.setNode i { s.node i with wait := .test })
    | _ => none
  | .reset i =>
    match (s.node i).wait with
    | .reset =>
      some { s.setNode i { s.node i with mNodesWaiting := 0, wait := .outside } with
        returned := Function.update s.returned i (s.returned i + 1) }
    | _ => none
  | .deliver j i =>
    match s.link j i with
    | [] => none
    | round :: rest =>
      if (s.node i).signalling then none
      else some ((s.setNode i (s.node i).incWaitingNodes).take j i round rest)
  | .signal i =>
    if (s.node i).signalling && !(s.node i).locked then
      match (s.node i).wait with
      | .asleep => some (s.setNode i { s.node i with wait := .test, signalling := false })
      | _ => some (s.setNode i { s.node i with signalling := false })
    else none

/-- The deliveries after which the barrier is still right: the receiver has left
the round before that of the arrival, and all nodes that do not announce
themselves to the receiver have entered the round. -/
def Allowed (peers : ι → List ι) (s : State ι) : Act ι → Prop
  | .deliver j i => ∀ round ∈ (s.link j i).head?,
      round ≤ s.returned i + 1 ∧ ∀ k, k ∉ peers i → k ≠ i → round ≤ s.entered k
  | .enter _ | .sendWait _ | .test _ | .wake _ | .reset _ | .signal _ => True

/-! ### The invariant -/

/-- The number of arrivals that `j` has sent to `i`. -/
def State.announced (s : State ι) (j i : ι) : Nat :=
  match (s.node j).wait with
  | .sendWait rest => if i ∈ rest then s.returned j else s.entered j
  | .outside | .test | .asleep | .reset => s.entered j

/-- The arrival of `j` for the round that `i` is in, or enters next, was counted. -/
def State.counted (s : State ι) (i j : ι) : Bool := (s.arrived i j).length == s.returned i + 1

/-- What holds between two steps of a run with allowed deliveries. -/
structure InRounds (peers : ι → List ι) (s : State ι) : Prop where
  rounds : ∀ i, s.entered i = s.returned i + if (s.node i).wait = .outside then 0 else 1
  sending : ∀ i rest, (s.node i).wait = .sendWait rest → rest <:+ peers i
  total : ∀ i, (s.node i).wait ≠ .outside → (s.node i).mTotalNodes = (peers i).length
  waiting : ∀ i, (s.node i).mNodesWaiting = (peers i).countP (s.counted i)
  full : ∀ i, (s.node i).wait = .reset → (s.node i).mNodesWaiting = (s.node i).mTotalNodes
  quiet : ∀ i j, j ∉ peers i → s.link j i = []
  order : ∀ i, ∀ j ∈ peers i, s.arrived i j ++ s.link j i = List.range' 1 (s.announced j i)
  present : ∀ i, ∀ j ∈ peers i,
    s.returned i ≤ (s.arrived i j).length ∧ (s.arrived i j).length ≤ s.returned i + 1
  others : ∀ i, ∀ j ∈ peers i, ∀ k, k ∉ peers i → k ≠ i → (s.arrived i j).length ≤ s.entered k

variable {peers : ι → List ι} {s : State ι}

theorem announced_of_wait (t s : State ι) (i : ι) {j : ι} (wait : (t.node j).wait = (s.node j).wait)
    (entered : t.entered j = s.entered j) (returned : t.returned j = s.returned j) :
    t.announced j i = s.announced j i := by
  simp only [State.announced, wait, entered, returned]

omit [DecidableEq ι] in
theorem InRounds.announced_le [DecidableEq ι] (inv : InRounds peers s) (j i : ι) :
    s.announced j i ≤ s.entered j := by
  have rounds := inv.rounds j
  unfold State.announced
  split
  · split <;> omega
  all_goals exact Nat.le_refl _

theorem inRounds_start (total : ι → Nat) : InRounds peers (start total fun _ => 0) where
  rounds := fun _ => rfl
  sending := nofun
  total := fun _ inside => absurd rfl inside
  waiting := fun i => by
    symm
    apply List.countP_eq_zero.mpr
    intro j _
    simp [State.counted, start]
  full := nofun
  quiet := fun _ _ _ => rfl
  order := fun _ _ _ => rfl
  present := fun _ _ _ => ⟨Nat.le_refl 0, Nat.zero_le 1⟩
  others := fun _ _ _ _ _ _ => Nat.zero_le _

/-! ### Steps -/

/-- A step of one thread that neither enters, nor sends, nor counts, nor leaves. -/
theorem InRounds.setNode (inv : InRounds peers s) (i : ι) {b : Barrier ι}
    (count : b.mNodesWaiting = (s.node i).mNodesWaiting)
    (total : b.mTotalNodes = (s.node i).mTotalNodes)
    (outside : b.wait = .outside ↔ (s.node i).wait = .outside)
    (sending : ∀ rest, b.wait = .sendWait rest → rest <:+ peers i)
    (full : b.wait = .reset → b.mNodesWaiting = b.mTotalNodes)
    (announced : ∀ k, (s.setNode i b).announced i k = s.announced i k) :
    InRounds peers (s.setNode i b) where
  rounds := fun a => by
    by_cases acting : a = i
    · subst acting
      simpa [outside] using inv.rounds a
    · simpa [setNode_of_ne s b acting] using inv.rounds a
  sending := fun a rest => by
    by_cases acting : a = i
    · subst acting
      simpa using sending rest
    · simpa [setNode_of_ne s b acting] using inv.sending a rest
  total := fun a inside => by
    by_cases acting : a = i
    · subst acting
      rw [setNode_self] at inside ⊢
      rw [total]
      exact inv.total a (fun out => inside (outside.mpr out))
    · rw [setNode_of_ne s b acting] at inside ⊢
      exact inv.total a inside
  waiting := fun a => by
    by_cases acting : a = i
    · subst acting
      rw [setNode_self, count]
      exact inv.waiting a
    · rw [setNode_of_ne s b acting]
      exact inv.waiting a
  full := fun a => by
    by_cases acting : a = i
    · subst acting
      simpa using full
    · simpa [setNode_of_ne s b acting] using inv.full a
  quiet := inv.quiet
  order := fun a j member => by
    by_cases acting : j = i
    · subst acting
      rw [announced]
      exact inv.order a j member
    · have same : (s.setNode i b).announced j a = s.announced j a :=
        announced_of_wait _ s a (by rw [setNode_of_ne s b acting]) rfl rfl
      rw [same]
      exact inv.order a j member
  present := inv.present
  others := inv.others

theorem InRounds.enter (symm : ∀ i j, j ∈ peers i → i ∈ peers j) (inv : InRounds peers s) (i : ι)
    (outside : (s.node i).wait = .outside) :
    InRounds peers { s.setNode i { s.node i with
        mTotalNodes := (peers i).length, wait := .sendWait (peers i) } with
      entered := Function.update s.entered i (s.entered i + 1) } where
  rounds := fun a => by
    by_cases acting : a = i
    · subst acting
      simpa [outside] using inv.rounds a
    · simpa [setNode_of_ne s _ acting, acting] using inv.rounds a
  sending := fun a rest => by
    by_cases acting : a = i
    · subst acting
      intro sends
      simp only [setNode_self, Wait.sendWait.injEq] at sends
      exact sends ▸ List.suffix_rfl
    · simpa [setNode_of_ne s _ acting] using inv.sending a rest
  total := fun a inside => by
    by_cases acting : a = i
    · subst acting
      simp
    · simp only [setNode_of_ne s _ acting] at inside ⊢
      exact inv.total a inside
  waiting := fun a => by
    by_cases acting : a = i
    · subst acting
      simp only [setNode_self]
      exact inv.waiting a
    · simp only [setNode_of_ne s _ acting]
      exact inv.waiting a
  full := fun a => by
    by_cases acting : a = i
    · subst acting
      simp
    · simpa [setNode_of_ne s _ acting] using inv.full a
  quiet := inv.quiet
  order := fun a j member => by
    refine (inv.order a j member).trans (congrArg (List.range' 1 ·) ?_)
    by_cases acting : j = i
    · subst acting
      have rounds := inv.rounds j
      simp only [outside, if_true, Nat.add_zero] at rounds
      simp [State.announced, outside, symm a j member, rounds]
    · symm
      exact announced_of_wait _ s a (by simp [setNode_of_ne s _ acting]) (by simp [acting]) rfl
  present := inv.present
  others := fun a j member k stranger other => by
    have before := inv.others a j member k stranger other
    by_cases acting : k = i
    · subst acting
      simpa using Nat.le_succ_of_le before
    · simpa [acting] using before

theorem InRounds.sendWait (nodup : ∀ i, (peers i).Nodup) (symm : ∀ i j, j ∈ peers i → i ∈ peers j)
    (inv : InRounds peers s) (i : ι) {k : ι} {rest : List ι}
    (sends : (s.node i).wait = .sendWait (k :: rest)) :
    InRounds peers ((s.setNode i { s.node i with wait := .sendWait rest }).put i k) where
  rounds := fun a => by
    by_cases acting : a = i
    · subst acting
      simpa [State.put, sends] using inv.rounds a
    · simpa [State.put, setNode_of_ne s _ acting] using inv.rounds a
  sending := fun a l => by
    by_cases acting : a = i
    · subst acting
      intro now
      simp only [State.put, setNode_self, Wait.sendWait.injEq] at now
      subst now
      exact (List.suffix_cons k rest).trans (inv.sending a _ sends)
    · simpa [State.put, setNode_of_ne s _ acting] using inv.sending a l
  total := fun a inside => by
    by_cases acting : a = i
    · subst acting
      simpa [State.put] using inv.total a (by simp [sends])
    · simp only [State.put, setNode_of_ne s _ acting] at inside ⊢
      exact inv.total a inside
  waiting := fun a => by
    by_cases acting : a = i
    · subst acting
      simp only [State.put, setNode_self]
      exact inv.waiting a
    · simp only [State.put, setNode_of_ne s _ acting]
      exact inv.waiting a
  full := fun a => by
    by_cases acting : a = i
    · subst acting
      simp [State.put]
    · simpa [State.put, setNode_of_ne s _ acting] using inv.full a
  quiet := fun a j stranger => by
    have peer : i ∈ peers k := symm i k ((inv.sending i _ sends).subset (List.mem_cons_self ..))
    have elsewhere : ¬ (j = i ∧ a = k) := by
      rintro ⟨rfl, rfl⟩
      exact stranger peer
    simpa [State.put, elsewhere] using inv.quiet a j stranger
  order := fun a j member => by
    have before := inv.order a j member
    by_cases acting : j = i
    · subst acting
      have suffix := inv.sending j _ sends
      have fresh : k ∉ rest := (List.nodup_cons.mp ((nodup j).sublist suffix.sublist)).1
      have rounds := inv.rounds j
      by_cases here : a = k
      · subst here
        simp only [sends, if_false, reduceCtorEq] at rounds
        simp only [State.announced, sends, List.mem_cons, true_or, if_true] at before
        simp only [State.put, State.announced, setNode_self, setNode_link, setNode_arrived,
          setNode_entered, fresh, and_self, if_true, if_false]
        rw [← List.append_assoc, before, rounds, List.range'_concat]
        simp [Nat.add_comm]
      · simpa [State.put, State.announced, here, sends] using before
    · simpa [State.put, State.announced, setNode_of_ne s _ acting, acting] using before
  present := inv.present
  others := inv.others

/-- A node that may leave has counted all its peers. -/
theorem InRounds.all_counted (inv : InRounds peers s) {i : ι} (leaves : (s.node i).wait = .reset) :
    ∀ j ∈ peers i, (s.arrived i j).length = s.returned i + 1 := by
  have all : (peers i).countP (s.counted i) = (peers i).length := by
    rw [← inv.waiting i, inv.full i leaves]
    exact inv.total i (by simp [leaves])
  intro j member
  simpa [State.counted] using List.countP_eq_length.mp all j member

theorem InRounds.reset (inv : InRounds peers s) (i : ι) (leaves : (s.node i).wait = .reset) :
    InRounds peers { s.setNode i { s.node i with mNodesWaiting := 0, wait := .outside } with
      returned := Function.update s.returned i (s.returned i + 1) } where
  rounds := fun a => by
    by_cases acting : a = i
    · subst acting
      simpa [leaves] using inv.rounds a
    · simpa [setNode_of_ne s _ acting, acting] using inv.rounds a
  sending := fun a rest => by
    by_cases acting : a = i
    · subst acting
      simp
    · simpa [setNode_of_ne s _ acting] using inv.sending a rest
  total := fun a inside => by
    by_cases acting : a = i
    · subst acting
      simp at inside
    · simp only [setNode_of_ne s _ acting] at inside ⊢
      exact inv.total a inside
  waiting := fun a => by
    by_cases acting : a = i
    · subst acting
      have all := inv.all_counted leaves
      simp only [setNode_self]
      symm
      apply List.countP_eq_zero.mpr
      intro j member
      simp [State.counted, all j member]
    · simp only [setNode_of_ne s _ acting]
      rw [inv.waiting a]
      congr 1
      funext j
      simp [State.counted, acting]
  full := fun a => by
    by_cases acting : a = i
    · subst acting
      simp
    · simpa [setNode_of_ne s _ acting] using inv.full a
  quiet := inv.quiet
  order := fun a j member => by
    refine (inv.order a j member).trans (congrArg (List.range' 1 ·) ?_)
    by_cases acting : j = i
    · subst acting
      simp [State.announced, leaves]
    · symm
      exact announced_of_wait _ s a (by simp [setNode_of_ne s _ acting]) rfl (by simp [acting])
  present := fun a j member => by
    by_cases acting : a = i
    · subst acting
      have all := inv.all_counted leaves j member
      simp [all]
    · simpa [acting] using inv.present a j member
  others := inv.others

/-- Arrivals come in the order of their rounds. -/
theorem round_eq_succ {before rest : List Nat} {round n : Nat}
    (order : before ++ round :: rest = List.range' 1 n) : round = before.length + 1 := by
  obtain ⟨k, -, rfl, tail⟩ := List.range'_eq_append_iff.mp order.symm
  rw [eq_comm, List.range'_eq_cons_iff] at tail
  rw [List.length_range']
  omega

/-- An arrival in flight is the next of a peer, and if it is in time the node has not left the
round. -/
theorem InRounds.of_flying (inv : InRounds peers s) {i j : ι} {round : Nat} {rest : List Nat}
    (flying : s.link j i = round :: rest) (inTime : round ≤ s.returned i + 1) :
    j ∈ peers i ∧ round = (s.arrived i j).length + 1 ∧ (s.arrived i j).length = s.returned i ∧
      (s.node i).wait ≠ .reset := by
  have member : j ∈ peers i := by
    by_contra stranger
    simp [inv.quiet i j stranger] at flying
  have order := inv.order i j member
  rw [flying] at order
  have isNext : round = (s.arrived i j).length + 1 := round_eq_succ order
  have present := inv.present i j member
  refine ⟨member, isNext, by omega, fun leaves => ?_⟩
  have all := inv.all_counted leaves j member
  omega

theorem InRounds.deliver (nodup : ∀ i, (peers i).Nodup) (inv : InRounds peers s) (i j : ι)
    {round : Nat} {rest : List Nat} (flying : s.link j i = round :: rest)
    (inTime : round ≤ s.returned i + 1)
    (entered : ∀ k, k ∉ peers i → k ≠ i → round ≤ s.entered k) :
    InRounds peers ((s.setNode i (s.node i).incWaitingNodes).take j i round rest) := by
  obtain ⟨member, isNext, now, waits⟩ := inv.of_flying flying inTime
  refine ⟨fun a => ?_, fun a l => ?_, fun a inside => ?_, fun a => ?_, fun a => ?_,
    fun a b stranger => ?_, fun a b peer => ?_, fun a b peer => ?_, fun a b peer k hk other => ?_⟩
  · -- rounds
    by_cases acting : a = i
    · subst acting
      simpa [State.take, Barrier.incWaitingNodes] using inv.rounds a
    · simpa [State.take, setNode_of_ne s _ acting] using inv.rounds a
  · -- sending
    by_cases acting : a = i
    · subst acting
      simpa [State.take, Barrier.incWaitingNodes] using inv.sending a l
    · simpa [State.take, setNode_of_ne s _ acting] using inv.sending a l
  · -- total
    by_cases acting : a = i
    · subst acting
      simp only [State.take, setNode_self, Barrier.incWaitingNodes] at inside ⊢
      exact inv.total a inside
    · simp only [State.take, setNode_of_ne s _ acting] at inside ⊢
      exact inv.total a inside
  · -- waiting
    by_cases acting : a = i
    · subst acting
      simp only [State.take, setNode_self, Barrier.incWaitingNodes, inv.waiting a]
      symm
      refine countP_eq_succ (nodup a) member ?_ ?_ fun b _ other => ?_
      · simp [State.counted, now]
      · simp [State.counted, now]
      · simp [State.counted, other]
    · simp only [State.take, setNode_of_ne s _ acting]
      rw [inv.waiting a]
      congr 1
      funext b
      simp [State.counted, acting]
  · -- full
    by_cases acting : a = i
    · subst acting
      simpa [State.take, Barrier.incWaitingNodes] using fun leaves => absurd leaves waits
    · simpa [State.take, setNode_of_ne s _ acting] using inv.full a
  · -- quiet
    have elsewhere : ¬ (b = j ∧ a = i) := by
      rintro ⟨rfl, rfl⟩
      exact stranger member
    simpa [State.take, elsewhere] using inv.quiet a b stranger
  · -- order
    have same : ((s.setNode i (s.node i).incWaitingNodes).take j i round rest).announced b a =
        s.announced b a := by
      refine announced_of_wait _ s a ?_ rfl rfl
      by_cases acting : b = i
      · subst acting
        simp [State.take, Barrier.incWaitingNodes]
      · simp [State.take, setNode_of_ne s _ acting]
    rw [same, ← inv.order a b peer]
    by_cases here : a = i ∧ b = j
    · obtain ⟨rfl, rfl⟩ := here
      simp [State.take, flying]
    · have elsewhere : ¬ (b = j ∧ a = i) := fun swapped => here swapped.symm
      simp [State.take, here, elsewhere]
  · -- present
    by_cases here : a = i ∧ b = j
    · obtain ⟨rfl, rfl⟩ := here
      simp [State.take, now]
    · simpa [State.take, here] using inv.present a b peer
  · -- others
    by_cases here : a = i ∧ b = j
    · obtain ⟨rfl, rfl⟩ := here
      simpa [State.take, ← isNext] using entered k hk other
    · simpa [State.take, here] using inv.others a b peer k hk other

theorem inRounds_step (nodup : ∀ i, (peers i).Nodup) (symm : ∀ i j, j ∈ peers i → i ∈ peers j)
    (inv : InRounds peers s) (act : Act ι) (allowed : Allowed peers s act) {t : State ι}
    (stepped : step peers s act = some t) : InRounds peers t := by
  -- entering, sending, leaving and receiving move the rounds; the others move one node only
  cases act with
  | enter i =>
    simp only [step] at stepped
    split at stepped
    next outside =>
      obtain rfl := Option.some.inj stepped
      exact inv.enter symm i outside
    next => simp at stepped
  | sendWait i =>
    simp only [step] at stepped
    split at stepped
    next k rest sends =>
      obtain rfl := Option.some.inj stepped
      exact inv.sendWait nodup symm i sends
    next sends =>
      obtain rfl := Option.some.inj stepped
      exact inv.setNode i rfl rfl (by simp [sends]) nofun nofun
        fun k => by simp [State.announced, sends]
    next => simp at stepped
  | test i =>
    simp only [step] at stepped
    split at stepped
    next tests =>
      split at stepped
      next =>
        obtain rfl := Option.some.inj stepped
        exact inv.setNode i rfl rfl (by simp [tests]) nofun nofun
          fun k => by simp [State.announced, tests]
      next equal =>
        obtain rfl := Option.some.inj stepped
        exact inv.setNode i rfl rfl (by simp [tests]) nofun (fun _ => not_not.mp equal)
          fun k => by simp [State.announced, tests]
    next => simp at stepped
  | wake i =>
    simp only [step] at stepped
    split at stepped
    next sleeps =>
      obtain rfl := Option.some.inj stepped
      exact inv.setNode i rfl rfl (by simp [sleeps]) nofun nofun
        fun k => by simp [State.announced, sleeps]
    next => simp at stepped
  | reset i =>
    simp only [step] at stepped
    split at stepped
    next leaves =>
      obtain rfl := Option.some.inj stepped
      exact inv.reset i leaves
    next => simp at stepped
  | deliver j i =>
    simp only [step] at stepped
    split at stepped
    next => simp at stepped
    next round rest flying =>
      split at stepped
      next => simp at stepped
      next =>
        obtain rfl := Option.some.inj stepped
        obtain ⟨inTime, entered⟩ := allowed round (by simp [flying])
        exact inv.deliver nodup i j flying inTime entered
  | signal i =>
    simp only [step] at stepped
    split at stepped
    next =>
      split at stepped
      next sleeps =>
        obtain rfl := Option.some.inj stepped
        exact inv.setNode i rfl rfl (by simp [sleeps]) nofun nofun
          fun k => by simp [State.announced, sleeps]
      next =>
        obtain rfl := Option.some.inj stepped
        exact inv.setNode i rfl rfl Iff.rfl (inv.sending i) (inv.full i)
          fun k => by simp [State.announced]
    next => simp at stepped

/-! ### The result -/

/-- No node is ahead of another by a round, and every arrival that was handled
was counted in its own round. -/
structure Synchronised (peers : ι → List ι) (s : State ι) : Prop where
  returnsAfter : ∀ i j, s.returned i ≤ s.entered j
  countedOnce : ∀ i, (s.node i).mNodesWaiting =
    (peers i).countP fun j => decide (s.returned i + 1 ∈ s.arrived i j)
  inRound : ∀ i, ∀ j ∈ peers i, s.arrived i j = List.range' 1 (s.returned i) ∨
    s.arrived i j = List.range' 1 (s.returned i + 1)

/-- What was handled from a peer is a beginning of what it sent. -/
theorem InRounds.arrived_eq (inv : InRounds peers s) {i j : ι} (member : j ∈ peers i) :
    s.arrived i j = List.range' 1 (s.arrived i j).length ∧
      (s.arrived i j).length ≤ s.announced j i := by
  obtain ⟨k, short, prefix_, -⟩ := List.range'_eq_append_iff.mp (inv.order i j member).symm
  rw [prefix_, List.length_range']
  exact ⟨rfl, short⟩

theorem InRounds.synchronised (inv : InRounds peers s) (connected : ∀ i j, j ≠ i → peers i ≠ []) :
    Synchronised peers s where
  returnsAfter := fun i j => by
    by_cases same : j = i
    · have rounds := inv.rounds j
      subst same
      omega
    · by_cases member : j ∈ peers i
      · have present := (inv.present i j member).1
        have arrived := (inv.arrived_eq member).2
        have sent := inv.announced_le j i
        omega
      · obtain ⟨k, peer⟩ := List.exists_mem_of_ne_nil _ (connected i j same)
        have present := (inv.present i k peer).1
        have others := inv.others i k peer j member same
        omega
  countedOnce := fun i => by
    rw [inv.waiting i]
    apply List.countP_congr
    intro j member
    have present := inv.present i j member
    have here : s.returned i + 1 ∈ s.arrived i j ↔ (s.arrived i j).length = s.returned i + 1 := by
      rw [(inv.arrived_eq member).1, List.mem_range'_1, List.length_range']
      omega
    simp [State.counted, here]
  inRound := fun i j member => by
    have present := inv.present i j member
    have equal := (inv.arrived_eq member).1
    rcases Nat.lt_or_ge (s.returned i) (s.arrived i j).length with more | less
    · exact Or.inr (by rwa [Nat.le_antisymm present.2 more] at equal)
    · exact Or.inl (by rwa [Nat.le_antisymm less present.1] at equal)

open Gadget (Host starNeighbours starNeighbours_nodup starNeighbours_symm)

instance decidableAllowed {n : Nat} (s : State (Host n)) :
    (act : Act (Host n)) → Decidable (Allowed starNeighbours s act)
  | .deliver j i => inferInstanceAs (Decidable (∀ round ∈ (s.link j i).head?,
      round ≤ s.returned i + 1 ∧ ∀ k, k ∉ starNeighbours i → k ≠ i → round ≤ s.entered k))
  | .enter _ | .sendWait _ | .test _ | .wake _ | .reset _ | .signal _ => .isTrue trivial

/-- In a star cluster, when the counters start at zero and every delivery is an
allowed one, the nodes are synchronised. -/
theorem star_synchronised (n : Nat) (total waiting : Host n → Nat) (zero : ∀ i, waiting i = 0)
    (acts : List (Act (Host n))) (s : State (Host n))
    (reached : run (step starNeighbours) (start total waiting) acts = some s)
    (meets : Meets (step starNeighbours) (Allowed starNeighbours) (start total waiting) acts) :
    Synchronised starNeighbours s := by
  obtain rfl : waiting = fun _ => 0 := funext zero
  have inv : InRounds starNeighbours s :=
    run_invariant_of_meets (InRounds starNeighbours) (Allowed starNeighbours)
      (fun _ act _ inv allowed stepped =>
        inRounds_step starNeighbours_nodup (fun _ _ => starNeighbours_symm) inv act allowed stepped)
      (inRounds_start total) meets reached
  refine inv.synchronised fun i j other => ?_
  cases i with
  | slave k => exact List.cons_ne_nil _ _
  | master =>
    cases j with
    | master => exact absurd rfl other
    | slave k =>
      exact List.ne_nil_of_mem (List.mem_map.mpr ⟨k, List.mem_finRange k, rfl⟩)

/-- A node enters, announces itself to all of its peers and falls asleep. -/
def arrive {n : Nat} (i : Host n) : List (Act (Host n)) :=
  .enter i :: (starNeighbours i).map (fun _ => .sendWait i) ++ [.sendWait i, .test i]

/-- All nodes of a cluster with two slaves pass the barrier once. -/
def oneRound : List (Act (Host 2)) :=
  arrive (.slave 0) ++ arrive .master ++ arrive (.slave 1) ++
  [.deliver (.slave 0) .master, .deliver (.slave 1) .master, .signal .master,
    .test .master, .reset .master, .deliver .master (.slave 1), .deliver .master (.slave 0),
    .signal (.slave 0), .test (.slave 0), .reset (.slave 0), .signal (.slave 1),
    .test (.slave 1), .reset (.slave 1)]

theorem star_one_round :
    ∃ s, run (step starNeighbours) (start (fun _ => 0) fun _ => 0) oneRound = some s ∧
      (∀ h, s.returned h = 1) ∧ Synchronised starNeighbours s := by
  have ends : (run (step starNeighbours) (start (fun _ => 0) fun _ => 0) oneRound).map
      (fun s => decide (∀ h, s.returned h = 1)) = some true := by decide +kernel
  obtain ⟨s, reached, final⟩ := Option.map_eq_some_iff.mp ends
  exact ⟨s, reached, of_decide_eq_true final,
    star_synchronised 2 _ _ (fun _ => rfl) oneRound s reached (by decide)⟩

/-- The first slave and the master have entered. The slave waits for the master
alone, and leaves before the second slave has entered. -/
theorem star_early_return :
    ∃ s, run (step starNeighbours) (start (fun _ => 0) fun _ => 0)
        (arrive (.slave 0) ++ arrive (.master : Host 2) ++
          [.deliver .master (.slave 0), .signal (.slave 0), .test (.slave 0), .reset (.slave 0)]) =
        some s ∧
      s.returned (.slave 0) = 1 ∧ s.entered (.slave 1) = 0 ∧
      ¬ Synchronised starNeighbours s := by
  have ends : (run (step starNeighbours) (start (fun _ => 0) fun _ => 0)
      (arrive (.slave 0) ++ arrive (.master : Host 2) ++
        [.deliver .master (.slave 0), .signal (.slave 0), .test (.slave 0), .reset (.slave 0)])).map
      (fun s => (s.returned (.slave 0), s.entered (.slave 1))) = some (1, 0) := by decide +kernel
  obtain ⟨s, reached, final⟩ := Option.map_eq_some_iff.mp ends
  obtain ⟨returned, entered⟩ := Prod.mk.inj final
  refine ⟨s, reached, returned, entered, fun sync => ?_⟩
  have before := sync.returnsAfter (.slave 0) (.slave 1)
  omega

-- The master comes back before the slave has left: its second arrival is forgotten.
example : (run (step starNeighbours) (start (fun _ => 0) fun _ => 0)
    (arrive (.slave 0) ++ arrive (.master : Host 1) ++
      [.deliver (.slave 0) .master, .signal .master, .test .master, .reset .master,
        .deliver .master (.slave 0), .signal (.slave 0), .test (.slave 0)] ++ arrive .master ++
      [.deliver .master (.slave 0), .reset (.slave 0)])).map
      (fun s => (s.arrived (.slave 0) .master, (s.node (.slave 0)).mNodesWaiting)) =
    some ([1, 2], 0) := by decide +kernel

end VRJuggler.ApplicationBarrier
