import VRJuggler.Sim.EventQueue

/-!
# Messages both ways over a line

A line has a queue for each direction, and the direction of a hop is that of the edge
descriptor that was looked up for it. Such a descriptor has the vertex from which the
message comes as its source, so that every hop is a forward one: messages both ways are
in one queue and wait for each other. They get the times that they would get alone only
where a message never finds one of the other way that is not yet on the wire.
-/
namespace VRJuggler.Sim

variable {σ : Type} [DecidableEq σ] {g : NetworkGraph}

/-! ### One way of a line, alone -/

/-- What happens to the messages of one way. -/
inductive WayInput (σ : Type) where
  | enter (curTime size : Nat) (dest : σ)
  | leave
  | flush (sock : σ)
  deriving DecidableEq

/-- The start, fully-on-wire and arrival times of a message. -/
structure WireTimes where
  startOnWire : Nat
  fullyOnWire : Nat
  arrivesFully : Nat
  deriving DecidableEq

/-- When a message can start behind those that got on the wire at the given times. -/
def startBehind (queue : List (Nat × σ)) (curTime : Nat) : Nat :=
  match queue.getLast? with
  | some last => if last.1 + 1 < curTime then curTime else last.1 + 1
  | none => curTime

/-- The times of the messages of one way when there are no others on the line. -/
def timesAlone (line : LineSpec) : List (Nat × σ) → List (WayInput σ) → List WireTimes
  | _, [] => []
  | queue, .enter curTime size dest :: inputs =>
    let start := startBehind queue curTime
    let fully := start + line.getWireAccessTime (size * 8 % 2 ^ 32)
    ⟨start, fully, fully + line.getBitTransmissionTime⟩ ::
      timesAlone line (queue ++ [(fully, dest)]) inputs
  | queue, .leave :: inputs => timesAlone line queue.tail inputs
  | queue, .flush sock :: inputs =>
    timesAlone line (queue.filter fun x => x.2 != sock) inputs

/-! ### The notes about a line -/

/-- A message on its hop over a line comes from the first end of the line. -/
def Message.fromFirst (m : Message σ g) (line : LineSpec) : Bool :=
  m.mMsgPath[m.mNextHop - 1]? == some line.first

def Message.times (m : Message σ g) : WireTimes :=
  ⟨m.mStartOnWire, m.mFullyOnWire, m.mArrivesFully⟩

namespace LineNote

/-- What a note says about one way. -/
def input (line : LineSpec) (way : Bool) : LineNote σ g → Option (WayInput σ)
  | enter curTime msg =>
    if msg.fromFirst line = way then some (.enter curTime msg.getSize msg.mDestSock) else none
  | leave msg => if msg.fromFirst line = way then some .leave else none
  | flush sock removed =>
    if removed.any fun m => m.fromFirst line == way then some (.flush sock) else none

/-- The times that a note gives to a message of one way. -/
def times (line : LineSpec) (way : Bool) : LineNote σ g → Option WireTimes
  | enter _ msg => if msg.fromFirst line = way then some msg.times else none
  | leave _ | flush _ _ => none

/-- What a note does to the queue. -/
def apply (q : MsgQueue σ g) : LineNote σ g → Option (MsgQueue σ g)
  | enter _ msg => some (q ++ [(msg.mArrivesFully, msg)])
  | leave _ => some q.tail
  | flush sock _ => some (q.filter fun x => !Wire.addressedTo sock x)

/-- The note is about what happened to the queue. -/
def Faithful (line : LineSpec) (q : MsgQueue σ g) : LineNote σ g → Prop
  | enter curTime msg => msg = calculateMessageEventTimes line msg curTime q
  | leave msg => ∃ k, q.head? = some (k, msg)
  | flush sock removed => removed = (q.filter (Wire.addressedTo sock)).map Prod.snd

theorem faithful_enter (line : LineSpec) (q : MsgQueue σ g) (msg : Message σ g) (curTime : Nat) :
    (enter curTime (calculateMessageEventTimes line msg curTime q)).Faithful line q := rfl

theorem faithful_leave (line : LineSpec) (x : Nat × Message σ g) (rest : MsgQueue σ g) :
    (leave x.2).Faithful line (x :: rest) := ⟨x.1, rfl⟩

theorem faithful_flush (line : LineSpec) (q : MsgQueue σ g) (sock : σ) :
    (flush sock ((q.filter (Wire.addressedTo sock)).map Prod.snd)).Faithful line q := rfl

/-- No message of the other way is in the way: the last one in the queue goes the same
way or has already been on the wire. -/
def Clear (line : LineSpec) (way : Bool) (q : MsgQueue σ g) : LineNote σ g → Prop
  | enter curTime msg => msg.fromFirst line = way → ∀ x ∈ q.getLast?,
      x.2.fromFirst line = way ∨ x.2.mFullyOnWire < curTime
  | leave _ | flush _ _ => True

instance (line : LineSpec) (way : Bool) (q : MsgQueue σ g) :
    ∀ note : LineNote σ g, Decidable (Clear line way q note)
  | enter curTime msg => inferInstanceAs (Decidable (msg.fromFirst line = way →
      ∀ x ∈ q.getLast?, x.2.fromFirst line = way ∨ x.2.mFullyOnWire < curTime))
  | leave _ | flush _ _ => isTrue trivial

end LineNote

/-! ### Waiting for the other way -/

/-- The messages of one way in a queue, as they are seen alone. -/
def oneWay (line : LineSpec) (way : Bool) (q : MsgQueue σ g) : List (Nat × σ) :=
  (q.filter fun x => x.2.fromFirst line == way).map fun x => (x.2.mFullyOnWire, x.2.mDestSock)

omit [DecidableEq σ] in
theorem startTime_concat (q : MsgQueue σ g) (x : Nat × Message σ g) (curTime : Nat) :
    startTime (q ++ [x]) curTime = max curTime (x.2.mFullyOnWire + 1) := by
  simp only [startTime, List.getLast?_append, List.getLast?_singleton, Option.some_or]
  split <;> omega

omit [DecidableEq σ] in
theorem startBehind_concat (q : List (Nat × σ)) (x : Nat × σ) (curTime : Nat) :
    startBehind (q ++ [x]) curTime = max curTime (x.1 + 1) := by
  simp only [startBehind, List.getLast?_append, List.getLast?_singleton, Option.some_or]
  split <;> omega

omit [DecidableEq σ] in
/-- A message starts when it would alone, just when no other message is in its way. -/
theorem startTime_eq_alone_iff {q : MsgQueue σ g} (line : LineSpec) (way : Bool) (curTime : Nat)
    (ordered : q.Pairwise fun x y => x.2.mFullyOnWire < y.2.mFullyOnWire) :
    startTime q curTime = startBehind (oneWay line way q) curTime ↔
      ∀ x ∈ q.getLast?, x.2.fromFirst line = way ∨ x.2.mFullyOnWire < curTime := by
  rcases List.eq_nil_or_concat' q with rfl | ⟨front, last, rfl⟩
  · simp [oneWay, startTime, startBehind]
  · rw [startTime_concat]
    by_cases same : last.2.fromFirst line = way
    · have split : oneWay line way (front ++ [last]) =
          oneWay line way front ++ [(last.2.mFullyOnWire, last.2.mDestSock)] := by
        simp [oneWay, same]
      rw [split, startBehind_concat]
      simp [same]
    · have split : oneWay line way (front ++ [last]) = oneWay line way front := by
        simp [oneWay, same]
      -- alone, the message would follow one that got on the wire before `last`
      have earlier : startBehind (oneWay line way front) curTime ≤
          max curTime last.2.mFullyOnWire := by
        rcases List.eq_nil_or_concat' (oneWay line way front) with nil | ⟨before, y, concat⟩
        · rw [nil]
          exact Nat.le_max_left _ _
        · rw [concat, startBehind_concat]
          have member : y ∈ oneWay line way front := by rw [concat]; simp
          obtain ⟨x, hx, rfl⟩ := List.mem_map.mp member
          have less := (List.pairwise_append.mp ordered).2.2 x (List.mem_filter.mp hx).1 last
            (List.mem_singleton_self _)
          simp only
          omega
      have now : curTime ≤ startBehind (oneWay line way front) curTime := by
        unfold startBehind
        split
        · split <;> omega
        · exact Nat.le_refl _
      rw [split]
      simp only [List.getLast?_append, List.getLast?_singleton, Option.some_or,
        Option.mem_some_iff, forall_eq', same, false_or]
      omega

theorem oneWay_filter (line : LineSpec) (way : Bool) (q : MsgQueue σ g) (sock : σ) :
    oneWay line way (q.filter fun x => !Wire.addressedTo sock x) =
      (oneWay line way q).filter fun x => x.2 != sock := by
  simp only [oneWay, List.filter_map, List.filter_filter]
  congr 1
  apply List.filter_congr
  intro x _
  rw [Bool.and_comm]
  rfl

/-- A flush leaves a way as it is if it removes no message of it. -/
theorem oneWay_filter_eq_self {line : LineSpec} {way : Bool} {q : MsgQueue σ g} {sock : σ}
    (others : ∀ x ∈ q, Wire.addressedTo sock x = true → x.2.fromFirst line ≠ way) :
    (oneWay line way q).filter (fun x => x.2 != sock) = oneWay line way q := by
  apply List.filter_eq_self.mpr
  intro y hy
  obtain ⟨x, hx, rfl⟩ := List.mem_map.mp hy
  obtain ⟨hx, here⟩ := List.mem_filter.mp hx
  rw [bne_iff_ne]
  intro dest
  exact others x hx (beq_iff_eq.mpr dest) (beq_iff_eq.mp here)

/-- Messages get on the wire in the order of the queue. -/
theorem ordered_apply {line : LineSpec} {q t : MsgQueue σ g} {note : LineNote σ g}
    (ordered : q.Pairwise fun x y => x.2.mFullyOnWire < y.2.mFullyOnWire)
    (faithful : note.Faithful line q) (applied : note.apply q = some t) :
    t.Pairwise fun x y => x.2.mFullyOnWire < y.2.mFullyOnWire := by
  cases note with
  | enter curTime msg =>
    obtain rfl := Option.some.inj applied
    refine List.pairwise_append.mpr ⟨ordered, List.pairwise_singleton _ _, fun x hx y hy => ?_⟩
    obtain rfl := List.mem_singleton.mp hy
    have later := Wire.lt_startTime curTime ordered x hx
    have fully := congrArg Message.mFullyOnWire faithful
    simp only [calculateMessageEventTimes] at fully ⊢
    omega
  | leave msg =>
    obtain rfl := Option.some.inj applied
    exact ordered.tail
  | flush sock removed =>
    obtain rfl := Option.some.inj applied
    exact ordered.filter _

/-- The messages of one way get the times that they would get alone, just when none of
them finds one of the other way before it. -/
theorem times_eq_alone_iff {line : LineSpec} (way : Bool) {q : MsgQueue σ g}
    {notes : List (LineNote σ g)}
    (ordered : q.Pairwise fun x y => x.2.mFullyOnWire < y.2.mFullyOnWire)
    (faithful : Meets LineNote.apply (LineNote.Faithful line) q notes) :
    notes.filterMap (LineNote.times line way) =
        timesAlone line (oneWay line way q) (notes.filterMap (LineNote.input line way)) ↔
      Meets LineNote.apply (LineNote.Clear line way) q notes := by
  induction notes generalizing q with
  | nil => exact ⟨fun _ => trivial, fun _ => rfl⟩
  | cons note notes ih =>
    cases note with
    | enter curTime msg =>
      have applied : (LineNote.enter curTime msg).apply q =
        some (q ++ [(msg.mArrivesFully, msg)]) := rfl
      obtain ⟨given, faithful⟩ := (meets_cons applied).mp faithful
      have ih := ih (ordered_apply ordered given applied) faithful
      rw [meets_cons applied]
      -- only messages of this way count, and the others may delay them
      by_cases same : msg.fromFirst line = way
      · have concat : oneWay line way (q ++ [(msg.mArrivesFully, msg)]) =
            oneWay line way q ++ [(msg.mFullyOnWire, msg.mDestSock)] := by
          simp [oneWay, same]
        have start : msg.mStartOnWire = startTime q curTime := congrArg Message.mStartOnWire given
        have fully : msg.mFullyOnWire = startTime q curTime +
            line.getWireAccessTime (msg.getSize * 8 % 2 ^ 32) := congrArg Message.mFullyOnWire given
        have arrives : msg.mArrivesFully = startTime q curTime +
            line.getWireAccessTime (msg.getSize * 8 % 2 ^ 32) + line.getBitTransmissionTime :=
          congrArg Message.mArrivesFully given
        rw [concat] at ih
        simp only [List.filterMap_cons, LineNote.times, LineNote.input, same, if_true, timesAlone,
          List.cons.injEq, LineNote.Clear, forall_const, Message.times]
        rw [← startTime_eq_alone_iff line way curTime ordered]
        -- the message is delayed by the other way if it starts later than it would alone
        by_cases equal : startTime q curTime = startBehind (oneWay line way q) curTime
        · rw [← equal, ← fully, ih]
          simp [start, fully, arrives]
        · simp [start, equal]
      · have skip : oneWay line way (q ++ [(msg.mArrivesFully, msg)]) = oneWay line way q := by
          simp [oneWay, same]
        rw [skip] at ih
        simpa [List.filterMap_cons, LineNote.times, LineNote.input, LineNote.Clear, same] using ih
    | leave msg =>
      have applied : (LineNote.leave msg).apply q = some q.tail := rfl
      obtain ⟨given, faithful⟩ := (meets_cons applied).mp faithful
      have ih := ih (ordered_apply ordered given applied) faithful
      obtain ⟨k, head⟩ := given
      obtain ⟨rest, rfl⟩ : ∃ rest, q = (k, msg) :: rest := by
        cases q with
        | nil => simp at head
        | cons x rest => exact ⟨rest, by rw [Option.some.inj head]⟩
      rw [meets_cons applied]
      by_cases same : msg.fromFirst line = way
      · have tail : oneWay line way rest = (oneWay line way ((k, msg) :: rest)).tail := by
          simp [oneWay, same]
        rw [List.tail_cons, tail] at ih
        simpa [List.filterMap_cons, LineNote.times, LineNote.input, LineNote.Clear, same,
          timesAlone] using ih
      · have skip : oneWay line way rest = oneWay line way ((k, msg) :: rest) := by
          simp [oneWay, same]
        rw [List.tail_cons, skip] at ih
        simpa [List.filterMap_cons, LineNote.times, LineNote.input, LineNote.Clear, same] using ih
    | flush sock removed =>
      have applied : (LineNote.flush sock removed).apply q =
        some (q.filter fun x => !Wire.addressedTo sock x) := rfl
      obtain ⟨given, faithful⟩ := (meets_cons applied).mp faithful
      have ih := ih (ordered_apply ordered given applied) faithful
      rw [meets_cons applied]
      rw [oneWay_filter] at ih
      by_cases some : removed.any fun m => m.fromFirst line == way
      · simpa [List.filterMap_cons, LineNote.times, LineNote.input, LineNote.Clear, some,
          timesAlone] using ih
      · -- no message of this way is flushed
        have none := oneWay_filter_eq_self fun x hx dest here => some (List.any_eq_true.mpr
          ⟨x.2, given ▸ List.mem_map_of_mem (List.mem_filter.mpr ⟨hx, dest⟩),
            beq_iff_eq.mpr here⟩)
        rw [none] at ih
        simpa [List.filterMap_cons, LineNote.times, LineNote.input, LineNote.Clear, some] using ih

/-! ### The notes of a run -/

namespace Wire

/-- Only forward queues are in use, and the notes about a line tell how its queue came
about. -/
structure Noted (w : Wire σ g) : Prop where
  noReverse : ∀ line, w.queue (line, .reverse) = []
  forward : ∀ line, ∀ entry ∈ w.notes line, entry.1 = .forward
  replayed : ∀ line : g.LineId, run LineNote.apply [] ((w.notes line).map Prod.snd) =
    some (w.queue (line, .forward))
  faithful : ∀ line : g.LineId,
    Meets LineNote.apply (LineNote.Faithful g.lines[line]) [] ((w.notes line).map Prod.snd)

theorem noted_start : (start : Wire σ g).Noted where
  noReverse := fun _ => rfl
  forward := fun _ _ member => by simp [start] at member
  replayed := fun _ => rfl
  faithful := fun _ => trivial

theorem Noted.of_eq {w t : Wire σ g} (noted : w.Noted) (queue : t.queue = w.queue)
    (notes : t.notes = w.notes) : t.Noted where
  noReverse := fun line => queue ▸ noted.noReverse line
  forward := fun line => notes ▸ noted.forward line
  replayed := fun line => by rw [notes, queue, noted.replayed line]
  faithful := fun line => notes ▸ noted.faithful line

theorem Noted.setQueue {w : Wire σ g} (noted : w.Noted) {line : g.LineId} {q : MsgQueue σ g}
    {note : LineNote σ g} (applied : note.apply (w.queue (line, .forward)) = some q)
    (given : note.Faithful g.lines[line] (w.queue (line, .forward))) :
    (w.setQueue (line, .forward) q note).Noted where
  noReverse := fun other => by
    rw [setQueue_queue_of_ne _ _ _ (by simp)]
    exact noted.noReverse other
  forward := fun other entry member => by
    by_cases same : other = line
    · subst same
      simp only [Wire.setQueue, Function.update_self] at member
      rcases List.mem_append.mp member with old | new
      · exact noted.forward other entry old
      · rw [List.mem_singleton.mp new]
    · simp only [Wire.setQueue, Function.update_of_ne same] at member
      exact noted.forward other entry member
  replayed := fun other => by
    by_cases same : other = line
    · subst same
      rw [setQueue_queue_self]
      simp only [Wire.setQueue, Function.update_self, List.map_append, List.map_singleton]
      rw [run_append, noted.replayed, Option.bind_some, run_cons, applied]
      rfl
    · rw [setQueue_queue_of_ne _ _ _ (by simpa using same)]
      simp only [Wire.setQueue, Function.update_of_ne same]
      exact noted.replayed other
  faithful := fun other => by
    by_cases same : other = line
    · subst same
      simp only [Wire.setQueue, Function.update_self, List.map_append, List.map_singleton]
      exact meets_snoc (noted.faithful other) (noted.replayed other) given
    · simp only [Wire.setQueue, Function.update_of_ne same]
      exact noted.faithful other

/-- A message that goes from `u` to `v` goes over the forward queue. -/
theorem Noted.addMessage {w : Wire σ g} (noted : w.Noted) (msg : Message σ g) {u v : Vertex}
    {edge : g.NetEdge} (found : g.getEdge u v = some edge) (curTime : Nat) :
    (w.addMessage msg u edge curTime).Noted := by
  simp only [Wire.addMessage, direction_of_getEdge found]
  have given :=
    LineNote.faithful_enter g.lines[edge.line] (w.queue (edge.line, .forward)) msg curTime
  exact Noted.of_eq (noted.setQueue rfl given) rfl rfl

theorem Noted.takeFirst {w : Wire σ g} (noted : w.Noted) {lane : g.Lane}
    {x : Nat × Message σ g} {rest : MsgQueue σ g} (head : w.queue lane = x :: rest) :
    (w.takeFirst lane x rest).Noted := by
  obtain ⟨line, dir⟩ := lane
  cases dir with
  | forward =>
    have taken : ({ w with mEvents := w.mEvents.tail } : Wire σ g).Noted := noted.of_eq rfl rfl
    apply taken.setQueue
    · exact congrArg (fun q => some q.tail) head
    · exact head ▸ LineNote.faithful_leave g.lines[line] x rest
  | reverse =>
    rw [noted.noReverse] at head
    exact absurd head (List.cons_ne_nil _ _).symm

theorem Noted.move {target : σ → Prop} {flushes : Wire σ g → σ → g.Lane → Prop} {w t : Wire σ g}
    (noted : w.Noted) (move : Move target flushes w t) : t.Noted := by
  cases move with
  | tick time | notify time data s about ok | skip time data rest front about
  | loopback body u source dest ok
  | consume sock message rest front | cut sock message rest length front =>
    exact noted.of_eq rfl rfl
  | send body path source dest u v edge isPath first second found ok =>
    have sent : ({ w with sent := w.sent + 1 } : Wire σ g).Noted := noted.of_eq rfl rfl
    exact sent.addMessage _ found _
  | hop time edge next dir events x rest u v front head here there found =>
    exact (noted.takeFirst head).addMessage _ found time
  | arrive time edge dir events x rest u front head here last =>
    exact (noted.takeFirst head).of_eq rfl rfl
  | flush sock source dest edge found ok =>
    simp only [Wire.flushLine, direction_of_getEdge found]
    have given := LineNote.faithful_flush g.lines[edge.line] (w.queue (edge.line, .forward)) sock
    exact Noted.of_eq (noted.setQueue rfl given) rfl rfl

/-! ### What a line does to its messages -/

/-- What happened on a line to the messages of one way. -/
def traffic (w : Wire σ g) (line : g.LineId) (way : Bool) : List (WayInput σ) :=
  ((w.notes line).map Prod.snd).filterMap (LineNote.input g.lines[line] way)

/-- The times that the messages of one way were given. -/
def wireTimes (w : Wire σ g) (line : g.LineId) (way : Bool) : List WireTimes :=
  ((w.notes line).map Prod.snd).filterMap (LineNote.times g.lines[line] way)

/-- Whenever a message of one way entered the line, the last message in the queue went
the same way or was already on the wire. -/
def ClearWay (w : Wire σ g) (line : g.LineId) (way : Bool) : Prop :=
  Meets LineNote.apply (LineNote.Clear g.lines[line] way) [] ((w.notes line).map Prod.snd)

instance (w : Wire σ g) (line : g.LineId) (way : Bool) : Decidable (w.ClearWay line way) :=
  inferInstanceAs (Decidable (Meets _ _ _ _))

/-- The direction of the queue and the way of each message that entered a line. -/
def entries (w : Wire σ g) (line : g.LineId) : List (LineDirection × Bool) :=
  (w.notes line).filterMap fun entry => match entry.2 with
    | .enter _ msg => some (entry.1, msg.fromFirst g.lines[line])
    | .leave _ | .flush _ _ => none

/-- Messages that crossed the line in different ways entered different queues. -/
def KeptApart (w : Wire σ g) (line : g.LineId) : Prop :=
  ∀ a ∈ w.entries line, ∀ b ∈ w.entries line, a.2 ≠ b.2 → a.1 ≠ b.1

/-- All messages that entered the line crossed it the same way. -/
def UsedOneWay (w : Wire σ g) (line : g.LineId) : Prop :=
  ∀ a ∈ w.entries line, ∀ b ∈ w.entries line, a.2 = b.2

theorem Noted.forward_of_mem {w : Wire σ g} (noted : w.Noted) {line : g.LineId}
    {a : LineDirection × Bool} (member : a ∈ w.entries line) : a.1 = .forward := by
  obtain ⟨entry, there, same⟩ := List.mem_filterMap.mp member
  have forward := noted.forward line entry there
  split at same
  · rw [← Option.some.inj same]
    exact forward
  · simp at same
  · simp at same

theorem Noted.keptApart_iff {w : Wire σ g} (noted : w.Noted) (line : g.LineId) :
    w.KeptApart line ↔ w.UsedOneWay line := by
  constructor
  · intro apart a ha b hb
    by_contra other
    exact apart a ha b hb other
      ((noted.forward_of_mem ha).trans (noted.forward_of_mem hb).symm)
  · intro oneWay a ha b hb other
    exact absurd (oneWay a ha b hb) other

theorem Noted.wireTimes_eq_alone_iff {w : Wire σ g} (noted : w.Noted) (line : g.LineId)
    (way : Bool) : w.wireTimes line way = timesAlone g.lines[line] [] (w.traffic line way) ↔
      w.ClearWay line way :=
  times_eq_alone_iff way .nil (noted.faithful line)

end Wire

/-! ### Runs -/

namespace Simulator

theorem noted_run {type : σ → SocketType} {blocking : σ → Bool} {ops : List (Op σ)}
    {t : Simulator σ g} (reached : run step (start type blocking) ops = some t) :
    t.ends.Routed g ∧ t.wire.Noted := by
  refine run_invariant (fun s => s.ends.Routed g ∧ s.wire.Noted) ?_
    ⟨routed_start type blocking, Wire.noted_start⟩ reached
  intro s op t ⟨routed, noted⟩ stepped
  refine ⟨routed_step routed op stepped, ?_⟩
  have moves : Wire.Moves (Targets s t op) (fun _ _ _ => True) s.wire t.wire :=
    step_moves routed op stepped (fun _ _ _ _ _ => trivial) fun _ _ _ _ _ _ => trivial
  exact moves.keeps Wire.Noted (fun _ _ => Wire.Noted.move) noted

/-- In every run, the two ways of a line are kept apart only if one of them is not used;
and the messages of one way get the times that they would get without the others just
when none of them finds the other way busy. Two runs with the same traffic one way then
give it the same times. -/
theorem duplex_iff {type : σ → SocketType} {blocking : σ → Bool} {ops : List (Op σ)}
    {t : Simulator σ g} (reached : run step (start type blocking) ops = some t)
    (line : g.LineId) (way : Bool) :
    (t.wire.KeptApart line ↔ t.wire.UsedOneWay line) ∧
    (t.wire.wireTimes line way = timesAlone g.lines[line] [] (t.wire.traffic line way) ↔
      t.wire.ClearWay line way) ∧
    ∀ (type' : σ → SocketType) (blocking' : σ → Bool) (ops' : List (Op σ)) (t' : Simulator σ g),
      run step (start type' blocking') ops' = some t' →
      t'.wire.traffic line way = t.wire.traffic line way →
      t.wire.ClearWay line way → t'.wire.ClearWay line way →
      t'.wire.wireTimes line way = t.wire.wireTimes line way := by
  obtain ⟨_, noted⟩ := noted_run reached
  refine ⟨noted.keptApart_iff line, noted.wireTimes_eq_alone_iff line way, ?_⟩
  intro type' blocking' ops' t' reached' traffic clear clear'
  obtain ⟨_, noted'⟩ := noted_run reached'
  rw [(noted.wireTimes_eq_alone_iff line way).mpr clear,
    (noted'.wireTimes_eq_alone_iff line way).mpr clear', traffic]

/-! ### Two sockets that write to each other -/

/-- An answer that is written later does not change the times of the first message. -/
theorem duplex_answer : ∃ t t' : Simulator (Fin 3) .twoNodes,
    run step (startStreams 3) (oneConnection ++ [.write 2 [7]]) = some t ∧
      run step (startStreams 3) (oneConnection ++ [.write 2 [7], .write 1 [7, 7]]) = some t' ∧
      t'.wire.wireTimes theLine true = t.wire.wireTimes theLine true ∧
      t.wire.wireTimes theLine true = [⟨0, 8, 18⟩] := by
  obtain ⟨t, reached, values⟩ := Option.map_eq_some_iff.mp (show
    (run step (startStreams 3) (oneConnection ++ [.write 2 [7]])).map (fun t =>
      (t.wire.traffic theLine true, t.wire.wireTimes theLine true,
        decide (t.wire.ClearWay theLine true))) =
      some ([.enter 0 1 1], [⟨0, 8, 18⟩], true) by decide +kernel)
  obtain ⟨t', reached', values'⟩ := Option.map_eq_some_iff.mp (show
    (run step (startStreams 3) (oneConnection ++ [.write 2 [7], .write 1 [7, 7]])).map (fun t =>
      (t.wire.traffic theLine true, decide (t.wire.ClearWay theLine true))) =
      some ([.enter 0 1 1], true) by decide +kernel)
  simp only [Prod.mk.injEq, decide_eq_true_eq] at values values'
  refine ⟨t, t', reached, reached', ?_, values.2.1⟩
  exact (duplex_iff reached theLine true).2.2 _ _ _ t' reached'
    (values'.1.trans values.1.symm) values.2.2 values'.2

/-- A message that is written first on the other side delays it. -/
theorem duplex_delay : ∃ t t' : Simulator (Fin 3) .twoNodes,
    run step (startStreams 3) (oneConnection ++ [.write 2 [7]]) = some t ∧
      run step (startStreams 3) (oneConnection ++ [.write 1 [7, 7], .write 2 [7]]) = some t' ∧
      t'.wire.traffic theLine true = t.wire.traffic theLine true ∧
      t'.wire.wireTimes theLine true ≠ t.wire.wireTimes theLine true ∧
      ¬ t'.wire.KeptApart theLine := by
  obtain ⟨t, reached, values⟩ := Option.map_eq_some_iff.mp (show
    (run step (startStreams 3) (oneConnection ++ [.write 2 [7]])).map (fun t =>
      (t.wire.traffic theLine true, t.wire.wireTimes theLine true)) =
      some ([.enter 0 1 1], [⟨0, 8, 18⟩]) by decide +kernel)
  obtain ⟨t', reached', values'⟩ := Option.map_eq_some_iff.mp (show
    (run step (startStreams 3) (oneConnection ++ [.write 1 [7, 7], .write 2 [7]])).map (fun t =>
      (t.wire.traffic theLine true, t.wire.wireTimes theLine true, t.wire.entries theLine)) =
      some ([.enter 0 1 1], [⟨17, 25, 35⟩], [(.forward, false), (.forward, true)])
    by decide +kernel)
  simp only [Prod.mk.injEq] at values values'
  refine ⟨t, t', reached, reached', values'.1.trans values.1.symm, ?_, fun apart => ?_⟩
  · rw [values.2, values'.2.1]
    decide
  · have both : (LineDirection.forward, false) ∈ t'.wire.entries theLine ∧
        (LineDirection.forward, true) ∈ t'.wire.entries theLine := by
      simp [values'.2.2]
    exact apart _ both.1 _ both.2 (by decide) rfl

end Simulator

end VRJuggler.Sim
