import Mathlib.Data.List.Forall2
import VRJuggler.Io.TextObservation

/-!
# Saving and restoring the position of an XML reader

`pushState` keeps the open elements and their next children, but of a text only its
content, and neither the current source nor the content of an attribute. This module
determines when `popState` leads back to where the reader was.
-/
namespace VRJuggler.Io

open TextStream (cdataReader attribReader)

/-! ## The restored stack -/

/-- The node states are the same up to the streams, which are alike. -/
structure NodeState.Same (a b : NodeState) : Prop where
  node : a.node = b.node
  nextChild : a.nextChild = b.nextChild
  str : a.cdataSource.str = b.cdataSource.str
  stream : a.cdataSource.Same b.cdataSource

namespace NodeStack

/-- The stream of the element that is the `j`-th on the stack, from the bottom. -/
def streamAt (stack : NodeStack) (j : Nat) : TextStream :=
  match stack.items.reverse[j]? with
  | some state => state.cdataSource
  | none => .ofStr []

/-- The assignment seen from the bottom: elements that are there take the new content, the
others are copies. -/
theorem reverse_assign {lhs rhs : NodeStack} (room : rhs.items.length ≤ lhs.capacity) :
    (lhs.assign rhs).items.reverse =
      List.zipWith NodeState.assign lhs.items.reverse rhs.items.reverse ++
        (rhs.items.reverse.drop lhs.items.length).map NodeState.copy := by
  rw [assign, if_neg (Nat.not_lt.mpr room)]
  have left : lhs.items.length - (lhs.items.length - min lhs.items.length rhs.items.length) =
      min lhs.items.length rhs.items.length := by omega
  have right : rhs.items.length - (rhs.items.length - min lhs.items.length rhs.items.length) =
      min lhs.items.length rhs.items.length := by omega
  have behind : rhs.items.reverse.drop (min lhs.items.length rhs.items.length) =
      rhs.items.reverse.drop lhs.items.length := by
    rcases Nat.le_total lhs.items.length rhs.items.length with le | le
    · rw [Nat.min_eq_left le]
    · rw [Nat.min_eq_right le, List.drop_eq_nil_of_le (by simp),
        List.drop_eq_nil_of_le (by simpa using le)]
  simp only [List.reverse_append]
  rw [List.reverse_zipWith (by simp only [List.length_drop]; omega), List.reverse_drop,
    List.reverse_drop, ← List.map_reverse, List.reverse_take, left, right, behind,
    ← List.take_zipWith, List.take_of_length_le (by simp)]

theorem assign_items {lhs rhs : NodeStack} (room : rhs.items.length ≤ lhs.capacity) (j : Nat) :
    (lhs.assign rhs.copy).items.reverse[j]? =
      rhs.items.reverse[j]?.map fun state =>
        { state with cdataSource := (lhs.streamAt j).setStr state.cdataSource.str } := by
  rw [reverse_assign (by rwa [copy, List.length_map]), copy, ← List.map_reverse,
    List.getElem?_append]
  unfold streamAt
  simp only [List.length_zipWith, List.length_reverse, List.length_map, List.getElem?_map,
    List.getElem?_drop, List.getElem?_zipWith]
  split
  · next both =>
    rw [List.getElem?_eq_getElem (show j < lhs.items.reverse.length by
      rw [List.length_reverse]; omega)]
    cases rhs.items.reverse[j]? with
    | none => rfl
    | some state => rfl
  · next outside =>
    rcases Nat.lt_or_ge j rhs.items.length with inside | beyond
    · -- the stack did not have as many elements as are restored
      rw [List.getElem?_eq_none (show lhs.items.reverse.length ≤ j by
        rw [List.length_reverse]; omega),
        show lhs.items.length + (j - min lhs.items.length rhs.items.length) = j by omega]
      cases rhs.items.reverse[j]? with
      | none => rfl
      | some state => rfl
    · rw [List.getElem?_eq_none (show rhs.items.reverse.length ≤ j by
        rw [List.length_reverse]; exact beyond),
        List.getElem?_eq_none (by rw [List.length_reverse]; omega)]
      rfl

end NodeStack

namespace XMLObjectReader

variable (grow : Nat → Nat) (nt : NumberText)

/-! ## Operations -/

/-- What a program does with a reader. -/
inductive Operation where
  | ask (a : Ask)
  | pushState
  | popState
  | resetReading

/-- `none` when the call has no defined result, or there is no state to restore. -/
def operate (s : XMLObjectReader) : Operation → Option XMLObjectReader
  | .ask a =>
    if ((reader grow nt).answer a s).1 = .error .undefined then none
    else some ((reader grow nt).answer a s).2
  | .pushState => some s.pushState
  | .popState => s.popState
  | .resetReading => some s.resetReading

variable {grow nt}

/-- The stack never has more elements than place, and each stream got where it is by
reading. -/
structure Sound (nt : NumberText) (s : XMLObjectReader) : Prop where
  room : s.mCurNodeStack.items.length ≤ s.mCurNodeStack.capacity
  reached : ∀ state ∈ s.mCurNodeStack.items, state.cdataSource.Reached nt

theorem reached_of_mem_moved {grew : Prop} [Decidable grew] {items : List NodeState}
    (reached : ∀ state ∈ items, state.cdataSource.Reached nt) :
    ∀ state ∈ moved grew items, state.cdataSource.Reached nt := by
  unfold moved
  split
  · intro state member
    obtain ⟨old, -, rfl⟩ := List.mem_map.mp member
    exact TextStream.reached_of_front rfl
  · exact reached

/-- What calls leave as it is, and that the place for the stack never becomes smaller. -/
structure Onward (s t : XMLObjectReader) : Prop where
  root : t.mRootNode = s.mRootNode
  states : t.mReadStateStack = s.mReadStateStack
  capacity : s.mCurNodeStack.capacity ≤ t.mCurNodeStack.capacity

theorem Onward.trans {s t u : XMLObjectReader} (first : Onward s t) (second : Onward t u) :
    Onward s u :=
  ⟨second.root.trans first.root, second.states.trans first.states,
    Nat.le_trans first.capacity second.capacity⟩

variable (grow) in
theorem sound_pushBack (s : XMLObjectReader) {items : List NodeState} (node : XmlNode)
    (room : items.length ≤ s.mCurNodeStack.capacity)
    (reached : ∀ state ∈ items, state.cdataSource.Reached nt) :
    Sound nt { s with mCurNodeStack :=
        { s.mCurNodeStack with items }.pushBack grow (.ofNode node) } ∧
      Onward s { s with mCurNodeStack :=
        { s.mCurNodeStack with items }.pushBack grow (.ofNode node) } := by
  rw [pushBack_items]
  refine ⟨⟨?_, ?_⟩, ⟨rfl, rfl, le_pushed grow room⟩⟩
  · rw [List.length_cons, length_moved]
    exact lt_pushed grow _ _
  · intro state member
    rcases List.mem_cons.mp member with rfl | member
    · exact TextStream.reached_of_front rfl
    · exact reached_of_mem_moved reached state member

theorem sound_answer (takes : nt.Takes) {s : XMLObjectReader} (sound : Sound nt s) (ask : Ask)
    (defined : ((reader grow nt).answer ask s).1 ≠ .error .undefined) :
    Sound nt ((reader grow nt).answer ask s).2 ∧
      Onward s ((reader grow nt).answer ask s).2 := by
  have same : Sound nt s ∧ Onward s s := ⟨sound, rfl, rfl, Nat.le_refl _⟩
  -- only the beginning of a tag makes the stack higher, and only it uses up room
  cases ask with
  | beginTag tagName =>
    simp only [ObjectReader.answer_beginTag, reader, beginTag]
    cases items : s.mCurNodeStack.items with
    | nil =>
      exact sound_pushBack grow s s.mRootNode sound.room sound.reached
    | cons back below =>
      have room := sound.room
      have reached := sound.reached
      rw [items] at room reached
      cases kids : back.nextChild with
      | nil => simpa only [kids] using same
      | cons tag_node rest =>
        simp only [kids]
        refine sound_pushBack grow s tag_node room fun state member => ?_
        rcases List.mem_cons.mp member with rfl | member
        · exact reached back (List.mem_cons_self ..)
        · exact reached state (List.mem_cons_of_mem _ member)
  | endTag =>
    simp only [ObjectReader.answer_endTag, reader, endTag]
    cases items : s.mCurNodeStack.items with
    | nil => exact same
    | cons back below =>
      have room := sound.room
      have reached := sound.reached
      rw [items] at room reached
      exact ⟨⟨Nat.le_of_succ_le room,
        fun state member => reached state (List.mem_cons_of_mem _ member)⟩,
        rfl, rfl, Nat.le_refl _⟩
  | beginAttribute attributeName =>
    simp only [ObjectReader.answer_beginAttribute, reader, beginAttribute]
    cases s.mCurNodeStack.items with
    | nil => exact same
    | cons back below => exact ⟨⟨sound.room, sound.reached⟩, rfl, rfl, Nat.le_refl _⟩
  | endAttribute => exact ⟨⟨sound.room, sound.reached⟩, rfl, rfl, Nat.le_refl _⟩
  | read k =>
    rw [ObjectReader.answer_read] at defined ⊢
    simp only [reader] at defined ⊢
    cases source : s.mCurSource with
    | attrib =>
      -- a number moves the attribute source on, a string leaves it
      by_cases number : k ≠ .string
      · rw [read_attrib number source]
        exact ⟨⟨sound.room, sound.reached⟩, rfl, rfl, Nat.le_refl _⟩
      · obtain rfl := not_not.mp number
        rw [read_attrib_string source]
        exact same
    | cdata =>
      cases items : s.mCurNodeStack.items with
      | nil =>
        rw [read_outside k source items]
        exact same
      | cons back below =>
        have room := sound.room
        have reached := sound.reached
        rw [items] at room reached
        rw [read_cdata k source items] at defined ⊢
        refine ⟨⟨room, fun state member => ?_⟩, rfl, rfl, Nat.le_refl _⟩
        rcases List.mem_cons.mp member with rfl | member
        · exact (reached back (List.mem_cons_self ..)).readValue takes
            fun lost => defined (congrArg (Except.map _) lost)
        · exact reached state (List.mem_cons_of_mem _ member)

theorem front_of_mem_assign {lhs rhs : NodeStack} :
    ∀ state ∈ (lhs.assign rhs).items, state.cdataSource.rest = state.cdataSource.str := by
  intro state member
  rw [NodeStack.assign] at member
  split at member
  · obtain ⟨old, -, rfl⟩ := List.mem_map.mp member
    rfl
  · rcases List.mem_append.mp member with above | below
    · obtain ⟨old, -, rfl⟩ := List.mem_map.mp above
      rfl
    · rw [← List.map_uncurry_zip_eq_zipWith] at below
      obtain ⟨pair, -, rfl⟩ := List.mem_map.mp below
      rfl

theorem length_assign (lhs rhs : NodeStack) :
    (lhs.assign rhs).items.length = rhs.items.length := by
  rw [NodeStack.assign]
  split
  · exact List.length_map _
  · simp only [List.length_append, List.length_map, List.length_take, List.length_zipWith,
      List.length_drop]
    omega

theorem sound_popState {s t : XMLObjectReader} (popped : s.popState = some t) : Sound nt t := by
  rw [popState] at popped
  split at popped
  · cases popped
  · next new_state rest _ =>
    obtain rfl := Option.some.inj popped
    refine ⟨?_, fun state member => TextStream.reached_of_front (front_of_mem_assign state member)⟩
    rw [length_assign]
    simp only [NodeStack.assign]
    split
    · exact Nat.le_refl _
    · next room => exact Nat.not_lt.mp room

theorem onward_after (takes : nt.Takes) {s t : XMLObjectReader} (sound : Sound nt s)
    {asks : List Ask} (ended : (reader grow nt).after asks s = some t) : Onward s t := by
  have both := ObjectReader.after_induction (fun u => Sound nt u ∧ Onward s u)
    (fun u ask reached defined => by
      have step := sound_answer takes reached.1 ask defined
      exact ⟨step.1, reached.2.trans step.2⟩)
    ⟨sound, rfl, rfl, Nat.le_refl _⟩ ended
  exact both.2

/-- Whatever is done with a reader, it stays sound. -/
theorem sound_run (takes : nt.Takes) {root : XmlNode} {history : List Operation}
    {s : XMLObjectReader} (ran : run (operate grow nt) (ofRoot root) history = some s) :
    Sound nt s := by
  refine run_invariant (Sound nt) ?_ ?_ ran
  · intro s operation t sound operated
    cases operation with
    | ask a =>
      rw [operate] at operated
      split at operated
      · cases operated
      · next defined =>
        obtain rfl := Option.some.inj operated
        exact (sound_answer takes sound a defined).1
    | pushState =>
      obtain rfl := Option.some.inj operated
      exact ⟨sound.room, sound.reached⟩
    | popState => exact sound_popState operated
    | resetReading =>
      obtain rfl := Option.some.inj operated
      exact ⟨Nat.zero_le _, fun state member => absurd member List.not_mem_nil⟩
  · exact ⟨Nat.le_refl _, fun state member => absurd member List.not_mem_nil⟩

/-! ## Readers that are alike -/

theorem read_of_attrib {k : Kind} {s : XMLObjectReader} (source : s.mCurSource = .attrib) :
    read nt k s = ((TextStream.readAttrib nt k s.mAttribSource).1,
      { s with mAttribSource := (TextStream.readAttrib nt k s.mAttribSource).2 }) := by
  by_cases number : k ≠ .string
  · rw [read_attrib number source]
    cases k with
    | string => exact absurd rfl number
    | uint8 | uint16 | uint32 | uint64 | float | double | bool => rfl
  · obtain rfl := not_not.mp number
    rw [read_attrib_string source]
    rfl

theorem answer_attrib (k : Kind) {s : XMLObjectReader} (source : s.mCurSource = .attrib) :
    (reader grow nt).answer (.read k) s =
      (((attribReader nt).answer (.read k) s.mAttribSource).1,
        { s with mAttribSource := ((attribReader nt).answer (.read k) s.mAttribSource).2 }) := by
  rw [ObjectReader.answer_read, ObjectReader.answer_read]
  simp only [reader, attribReader, read_of_attrib source]

theorem answer_cdata (k : Kind) {s : XMLObjectReader} {back : NodeState}
    {below : List NodeState} (source : s.mCurSource = .cdata)
    (items : s.mCurNodeStack.items = back :: below) :
    (reader grow nt).answer (.read k) s =
      (((cdataReader nt).answer (.read k) back.cdataSource).1, s.withItems
        ({ back with cdataSource := ((cdataReader nt).answer (.read k) back.cdataSource).2 } ::
          below)) := by
  rw [ObjectReader.answer_read, ObjectReader.answer_read]
  simp only [reader, cdataReader, read_cdata k source items]

theorem answer_outside (k : Kind) {s : XMLObjectReader} (source : s.mCurSource = .cdata)
    (items : s.mCurNodeStack.items = []) :
    (reader grow nt).answer (.read k) s = (.error .undefined, s) := by
  rw [ObjectReader.answer_read]
  simp only [reader, read_outside k source items]
  rfl

/-- Two readers at the same place, as far as reads can tell. -/
structure Like (nt : NumberText) (x y : XMLObjectReader) : Prop where
  root : x.mRootNode = y.mRootNode
  capacity : x.mCurNodeStack.capacity = y.mCurNodeStack.capacity
  items : List.Forall₂ NodeState.Same x.mCurNodeStack.items y.mCurNodeStack.items
  source : x.mCurSource = y.mCurSource
  attrib : x.mCurSource = .attrib →
    (attribReader nt).Alike x.mAttribSource y.mAttribSource

theorem same_refl (state : NodeState) : state.Same state :=
  ⟨rfl, rfl, rfl, rfl, fun _ => rfl, fun _ => rfl⟩

theorem same_copy {a b : NodeState} (same : a.Same b) : a.copy = b.copy := by
  rw [NodeState.copy, NodeState.copy, same.node, same.nextChild, same.str]

theorem moved_same {grew : Prop} [Decidable grew] {xs ys : List NodeState}
    (same : List.Forall₂ NodeState.Same xs ys) :
    List.Forall₂ NodeState.Same (moved grew xs) (moved grew ys) := by
  unfold moved
  split
  · induction same with
    | nil => exact List.Forall₂.nil
    | cons first _ ih => exact List.Forall₂.cons (same_copy first ▸ same_refl _) ih
  · exact same

variable (grow) in
theorem like_pushBack {x y : XMLObjectReader} (like : Like nt x y) {xs ys : List NodeState}
    (same : List.Forall₂ NodeState.Same xs ys) (node : XmlNode) :
    Like nt { x with mCurNodeStack :=
        { x.mCurNodeStack with items := xs }.pushBack grow (.ofNode node) }
      { y with mCurNodeStack :=
        { y.mCurNodeStack with items := ys }.pushBack grow (.ofNode node) } := by
  rw [pushBack_items, pushBack_items]
  refine ⟨like.root, ?_, List.Forall₂.cons (same_refl _) ?_, like.source, like.attrib⟩
  · simp only [same.length_eq, like.capacity]
  · simp only [same.length_eq, like.capacity]
    exact moved_same same

section Answers

variable {x y : XMLObjectReader}

/-- The stacks of both readers have the same height. -/
theorem Like.stacks (like : Like nt x y) :
    (x.mCurNodeStack.items = [] ∧ y.mCurNodeStack.items = []) ∨
      ∃ back below back' below', x.mCurNodeStack.items = back :: below ∧
        y.mCurNodeStack.items = back' :: below' ∧ back.Same back' ∧
        List.Forall₂ NodeState.Same below below' := by
  have items := like.items
  cases xs : x.mCurNodeStack.items with
  | nil =>
    rw [xs] at items
    exact Or.inl ⟨rfl, List.forall₂_nil_left_iff.mp items⟩
  | cons back below =>
    rw [xs] at items
    obtain ⟨back', below', same, rest, ys⟩ := List.forall₂_cons_left_iff.mp items
    exact Or.inr ⟨back, below, back', below', rfl, ys, same, rest⟩

/-- The results are the same, and the readers stay alike. -/
def SameAnswer (nt : NumberText)
    (left right : Except Fault (List Value) × XMLObjectReader) : Prop :=
  left.1 = right.1 ∧ (left.1 ≠ .error .undefined → Like nt left.2 right.2)

variable (grow) in
theorem sameAnswer_beginTag (like : Like nt x y) (tagName : String) :
    SameAnswer nt ((reader grow nt).answer (.beginTag tagName) x)
      ((reader grow nt).answer (.beginTag tagName) y) := by
  have items := like.items
  simp only [ObjectReader.answer_beginTag, reader, beginTag]
  obtain ⟨xs, ys⟩ | ⟨back, below, back', below', xs, ys, same, rest⟩ := like.stacks
  · have pushed := like_pushBack grow like items x.mRootNode
    rw [like.root] at pushed
    rw [xs, ys, like.root]
    exact ⟨rfl, fun _ => pushed⟩
  · rw [xs, ys]
    simp only [← same.nextChild]
    cases back.nextChild with
    | nil => exact ⟨rfl, fun _ => like⟩
    | cons tag_node kids =>
      refine ⟨rfl, fun _ => like_pushBack grow like (List.Forall₂.cons ?_ rest) tag_node⟩
      exact ⟨same.node, rfl, same.str, same.stream⟩

variable (grow) in
theorem sameAnswer_endTag (like : Like nt x y) :
    SameAnswer nt ((reader grow nt).answer .endTag x) ((reader grow nt).answer .endTag y) := by
  simp only [ObjectReader.answer_endTag, reader, endTag]
  obtain ⟨xs, ys⟩ | ⟨back, below, back', below', xs, ys, same, rest⟩ := like.stacks
  · rw [xs, ys]
    exact ⟨rfl, fun _ => like⟩
  · rw [xs, ys]
    exact ⟨rfl, fun _ => ⟨like.root, like.capacity, rest, like.source, like.attrib⟩⟩

variable (grow) in
theorem sameAnswer_beginAttribute (like : Like nt x y) (attributeName : String) :
    SameAnswer nt ((reader grow nt).answer (.beginAttribute attributeName) x)
      ((reader grow nt).answer (.beginAttribute attributeName) y) := by
  simp only [ObjectReader.answer_beginAttribute, reader, beginAttribute]
  obtain ⟨xs, ys⟩ | ⟨back, below, back', below', xs, ys, same, rest⟩ := like.stacks
  · rw [xs, ys]
    exact ⟨rfl, fun _ => like⟩
  · rw [xs, ys]
    refine ⟨rfl, fun _ => ⟨like.root, like.capacity, like.items, rfl, fun _ => ?_⟩⟩
    -- the attribute source begins with the content of the attribute, whatever it was
    have began : (x.mAttribSource.clear.setStr (back.node.getAttribute attributeName)).seekBeg =
        (y.mAttribSource.clear.setStr (back'.node.getAttribute attributeName)).seekBeg := by
      rw [same.node]
      rfl
    dsimp only
    rw [began]
    exact ObjectReader.alike_refl _

variable (grow) in
theorem sameAnswer_read (like : Like nt x y) (k : Kind) :
    SameAnswer nt ((reader grow nt).answer (.read k) x) ((reader grow nt).answer (.read k) y) := by
  cases source : x.mCurSource with
  | attrib =>
    have source' := like.source.symm.trans source
    have alike := like.attrib source
    rw [answer_attrib k source, answer_attrib k source']
    exact ⟨alike.answer (.read k), fun defined =>
      ⟨like.root, like.capacity, like.items, like.source, fun _ => alike.later defined⟩⟩
  | cdata =>
    have source' := like.source.symm.trans source
    obtain ⟨xs, ys⟩ | ⟨back, below, back', below', xs, ys, same, rest⟩ := like.stacks
    · rw [answer_outside k source xs, answer_outside k source' ys]
      exact ⟨rfl, fun _ => like⟩
    · rw [answer_cdata k source xs, answer_cdata k source' ys, ObjectReader.answer_read,
        ObjectReader.answer_read]
      obtain ⟨result, later⟩ := same.stream.readValue nt k
      refine ⟨congrArg (Except.map _) result, fun defined => ?_⟩
      refine ⟨like.root, like.capacity, List.Forall₂.cons ?_ rest, like.source, like.attrib⟩
      refine ⟨same.node, same.nextChild, ?_, later fun lost => defined ?_⟩
      · simp only [cdataReader, TextStream.readValue_str, same.str]
      · exact congrArg (Except.map _) lost

/-- A call has the same result on both, and they stay alike. -/
theorem like_answer (like : Like nt x y) (ask : Ask) :
    SameAnswer nt ((reader grow nt).answer ask x) ((reader grow nt).answer ask y) := by
  cases ask with
  | beginTag tagName => exact sameAnswer_beginTag grow like tagName
  | endTag => exact sameAnswer_endTag grow like
  | beginAttribute attributeName => exact sameAnswer_beginAttribute grow like attributeName
  | endAttribute =>
    refine ⟨rfl, fun _ => ⟨like.root, like.capacity, like.items, rfl, fun outside => ?_⟩⟩
    cases outside
  | read k => exact sameAnswer_read grow like k

end Answers

theorem alike_of_like {x y : XMLObjectReader} (like : Like nt x y) :
    (reader grow nt).Alike x y :=
  ObjectReader.alike_of_related (Like nt) (fun _ _ ask like => like_answer like ask) like

/-! ## Readers that can be told apart -/

variable (grow) in
/-- Reads of the last open element are reads of its stream. -/
theorem results_cdata {s : XMLObjectReader} {back : NodeState} {below : List NodeState}
    (source : s.mCurSource = .cdata) (items : s.mCurNodeStack.items = back :: below)
    (kinds : List Kind) :
    (reader grow nt).results (kinds.map Ask.read) s =
      (cdataReader nt).results (kinds.map Ask.read) back.cdataSource := by
  induction kinds generalizing s back with
  | nil => rfl
  | cons k kinds ih =>
    let next := ((cdataReader nt).answer (.read k) back.cdataSource).2
    rw [List.map_cons, ObjectReader.results, ObjectReader.results, answer_cdata k source items]
    split
    · rfl
    · exact congrArg _
        (ih (s := s.withItems ({ back with cdataSource := next } :: below)) source rfl)

theorem after_cdata {s t : XMLObjectReader} {back : NodeState} {below : List NodeState}
    (source : s.mCurSource = .cdata) (items : s.mCurNodeStack.items = back :: below)
    {kinds : List Kind} (ended : (reader grow nt).after (kinds.map Ask.read) s = some t) :
    ∃ src, (cdataReader nt).after (kinds.map Ask.read) back.cdataSource = some src := by
  induction kinds generalizing s back with
  | nil => exact ⟨back.cdataSource, rfl⟩
  | cons k kinds ih =>
    obtain ⟨defined, later⟩ := ObjectReader.after_cons.mp ended
    rw [answer_cdata k source items] at defined later
    let next := ((cdataReader nt).answer (.read k) back.cdataSource).2
    obtain ⟨src, ended⟩ :=
      ih (s := s.withItems ({ back with cdataSource := next } :: below)) source rfl later
    exact ⟨src, ObjectReader.after_cons.mpr ⟨defined, ended⟩⟩

variable (grow) in
/-- Reads within an attribute are reads of its stream. -/
theorem results_attrib {s : XMLObjectReader} (source : s.mCurSource = .attrib)
    (kinds : List Kind) :
    (reader grow nt).results (kinds.map Ask.read) s =
      (attribReader nt).results (kinds.map Ask.read) s.mAttribSource := by
  induction kinds generalizing s with
  | nil => rfl
  | cons k kinds ih =>
    rw [List.map_cons, ObjectReader.results, ObjectReader.results, answer_attrib k source]
    split
    · rfl
    · exact congrArg _ (ih (s := { s with
        mAttribSource := ((attribReader nt).answer (.read k) s.mAttribSource).2 }) source)

/-- Within an attribute strings can be read for ever. -/
theorem after_strings_attrib {s : XMLObjectReader} (source : s.mCurSource = .attrib) (n : Nat) :
    (reader grow nt).after ((List.replicate n Kind.string).map Ask.read) s = some s := by
  induction n with
  | zero => rfl
  | succ n ih =>
    have read : (reader grow nt).answer (.read .string) s =
        (.ok [⟨.string, s.mAttribSource.str⟩], s) := by
      rw [answer_attrib .string source, ObjectReader.answer_read]
      rfl
    refine ObjectReader.after_cons.mpr ⟨?_, ?_⟩
    · rw [read]
      exact fun lost => by cases lost
    · rw [read]
      exact ih

theorem source_of_alike {x y : XMLObjectReader} (alike : (reader grow nt).Alike x y)
    (source : x.mCurSource = .attrib) : y.mCurSource = .attrib := by
  cases source' : y.mCurSource with
  | attrib => rfl
  | cdata =>
    exfalso
    cases items : y.mCurNodeStack.items with
    | nil =>
      obtain ⟨t, ended, -⟩ := alike.after (after_strings_attrib source 1)
      obtain ⟨defined, -⟩ := ObjectReader.after_cons.mp ended
      exact defined (by rw [answer_outside .string source' items])
    | cons back below =>
      -- as many strings as there are characters, and one more
      obtain ⟨t, ended, -⟩ :=
        alike.after (after_strings_attrib source (back.cdataSource.rest.length + 1))
      obtain ⟨src, ended⟩ := after_cdata source' items ended
      have shorter := TextStream.after_strings_shorter ended
      omega

theorem after_endTags {s : XMLObjectReader} {m : Nat}
    (open' : m ≤ s.mCurNodeStack.items.length) :
    (reader grow nt).after (List.replicate m .endTag) s =
      some (s.withItems (s.mCurNodeStack.items.drop m)) := by
  induction m generalizing s with
  | zero => rfl
  | succ m ih =>
    cases items : s.mCurNodeStack.items with
    | nil =>
      rw [items] at open'
      exact absurd open' (Nat.not_succ_le_zero m)
    | cons back below =>
      rw [items] at open'
      have ended : (reader grow nt).answer .endTag s = (.ok [], s.withItems below) := by
        simp only [ObjectReader.answer_endTag, reader, endTag, items]
        rfl
      refine ObjectReader.after_cons.mpr ⟨?_, ?_⟩
      · rw [ended]
        exact fun lost => by cases lost
      · rw [ended, ih (s := s.withItems below) (Nat.le_of_succ_le_succ open')]
        rfl

variable (grow nt) in
/-- Leave an attribute, and as many elements. -/
theorem after_leaving {s : XMLObjectReader} {m : Nat}
    (open' : m ≤ s.mCurNodeStack.items.length) :
    ∃ t, (reader grow nt).after (.endAttribute :: List.replicate m .endTag) s = some t ∧
      t.mCurSource = .cdata ∧ t.mCurNodeStack.items = s.mCurNodeStack.items.drop m := by
  let outside : XMLObjectReader := { s with
    mAttribSource := s.mAttribSource.clear.seekBeg.setStr []
    mCurSource := .cdata }
  have left : (reader grow nt).answer .endAttribute s = (.ok [], outside) := rfl
  refine ⟨outside.withItems (s.mCurNodeStack.items.drop m),
    ObjectReader.after_cons.mpr ⟨?_, ?_⟩, rfl, rfl⟩
  · rw [left]
    exact fun lost => by cases lost
  · rw [left]
    exact after_endTags open'

/-- The streams of the open elements, the first one at the bottom, are alike. -/
theorem streams_of_alike {x y : XMLObjectReader} (alike : (reader grow nt).Alike x y)
    (length : x.mCurNodeStack.items.length = y.mCurNodeStack.items.length) {j : Nat}
    {a b : NodeState} (first : x.mCurNodeStack.items.reverse[j]? = some a)
    (second : y.mCurNodeStack.items.reverse[j]? = some b) :
    (cdataReader nt).Alike a.cdataSource b.cdataSource := by
  have drops {items : List NodeState} {state : NodeState}
      (found : items.reverse[j]? = some state) :
      j < items.length ∧ ∃ below, items.drop (items.length - 1 - j) = state :: below := by
    have inside : j < items.length := by
      simpa only [List.length_reverse] using (List.getElem?_eq_some_iff.mp found).1
    rw [List.getElem?_reverse inside] at found
    obtain ⟨bound, value⟩ := List.getElem?_eq_some_iff.mp found
    exact ⟨inside, _, value ▸ List.drop_eq_getElem_cons bound⟩
  obtain ⟨inside, below, top⟩ := drops first
  obtain ⟨inside', below', top'⟩ := drops second
  obtain ⟨x', ended, source, items⟩ := after_leaving grow nt (s := x)
    (m := x.mCurNodeStack.items.length - 1 - j) (by omega)
  obtain ⟨y', ended', source', items'⟩ := after_leaving grow nt (s := y)
    (m := y.mCurNodeStack.items.length - 1 - j) (by omega)
  obtain ⟨v, later, alike'⟩ := alike.after ended
  rw [length, ended'] at later
  obtain rfl := Option.some.inj later
  refine ObjectReader.alike_of_reads TextStream.onlyReads_cdataReader fun kinds => ?_
  rw [← results_cdata grow source (items.trans top) kinds,
    ← results_cdata grow source' (items'.trans top') kinds]
  exact alike' _

/-! ## Saving and restoring -/

/-- The reader with a stack that has moved to another place. -/
def withCapacity (s : XMLObjectReader) (capacity : Nat) : XMLObjectReader :=
  { s with mCurNodeStack := { s.mCurNodeStack with capacity } }

/-- What `popState` does not restore is as it was at `pushState`: the current source, within
an attribute what is still to be read of it, and for each element that was open the flags
of the stream that takes its text; unless these are set, nothing was read from it. -/
structure Kept (nt : NumberText) (s t : XMLObjectReader) : Prop where
  source : t.mCurSource = s.mCurSource
  attrib : s.mCurSource = .attrib →
    (attribReader nt).Alike t.mAttribSource s.mAttribSource
  streams : ∀ j state, s.mCurNodeStack.items.reverse[j]? = some state →
    ((t.mCurNodeStack.streamAt j).setStr state.cdataSource.str).Same state.cdataSource

/-- The reader behind `popState`, given the one at `pushState`. -/
def restored (s t : XMLObjectReader) : XMLObjectReader :=
  { t with
    mReadStateStack := s.mReadStateStack
    mCurNodeStack := t.mCurNodeStack.assign s.mCurNodeStack.copy.copy }

section Restored

variable {s t : XMLObjectReader}

theorem restored_items (room : s.mCurNodeStack.items.length ≤ t.mCurNodeStack.capacity)
    (j : Nat) :
    (restored s t).mCurNodeStack.items.reverse[j]? =
      s.mCurNodeStack.items.reverse[j]?.map fun state => { state with
        cdataSource := (t.mCurNodeStack.streamAt j).setStr state.cdataSource.str } := by
  have saved : s.mCurNodeStack.copy.items.length ≤ t.mCurNodeStack.capacity := by
    rwa [NodeStack.copy, List.length_map]
  rw [restored, NodeStack.assign_items saved, NodeStack.copy, ← List.map_reverse,
    List.getElem?_map, Option.map_map]
  rfl

/-- If all of that was kept, the reader is where it was, on a stack that may have moved. -/
theorem like_restored (kept : Kept nt s t) (onward : Onward s.pushState t)
    (room : s.mCurNodeStack.items.length ≤ t.mCurNodeStack.capacity) :
    Like nt (restored s t) (s.withCapacity t.mCurNodeStack.capacity) := by
  refine ⟨onward.root, ?_, ?_, kept.source, fun source => kept.attrib ?_⟩
  · have enough : ¬ t.mCurNodeStack.capacity < s.mCurNodeStack.copy.copy.items.length := by
      simpa [NodeStack.copy] using room
    rw [restored, NodeStack.assign, if_neg enough]
    rfl
  · rw [← List.forall₂_reverse_iff, List.forall₂_iff_get]
    refine ⟨by simp only [List.length_reverse, restored, length_assign, NodeStack.copy,
      List.length_map, withCapacity], fun j first second => ?_⟩
    have here := restored_items room j
    have there : s.mCurNodeStack.items.reverse[j]? = _ := List.getElem?_eq_getElem second
    rw [List.getElem?_eq_getElem first, there, Option.map_some] at here
    have streams := kept.streams j _ there
    rw [List.get_eq_getElem, List.get_eq_getElem, Option.some.inj here]
    exact ⟨rfl, rfl, rfl, streams⟩
  · exact kept.source.symm.trans source

/-- A reader that is alike has kept all of it. -/
theorem kept_of_alike (takes : nt.Takes) (sound : Sound nt s)
    (room : s.mCurNodeStack.items.length ≤ t.mCurNodeStack.capacity)
    (alike : (reader grow nt).Alike (restored s t) s) : Kept nt s t := by
  have source : (restored s t).mCurSource = s.mCurSource := by
    cases here : (restored s t).mCurSource with
    | attrib => exact (source_of_alike alike here).symm
    | cdata =>
      cases there : s.mCurSource with
      | cdata => rfl
      | attrib => exact absurd (here.symm.trans (source_of_alike alike.symm there)) (by decide)
  refine ⟨source, fun inside => ?_, fun j state found => ?_⟩
  · refine ObjectReader.alike_of_reads TextStream.onlyReads_attribReader fun kinds => ?_
    have reads := alike (kinds.map Ask.read)
    rw [results_attrib grow (source.trans inside), results_attrib grow inside] at reads
    exact reads
  · have first := restored_items room j
    rw [found, Option.map_some] at first
    refine TextStream.same_of_alike takes ?_ (streams_of_alike alike ?_ first found)
    · exact sound.reached state (List.mem_reverse.mp (List.mem_of_getElem? found))
    · simp only [restored, length_assign, NodeStack.copy, List.length_map]

end Restored

/-- Saving and restoring, from any state that a reader can be in and around any reads: the
reader is where it was exactly when `popState` did not need to restore more than it does,
and it makes no difference that the stack has moved meanwhile. -/
theorem popState_restores_iff (grow : Nat → Nat) (nt : NumberText) (takes : nt.Takes)
    (root : XmlNode) (history : List Operation) (s t : XMLObjectReader)
    (before : run (operate grow nt) (ofRoot root) history = some s) (reads : List Ask)
    (between : (reader grow nt).after reads s.pushState = some t) :
    ∃ u, t.popState = some u ∧
      ((reader grow nt).Alike u s ↔
        Kept nt s t ∧ (reader grow nt).Alike (s.withCapacity t.mCurNodeStack.capacity) s) := by
  have sound := sound_run takes before
  have onward : Onward s.pushState t := onward_after takes ⟨sound.room, sound.reached⟩ between
  have room : s.mCurNodeStack.items.length ≤ t.mCurNodeStack.capacity :=
    Nat.le_trans sound.room onward.capacity
  refine ⟨restored s t, ?_, ?_⟩
  · rw [popState, onward.states]
    rfl
  · constructor
    · intro alike
      have kept := kept_of_alike takes sound room alike
      exact ⟨kept, (alike_of_like (like_restored kept onward room)).symm.trans alike⟩
    · rintro ⟨kept, moved⟩
      exact (alike_of_like (like_restored kept onward room)).trans moved

/-- An element with a value and a child element. -/
def sampleNode : XmlNode := .mk "a" [] [53] [.mk "b" [] [54] []]

/-- The reader in front of the value. -/
def sampleSaved : XMLObjectReader where
  mRootNode := sampleNode
  mCurNodeStack := { items := [.ofNode sampleNode], capacity := 1 }
  mAttribSource := .ofStr []
  mCurSource := .cdata
  mReadStateStack := []

/-- The reader behind the child element. -/
def sampleRead : XMLObjectReader where
  mRootNode := sampleNode
  mCurNodeStack :=
    { items := [{ NodeState.ofNode sampleNode with nextChild := [] }], capacity := 2 }
  mAttribSource := .ofStr []
  mCurSource := .cdata
  mReadStateStack := [sampleSaved.mCurNodeStack]

theorem popState_restores_iff_sampleNode :
    ∃ u, sampleRead.popState = some u ∧
      ((reader double decimalText).Alike u sampleSaved ↔
        Kept decimalText sampleSaved sampleRead ∧
          (reader double decimalText).Alike
            (sampleSaved.withCapacity sampleRead.mCurNodeStack.capacity) sampleSaved) :=
  popState_restores_iff double decimalText takes_decimalText sampleNode [.ask (.beginTag "a")]
    sampleSaved sampleRead rfl [.beginTag "b", .read .uint8, .endTag] rfl

/-- The only value of an element is read once, between `pushState` and `popState`, and not
again. -/
theorem popState_restores_fails :
    ∃ s t u, run (operate double decimalText) (ofRoot (.mk "a" [] [53] []))
        [.ask (.beginTag "a")] = some s ∧
      (reader double decimalText).after [.read .uint8] s.pushState = some t ∧
      t.popState = some u ∧ ¬ (reader double decimalText).Alike u s := by
  refine ⟨_, _, _, rfl, rfl, rfl, fun alike => ?_⟩
  have reads := alike [.read .uint8]
  revert reads
  decide

end XMLObjectReader

end VRJuggler.Io
