import VRJuggler.Io.DecimalText

/-!
# The XML round trip

An `XMLObjectReader` answers the calls with which a document was written with the values
that were written, as long as each text can be read back, and as long as the stack of node
states does not move to a larger place while an element around is half read: the copies of
node states begin again at the front of their character data.
-/
namespace VRJuggler.Io

/-! ## The place of the stack -/

section Steady

variable (grow : Nat → Nat)

/-- The capacity after an element is pushed onto a stack of `depth` elements. -/
def pushed (depth capacity : Nat) : Nat :=
  if depth < capacity then capacity else max (depth + 1) (grow capacity)

namespace Content

/-- The capacity once the content of the last of `depth` open elements is read. -/
def capacityAfter : Content → (depth capacity : Nat) → Nat
  | nil, _, capacity => capacity
  | value _ _ rest, depth, capacity => rest.capacityAfter depth capacity
  | attrib _ _ rest, depth, capacity => rest.capacityAfter depth capacity
  | child _ inner rest, depth, capacity =>
    rest.capacityAfter depth (inner.capacityAfter (depth + 1) (pushed grow depth capacity))

/-- Where the stack grows, no element that is open and has been read from has values that
are still to come. `read` says so of the last of `depth` open elements. -/
def Steady : Content → (depth capacity : Nat) → (read : Bool) → Prop
  | nil, _, _, _ => True
  | value _ _ rest, depth, capacity, _ => rest.Steady depth capacity true
  | attrib _ _ rest, depth, capacity, read => rest.Steady depth capacity read
  | child _ inner rest, depth, capacity, read =>
    inner.Steady (depth + 1) (pushed grow depth capacity) false ∧
      (inner.capacityAfter grow (depth + 1) (pushed grow depth capacity) ≠ capacity →
        read = true → ¬ rest.HasValue) ∧
      rest.Steady depth (inner.capacityAfter grow (depth + 1) (pushed grow depth capacity)) read

end Content

theorem le_pushed {depth capacity : Nat} (room : depth ≤ capacity) :
    capacity ≤ pushed grow depth capacity := by
  unfold pushed
  split <;> omega

theorem lt_pushed (depth capacity : Nat) : depth < pushed grow depth capacity := by
  unfold pushed
  split <;> omega

/-- The capacity never becomes smaller. -/
theorem Content.le_capacityAfter (c : Content) {depth capacity : Nat}
    (room : depth ≤ capacity) : capacity ≤ c.capacityAfter grow depth capacity := by
  induction c generalizing depth capacity with
  | nil => exact le_rfl
  | value k val rest ih => exact ih room
  | attrib attributeName vals rest ih => exact ih room
  | child tagName inner rest ihInner ih =>
    have here := le_pushed grow room
    have inside := ihInner (lt_pushed grow depth capacity)
    exact Nat.le_trans (Nat.le_trans here inside)
      (ih (Nat.le_trans room (Nat.le_trans here inside)))

/-- There are no child elements. -/
def Content.Childless : Content → Prop
  | nil => True
  | value _ _ rest => rest.Childless
  | attrib _ _ rest => rest.Childless
  | child .. => False

/-- No element has child elements behind a value. -/
def Content.Layered : Content → Prop
  | nil => True
  | value _ _ rest => rest.Childless
  | attrib _ _ rest => rest.Layered
  | child _ inner rest => inner.Layered ∧ rest.Layered

theorem Content.steady_of_childless {c : Content} (childless : c.Childless)
    (depth capacity : Nat) (read : Bool) : c.Steady grow depth capacity read := by
  induction c generalizing read with
  | nil => trivial
  | value k val rest ih => exact ih childless true
  | attrib attributeName vals rest ih => exact ih childless read
  | child tagName inner rest _ _ => exact childless.elim

/-- Then it does not matter where the stack grows. -/
theorem Content.steady_of_layered {c : Content} (layered : c.Layered) (depth capacity : Nat) :
    c.Steady grow depth capacity false := by
  induction c generalizing depth capacity with
  | nil => trivial
  | value k val rest _ => exact steady_of_childless grow layered depth capacity true
  | attrib attributeName vals rest ih => exact ih layered depth capacity
  | child tagName inner rest ihInner ih =>
    exact ⟨ihInner layered.1 _ _, fun _ read => absurd read Bool.false_ne_true,
      ih layered.2 _ _⟩

end Steady

/-! ## Texts that are read -/

section Texts

variable {nt : NumberText}

theorem boundary_tail (c : Content) : Boundary (c.tail nt true) := by
  induction c with
  | nil => exact Or.inl rfl
  | value k val rest => exact Or.inr rfl
  | attrib attributeName vals rest ih => exact ih
  | child tagName inner rest _ ih => exact ih

theorem tail_ne_nil {c : Content} (more : c.HasValue) : c.tail nt true ≠ [] := by
  induction c with
  | nil => exact more.elim
  | value k val rest => exact List.cons_ne_nil _ _
  | attrib attributeName vals rest ih => exact ih more
  | child tagName inner rest _ ih => exact ih more

/-- The blank in front of a value, when there are values before it. -/
theorem separator_of (read : Bool) : TextStream.Separator (if read then [blank] else []) := by
  cases read with
  | false => exact Or.inl rfl
  | true => exact Or.inr rfl

end Texts

namespace TextStream

variable (nt : NumberText)

/-- What `XMLObjectReader` does to the stream to read a value, a string within quotes. -/
def readValue : (k : Kind) → Reading TextStream k.Carrier
  | .uint8 => do
    let temp_data ← readValueStringRep nt .uint16
    pure temp_data.toUInt8
  | .uint16 => readValueStringRep nt .uint16
  | .uint32 => readValueStringRep nt .uint32
  | .uint64 => readValueStringRep nt .uint64
  | .float => readValueStringRep nt .float
  | .double => readValueStringRep nt .double
  | .bool => readValueStringRep nt .bool
  | .string => readQuoted

variable {nt}

/-- A stream from which `rest` can be read. -/
def Ready (src : TextStream) (rest : Text) : Prop :=
  src.fail = false ∧ src.eof = false ∧ src.rest = rest

/-- The value is read, and what follows it can be read as well. -/
theorem readValue_put (integers : nt.Integers) {k : Kind} {val : k.Carrier}
    (legible : ValueLegible nt k val) {src : TextStream} {sep rest : Text}
    (ready : src.Ready (sep ++ (valueText nt k val ++ rest))) (separator : Separator sep)
    (boundary : Boundary rest) :
    ∃ src', readValue nt k src = (.ok val, src') ∧ src'.str = src.str ∧
      (rest ≠ [] → src'.Ready rest) := by
  have number {k : Kind} {val : k.Carrier} (survives : nt.Survives k val)
      (text : src.rest = sep ++ (nt.put k val ++ rest)) :
      ∃ src', readValueStringRep nt k src = (.ok val, src') ∧ src'.str = src.str ∧
        (rest ≠ [] → src'.Ready rest) := by
    refine ⟨_, readValueStringRep_put survives ⟨ready.1, ready.2.1⟩ separator boundary text,
      rfl, ?_⟩
    intro more
    exact ⟨ready.1, List.isEmpty_eq_false_iff.mpr more, rfl⟩
  cases k with
  | uint8 =>
    obtain ⟨src', here, same, later⟩ := number (integers.uint16 val.toUInt16) ready.2.2
    refine ⟨src', ?_, same, later⟩
    rw [readValue, Reading.bind_of_ok here, Reading.pure_apply, UInt8.toUInt8_toUInt16]
  | uint16 => exact number (integers.uint16 val) ready.2.2
  | uint32 => exact number (integers.uint32 val) ready.2.2
  | uint64 => exact number (integers.uint64 val) ready.2.2
  | bool => exact number (integers.bool val) ready.2.2
  | float => exact number legible ready.2.2
  | double => exact number legible ready.2.2
  | string =>
    have text : src.rest = sep ++ quote :: (val ++ quote :: rest) := by
      rw [ready.2.2, valueText, List.cons_append, List.append_assoc, List.singleton_append]
    refine ⟨_, readQuoted_plain legible ⟨ready.1, ready.2.1⟩ separator text, rfl, ?_⟩
    intro _
    exact ⟨ready.1, ready.2.1, rfl⟩

end TextStream

namespace XMLObjectReader

/-! ## One call -/

/-- The reader with other node states on its stack. -/
def withItems (s : XMLObjectReader) (items : List NodeState) : XMLObjectReader :=
  { s with mCurNodeStack := { s.mCurNodeStack with items } }

variable {nt : NumberText} {s : XMLObjectReader}

theorem onSource_cdata {α : Type} (m : Reading TextStream α) {back : NodeState}
    {below : List NodeState} (items : s.mCurNodeStack.items = back :: below) :
    onSource .cdata m s = ((m back.cdataSource).1,
      s.withItems ({ back with cdataSource := (m back.cdataSource).2 } :: below)) := by
  rw [onSource, items]
  rfl

/-- A number is read from the current source. -/
theorem read_number {k : Kind} (number : k ≠ .string) :
    read nt k s = onSource s.mCurSource (TextStream.readValue nt k) s := by
  cases k with
  | string => exact absurd rfl number
  | uint16 | uint32 | uint64 | float | double | bool => rfl
  | uint8 =>
    -- the conversion follows the access to the source
    have parts : read nt .uint8 s =
        (onSource s.mCurSource (TextStream.readValueStringRep nt .uint16) >>= fun temp_data =>
          (pure temp_data.toUInt8 : Reading XMLObjectReader UInt8)) s := rfl
    rw [parts, Reading.bind_apply]
    cases source : s.mCurSource with
    | attrib =>
      simp only [onSource, TextStream.readValue, Reading.bind_apply]
      rcases TextStream.readValueStringRep nt .uint16 s.mAttribSource with ⟨_ | _, _⟩ <;> rfl
    | cdata =>
      cases items : s.mCurNodeStack.items with
      | nil => simp only [onSource, items]
      | cons back below =>
        simp only [onSource, items, TextStream.readValue, Reading.bind_apply]
        rcases TextStream.readValueStringRep nt .uint16 back.cdataSource with ⟨_ | _, _⟩ <;> rfl

/-- Outside of attributes every value is read from the character data. -/
theorem read_eq_onSource (k : Kind) (source : s.mCurSource = .cdata) :
    read nt k s = onSource .cdata (TextStream.readValue nt k) s := by
  by_cases number : k ≠ .string
  · rw [read_number number, source]
  · obtain rfl := not_not.mp number
    simp only [read, readString, Reading.bind_apply, Reading.get_apply, source]
    rfl

theorem read_cdata (k : Kind) {back : NodeState} {below : List NodeState}
    (source : s.mCurSource = .cdata) (items : s.mCurNodeStack.items = back :: below) :
    read nt k s = ((TextStream.readValue nt k back.cdataSource).1, s.withItems
      ({ back with cdataSource := (TextStream.readValue nt k back.cdataSource).2 } :: below)) := by
  rw [read_eq_onSource k source, onSource_cdata _ items]

theorem read_outside (k : Kind) (source : s.mCurSource = .cdata)
    (items : s.mCurNodeStack.items = []) : read nt k s = (.error .undefined, s) := by
  rw [read_eq_onSource k source, onSource, items]

theorem read_attrib {k : Kind} (number : k ≠ .string) (source : s.mCurSource = .attrib) :
    read nt k s = ((TextStream.readValue nt k s.mAttribSource).1,
      { s with mAttribSource := (TextStream.readValue nt k s.mAttribSource).2 }) := by
  have sourced : read nt k s = onSource .attrib (TextStream.readValue nt k) s := by
    rw [read_number number, source]
  rw [sourced, onSource]

theorem read_attrib_string (source : s.mCurSource = .attrib) :
    read nt .string s = (.ok s.mAttribSource.str, s) := by
  simp only [read, readString, Reading.bind_apply, Reading.get_apply, source]
  rfl

/-! ## Attributes -/

variable (grow : Nat → Nat)

theorem replays_numbers (integers : nt.Integers) {vals : List Value}
    (legible : ∀ v ∈ vals, v.kind ≠ .string ∧ ValueLegible nt v.kind v.val) {more : Text}
    (boundary : Boundary more) (before : Bool) (source : s.mCurSource = .attrib)
    (ready : vals ≠ [] → s.mAttribSource.Ready (valuesTail nt before vals ++ more)) :
    ∃ src, (reader grow nt).Replays s (vals.map Value.write) { s with mAttribSource := src } := by
  induction vals generalizing s before with
  | nil => exact ⟨s.mAttribSource, rfl⟩
  | cons v vals ih =>
    have now := legible v (List.mem_cons_self ..)
    have behind : Boundary (valuesTail nt true vals ++ more) := by
      cases vals with
      | nil => exact boundary
      | cons u vals => exact Or.inr rfl
    have text := ready (List.cons_ne_nil _ _)
    rw [valuesTail, List.append_assoc, List.append_assoc] at text
    obtain ⟨src, here, -, later⟩ :=
      TextStream.readValue_put integers now.2 text (separator_of before) behind
    have rest : vals ≠ [] → src.Ready (valuesTail nt true vals ++ more) := by
      intro some'
      apply later
      cases vals with
      | nil => exact absurd rfl some'
      | cons u vals => exact List.cons_ne_nil _ _
    obtain ⟨last, replays⟩ := ih (s := { s with mAttribSource := src })
      (fun u member => legible u (List.mem_cons_of_mem _ member)) true source rest
    exact ⟨last, _, (read_attrib now.1 source).trans (by rw [here]), replays⟩

/-- The values of an attribute, from `beginAttribute` on. -/
theorem replays_vals (integers : nt.Integers) {vals : List Value}
    (legible : AttributeLegible nt vals) {text : Text} (reads : AttributeReads nt vals text)
    (source : s.mCurSource = .attrib) (given : s.mAttribSource = .ofStr text) :
    ∃ src, (reader grow nt).Replays s (vals.map Value.write) { s with mAttribSource := src } := by
  have string (val : Text) (content : text = val) :
      read nt .string s = (.ok val, s) := by
    rw [read_attrib_string source, given, TextStream.ofStr, content]
  rcases legible with numbers | ⟨val, rfl⟩ | empty
  · have split : vals ≠ [] → ∃ more, Boundary more ∧ text = valuesTail nt false vals ++ more := by
      intro some'
      rw [← attributeText_numbers fun v member => (numbers v member).1]
      rcases reads with whole | ⟨-, none | ⟨more, longer⟩⟩
      · exact ⟨[], Or.inl rfl, by rw [whole, List.append_nil]⟩
      · exact absurd none some'
      · exact ⟨blank :: more, Or.inr rfl, longer⟩
    cases vals with
    | nil => exact ⟨s.mAttribSource, rfl⟩
    | cons v vals =>
      obtain ⟨more, boundary, whole⟩ := split (List.cons_ne_nil _ _)
      refine replays_numbers grow integers numbers boundary false source fun _ => ?_
      rw [given, whole]
      exact ⟨rfl, rfl, rfl⟩
  · rcases reads with whole | ⟨numbers, -⟩
    · exact ⟨s.mAttribSource, s, string val (whole.trans rfl), rfl⟩
    · exact absurd rfl (numbers _ (List.mem_singleton_self _))
  · refine ⟨s.mAttribSource, ?_⟩
    have none : vals ≠ [] → text = [] := by
      intro some'
      rcases reads with whole | ⟨numbers, -⟩
      · rw [whole, attributeText_empty empty]
      · obtain ⟨v, member⟩ := List.exists_mem_of_ne_nil vals some'
        exact absurd (by rw [empty v member]) (numbers v member)
    induction vals with
    | nil => rfl
    | cons v vals ih =>
      obtain rfl := empty v (List.mem_cons_self ..)
      have content := none (List.cons_ne_nil _ _)
      have later := fun u member => empty u (List.mem_cons_of_mem _ member)
      refine ⟨s, string [] content, ih ?_ later fun _ => content⟩
      exact Or.inl (content.trans (attributeText_empty later).symm)

theorem replays_attribute (integers : nt.Integers) {vals : List Value}
    (legible : AttributeLegible nt vals) {attributeName : String} {back : NodeState}
    {below : List NodeState} (items : s.mCurNodeStack.items = back :: below)
    (reads : AttributeReads nt vals (back.node.getAttribute attributeName)) :
    ∃ src, ∀ calls t,
      (reader grow nt).Replays { s with mAttribSource := src, mCurSource := .cdata } calls t →
      (reader grow nt).Replays s
        (.beginAttribute attributeName :: (vals.map Value.write ++ .endAttribute :: calls)) t := by
  have began : beginAttribute attributeName s = (.ok (), { s with
      mAttribSource := .ofStr (back.node.getAttribute attributeName)
      mCurSource := .attrib }) := by
    rw [beginAttribute, items]
    rfl
  obtain ⟨last, replays⟩ := replays_vals grow integers legible reads
    (s := { s with
      mAttribSource := .ofStr (back.node.getAttribute attributeName)
      mCurSource := .attrib }) rfl rfl
  refine ⟨last.clear.seekBeg.setStr [], fun calls t later => ⟨_, began, ?_⟩⟩
  exact ObjectReader.replays_append.mpr ⟨_, replays, _, rfl, later⟩

/-! ## Elements -/

/-- Where the stack grew, the node states on it are copies. -/
def moved (grew : Prop) [Decidable grew] (items : List NodeState) : List NodeState :=
  if grew then items.map NodeState.copy else items

theorem copy_copy (state : NodeState) : state.copy.copy = state.copy := rfl

theorem map_copy_copy (items : List NodeState) :
    (items.map NodeState.copy).map NodeState.copy = items.map NodeState.copy := by
  rw [List.map_map]
  exact List.map_congr_left fun state _ => copy_copy state

theorem moved_cons (grew : Prop) [Decidable grew] (node : XmlNode) (nextChild : List XmlNode)
    (src : TextStream) (items : List NodeState) :
    moved grew (⟨node, nextChild, src⟩ :: items) =
      ⟨node, nextChild, if grew then .ofStr src.str else src⟩ :: moved grew items := by
  unfold moved
  split <;> rfl

theorem length_moved (grew : Prop) [Decidable grew] (items : List NodeState) :
    (moved grew items).length = items.length := by
  unfold moved
  split
  · exact List.length_map _
  · rfl

/-- A stack that grows in two steps, or in one of them. -/
theorem moved_moved {first second last : Nat} (up : first ≤ second) (up' : second ≤ last)
    (items : List NodeState) :
    moved (last ≠ second) (moved (second ≠ first) items) = moved (last ≠ first) items := by
  unfold moved
  by_cases here : second = first
  · subst here
    rw [if_neg (not_not.mpr rfl)]
  · rw [if_pos here, if_pos (show last ≠ first by omega)]
    split
    · exact map_copy_copy items
    · rfl

/-- What the stream of a node state must offer to the content that is still to be read. -/
def Offers (nt : NumberText) (c : Content) (read : Bool) (src : TextStream) : Prop :=
  c.HasValue → src.Ready (c.tail nt read) ∧ (read = false → src.str = src.rest)

/-- A stream from which nothing is read yet still offers the same when it is copied. -/
theorem offers_moved {c : Content} {read : Bool} {src : TextStream} {grew : Prop}
    [Decidable grew] (offers : Offers nt c read src)
    (unread : grew → read = true → ¬ c.HasValue) :
    Offers nt c read (if grew then .ofStr src.str else src) := by
  intro more
  split
  · next grown =>
    have fresh : read = false := by
      cases read with
      | false => rfl
      | true => exact absurd more (unread grown rfl)
    obtain ⟨ready, front⟩ := offers more
    exact ⟨⟨rfl, rfl, (front fresh).trans ready.2.2⟩, fun _ => rfl⟩
  · exact offers more

theorem pushBack_items (stack : NodeStack) (node : XmlNode) :
    stack.pushBack grow (.ofNode node) =
      { items := .ofNode node ::
          moved (pushed grow stack.items.length stack.capacity ≠ stack.capacity) stack.items
        capacity := pushed grow stack.items.length stack.capacity } := by
  unfold NodeStack.pushBack moved pushed
  split
  · rw [if_neg (not_not.mpr rfl)]
    rfl
  · rw [if_pos (by omega)]
    rfl

/-- The last of the open elements, the states below it, and the capacity of the stack. -/
def inside (s : XMLObjectReader) (items : List NodeState) (capacity : Nat)
    (mAttribSource : TextStream) : XMLObjectReader :=
  { s with mCurNodeStack := { items, capacity }, mAttribSource, mCurSource := .cdata }

/-- The content of an element is read to its end. The element has the attributes, and from
here on the child elements and the character data, that were written. -/
theorem replays_content (integers : nt.Integers) {c : Content} (legible : c.Legible nt)
    (node : XmlNode) (src attr : TextStream) (below : List NodeState) (capacity : Nat)
    (read : Bool) (room : below.length + 1 ≤ capacity)
    (attributes : ∀ attributeName vals, c.finalAttribute attributeName = some vals →
      node.getAttribute attributeName = attributeText nt vals)
    (steady : c.Steady grow (below.length + 1) capacity read) (offers : Offers nt c read src) :
    ∃ src' attr', (reader grow nt).Replays
      (s.inside (⟨node, c.kids nt, src⟩ :: below) capacity attr) c.calls
      (s.inside
        (⟨node, [], src'⟩ ::
          moved (c.capacityAfter grow (below.length + 1) capacity ≠ capacity) below)
        (c.capacityAfter grow (below.length + 1) capacity) attr') := by
  induction c generalizing node src attr below capacity read with
  | nil =>
    refine ⟨src, attr, ?_⟩
    rw [Content.capacityAfter, moved, if_neg (not_not.mpr rfl)]
    rfl
  | value k val rest ih =>
    have text := (offers trivial).1
    rw [Content.tail] at text
    obtain ⟨next, here, -, later⟩ := TextStream.readValue_put integers legible.1 text
      (separator_of read) (boundary_tail rest)
    obtain ⟨src', attr', replays⟩ := ih legible.2 node next attr below capacity true
      room attributes steady
      fun more => ⟨later (tail_ne_nil more), fun front => absurd front (by decide)⟩
    exact ⟨src', attr', _, (read_cdata k rfl rfl).trans (by rw [here]; rfl), replays⟩
  | attrib attributeName vals rest ih =>
    have reads : AttributeReads nt vals (node.getAttribute attributeName) := by
      cases again : rest.finalAttribute attributeName with
      | some later =>
        rw [attributes attributeName later (by simp only [Content.finalAttribute, again])]
        exact legible.2.1 later again
      | none =>
        rw [attributes attributeName vals (by simp [Content.finalAttribute, again])]
        exact Or.inl rfl
    obtain ⟨last, before⟩ := replays_attribute grow integers legible.1
      (s := s.inside (⟨node, rest.kids nt, src⟩ :: below) capacity attr) rfl reads
    obtain ⟨src', attr', replays⟩ := ih legible.2.2 node src last below capacity read room
      (fun name later final =>
        attributes name later (by simp only [Content.finalAttribute, final]))
      steady offers
    exact ⟨src', attr', before _ _ replays⟩
  | child tagName inner rest ihInner ih =>
    have deep : below.length + 1 + 1 ≤ pushed grow (below.length + 1) capacity :=
      lt_pushed grow (below.length + 1) capacity
    have up := le_pushed grow room
    have up' := inner.le_capacityAfter grow deep
    obtain ⟨steadyInner, unread, steadyRest⟩ := steady
    generalize into : pushed grow (below.length + 1) capacity = first at *
    let child : XmlNode := .mk tagName (inner.attributes nt []) (inner.tail nt false)
      (inner.kids nt)
    let around : List NodeState := ⟨node, rest.kids nt, src⟩ :: below
    have size : (moved (first ≠ capacity) around).length = below.length + 1 := length_moved _ _
    have began : beginTag grow tagName
        (s.inside (⟨node, child :: rest.kids nt, src⟩ :: below) capacity attr) =
        (.ok (), s.inside (.ofNode child :: moved (first ≠ capacity) around) first attr) := by
      have grown := pushBack_items grow ⟨around, capacity⟩ child
      rw [show (⟨around, capacity⟩ : NodeStack).items.length = below.length + 1 from rfl,
        into] at grown
      exact congrArg (fun stack =>
        (Except.ok (), { s.inside [] 0 attr with mCurNodeStack := stack })) grown
    -- inside of the child
    obtain ⟨src₁, attr₁, replaysInner⟩ := ihInner legible.1 child
      (.ofStr (inner.tail nt false)) attr (moved (first ≠ capacity) around) first false
      (by rw [size]; exact deep)
      (fun name vals final => by
        rw [XmlNode.getAttribute, show child.attributes = inner.attributes nt [] from rfl,
          Content.lookup_attributes, final]
        rfl)
      (by rw [size]; exact steadyInner) (fun _ => ⟨⟨rfl, rfl, rfl⟩, fun _ => rfl⟩)
    rw [size] at replaysInner
    generalize after : inner.capacityAfter grow (below.length + 1 + 1) first = second at *
    rw [moved_moved up up', moved_cons (second ≠ capacity)] at replaysInner
    -- behind it
    have room' : below.length + 1 ≤ second := by omega
    have up'' : second ≤ rest.capacityAfter grow (below.length + 1) second :=
      rest.le_capacityAfter grow room'
    obtain ⟨src', attr', replays⟩ := ih legible.2 node
      (if second ≠ capacity then .ofStr src.str else src) attr₁
      (moved (second ≠ capacity) below) second read
      (by rw [length_moved]; exact room') attributes (by rw [length_moved]; exact steadyRest)
      (offers_moved offers unread)
    rw [length_moved, moved_moved (Nat.le_trans up up') up''] at replays
    refine ⟨src', attr', _, began, ?_⟩
    rw [Content.capacityAfter, into, after]
    exact ObjectReader.replays_append.mpr ⟨_, replaysInner, _, rfl, replays⟩

/-- A whole document is read from its root. -/
theorem replays_document (integers : nt.Integers) {c : Content} (legible : c.Legible nt)
    (steady : c.Steady grow 1 (pushed grow 0 0) false) (tagName : String) :
    ∃ t, (reader grow nt).Replays (.ofRoot (c.node nt tagName)) (c.document tagName) t ∧
      t.mCurNodeStack.items = [] := by
  have first := pushBack_items grow .empty (c.node nt tagName)
  have began : beginTag grow tagName (.ofRoot (c.node nt tagName)) =
      (.ok (), (ofRoot (c.node nt tagName)).inside [.ofNode (c.node nt tagName)]
        (pushed grow 0 0) (.ofStr [])) := by
    simp only [beginTag, ofRoot, NodeStack.empty] at first ⊢
    rw [first]
    simp only [moved, List.length_nil, List.map_nil, ite_self]
    rfl
  obtain ⟨src, attr, replays⟩ := replays_content grow integers legible
    (s := ofRoot (c.node nt tagName)) (c.node nt tagName) (.ofStr (c.tail nt false)) (.ofStr [])
    [] (pushed grow 0 0) false (lt_pushed grow 0 0)
    (fun name vals final => by
      rw [XmlNode.getAttribute, show (c.node nt tagName).attributes = c.attributes nt [] from rfl,
        Content.lookup_attributes, final]
      rfl)
    steady (fun _ => ⟨⟨rfl, rfl, rfl⟩, fun _ => rfl⟩)
  refine ⟨_, ⟨_, began, ObjectReader.replays_append.mpr ⟨_, replays, _, rfl, rfl⟩⟩, ?_⟩
  exact List.length_eq_zero_iff.mp (length_moved _ _)

end XMLObjectReader

/-- What is written as the content of a root element is read back from the document. -/
def XmlRoundTrips (grow : Nat → Nat) (nt : NumberText) (tagName : String) (c : Content) : Prop :=
  ∃ w root, run (XMLObjectWriter.perform nt) .empty (c.document tagName) = some w ∧
    w.mRootNode = some root ∧
    ((XMLObjectReader.reader grow nt).answers ((c.document tagName).map Call.ask)
      (.ofRoot root)).1 = .ok (values (c.document tagName))

/-- The XML round trip. -/
theorem xml_round_trip (grow : Nat → Nat) (nt : NumberText) (integers : nt.Integers)
    (tagName : String) (c : Content) (legible : c.Legible nt)
    (steady : c.Steady grow 1 (pushed grow 0 0) false) : XmlRoundTrips grow nt tagName c := by
  obtain ⟨t, replays, -⟩ := XMLObjectReader.replays_document grow integers legible steady tagName
  refine ⟨_, _, XMLObjectWriter.run_document integers legible tagName, rfl, ?_⟩
  rw [ObjectReader.answers_of_replays replays]

/-- The capacity of a vector that is full is doubled. -/
def double (capacity : Nat) : Nat := 2 * capacity

/-- Values around a child element, once the stack has room for it. -/
def sampleContent : Content :=
  .attrib "b" [⟨.uint16, (1 : UInt16)⟩, ⟨.uint32, (2 : UInt32)⟩] <|
  .child "c" (.value .string [104, 105] <| .value .bool true .nil) <|
  .value .uint8 (200 : UInt8) <| .value .string [120] <|
  .child "d" (.value .uint64 (5 : UInt64) .nil) <|
  .value .uint32 (7 : UInt32) .nil

theorem xml_round_trip_sampleContent : XmlRoundTrips double decimalText "a" sampleContent :=
  xml_round_trip double decimalText integers_decimalText "a" sampleContent
    (by simp [sampleContent, Content.Legible, AttributeLegible, ValueLegible, Plain, quote,
      Content.finalAttribute])
    (by simp [sampleContent, Content.Steady, Content.capacityAfter, pushed, double])

/-- `5`, a child element, `6`. -/
def rewoundContent : Content :=
  .value .uint8 (5 : UInt8) <| .child "b" .nil <| .value .uint8 (6 : UInt8) .nil

/-- A string of one quote. -/
def quotedContent : Content := .value .string [quote] .nil

theorem xml_round_trip_fails :
    ¬ XmlRoundTrips double decimalText "a" rewoundContent ∧
      ¬ XmlRoundTrips double decimalText "a" quotedContent := by
  constructor
  · rintro ⟨w, root, wrote, rooted, answers⟩
    obtain rfl := Option.some.inj wrote
    obtain rfl := Option.some.inj rooted
    revert answers
    decide +kernel
  · rintro ⟨w, root, wrote, rooted, answers⟩
    obtain rfl := Option.some.inj wrote
    obtain rfl := Option.some.inj rooted
    revert answers
    decide +kernel

end VRJuggler.Io
