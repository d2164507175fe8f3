import VRJuggler.Io.XmlObject

/-!
# Well-nested sequences of calls

The content of an element as it is written: values, attributes and child elements in any
order. This module gives the calls that write it, and the tree that
`XMLObjectWriter` makes of them.
-/
namespace VRJuggler.Io

/-- What is written between `beginTag` and `endTag`. -/
inductive Content where
  | nil
  | value (k : Kind) (val : k.Carrier) (rest : Content)
  | attrib (attributeName : String) (vals : List Value) (rest : Content)
  | child (tagName : String) (inner rest : Content)

def Value.write (v : Value) : Call := .write v.kind v.val

namespace Content

/-- The calls, on the writer as on the reader, for the content of an element. -/
def calls : Content → List Call
  | nil => []
  | value k val rest => .write k val :: rest.calls
  | attrib attributeName vals rest =>
    .beginAttribute attributeName :: (vals.map Value.write ++ .endAttribute :: rest.calls)
  | child tagName inner rest =>
    .beginTag tagName :: (inner.calls ++ .endTag :: rest.calls)

/-- The calls for a whole document. -/
def document (tagName : String) (c : Content) : List Call :=
  .beginTag tagName :: (c.calls ++ [.endTag])

/-- The element has values of its own. -/
def HasValue : Content → Prop
  | nil => False
  | value .. => True
  | attrib _ _ rest => rest.HasValue
  | child _ _ rest => rest.HasValue

/-- The values of an attribute of the element: what is written last counts. -/
def finalAttribute (attributeName : String) : Content → Option (List Value)
  | nil => none
  | value _ _ rest => rest.finalAttribute attributeName
  | attrib name vals rest =>
    match rest.finalAttribute attributeName with
    | some later => some later
    | none => if name = attributeName then some vals else none
  | child _ _ rest => rest.finalAttribute attributeName

end Content

/-! ## Texts -/

section Texts

variable (nt : NumberText)

/-- How a value stands in the character data. -/
def valueText : (k : Kind) → k.Carrier → Text
  | .uint8, val => nt.put .uint16 val.toUInt16
  | .uint16, val => nt.put .uint16 val
  | .uint32, val => nt.put .uint32 val
  | .uint64, val => nt.put .uint64 val
  | .float, val => nt.put .float val
  | .double, val => nt.put .double val
  | .bool, val => nt.put .bool val
  | .string, val => quote :: (val ++ [quote])

/-- Some values, behind others if `read` says so. -/
def valuesTail (read : Bool) : List Value → Text
  | [] => []
  | v :: vals =>
    (if read then [blank] else []) ++ (valueText nt v.kind v.val ++ valuesTail true vals)

/-- The content of an attribute: a string is not quoted there. -/
def attributeText : List Value → Text
  | [⟨.string, val⟩] => val
  | vals => if ∀ v ∈ vals, v = ⟨.string, []⟩ then [] else valuesTail nt false vals

namespace Content

/-- The values of the element that are still to come, behind others if `read` says so. -/
def tail (read : Bool) : Content → Text
  | nil => []
  | value k val rest =>
    (if read then [blank] else []) ++ (valueText nt k val ++ rest.tail true)
  | attrib _ _ rest => rest.tail read
  | child _ _ rest => rest.tail read

/-- The attributes of the element, given those it has. -/
def attributes (given : List (String × Text)) : Content → List (String × Text)
  | nil => given
  | value _ _ rest => rest.attributes given
  | attrib attributeName vals rest =>
    rest.attributes (setAttribute given attributeName (attributeText nt vals))
  | child _ _ rest => rest.attributes given

/-- The child elements. -/
def kids : Content → List XmlNode
  | nil => []
  | value _ _ rest => rest.kids
  | attrib _ _ rest => rest.kids
  | child tagName inner rest =>
    .mk tagName (inner.attributes nt []) (inner.tail nt false) inner.kids :: rest.kids

/-- The element with this content. -/
def node (tagName : String) (c : Content) : XmlNode :=
  .mk tagName (c.attributes nt []) (c.tail nt false) (c.kids nt)

end Content

end Texts

/-! ## What can be read back -/

section Legible

variable (nt : NumberText)

/-- The text of the value is read back: a string has no quote and no zero byte, and for a
floating point number the text gives all of it. -/
def ValueLegible : (k : Kind) → k.Carrier → Prop
  | .float, val => nt.Survives .float val
  | .double, val => nt.Survives .double val
  | .string, val => Plain val
  | .uint8, _ | .uint16, _ | .uint32, _ | .uint64, _ | .bool, _ => True

/-- The values of an attribute are numbers, or a single string, or empty strings. -/
def AttributeLegible (vals : List Value) : Prop :=
  (∀ v ∈ vals, v.kind ≠ .string ∧ ValueLegible nt v.kind v.val) ∨
    (∃ val : Text, vals = [⟨.string, val⟩]) ∨ ∀ v ∈ vals, v = ⟨.string, []⟩

/-- The values can be read from the content of the attribute: it is made of them, or goes on
behind the last of them. -/
def AttributeReads (vals : List Value) (text : Text) : Prop :=
  text = attributeText nt vals ∨
    (∀ v ∈ vals, v.kind ≠ .string) ∧
      (vals = [] ∨ ∃ more, text = attributeText nt vals ++ blank :: more)

/-- In the element and all elements in it every value can be read back, and when an
attribute is written again, its values can be read from the later content. -/
def Content.Legible : Content → Prop
  | nil => True
  | value k val rest => ValueLegible nt k val ∧ rest.Legible
  | attrib attributeName vals rest =>
    AttributeLegible nt vals ∧
      (∀ later, rest.finalAttribute attributeName = some later →
        AttributeReads nt vals (attributeText nt later)) ∧
      rest.Legible
  | child _ inner rest => inner.Legible ∧ rest.Legible

/-- `operator<<` and `operator>>` on the integer types, and on `bool`. -/
structure NumberText.Integers : Prop where
  uint16 : ∀ val, nt.Survives .uint16 val
  uint32 : ∀ val, nt.Survives .uint32 val
  uint64 : ∀ val, nt.Survives .uint64 val
  bool : ∀ val, nt.Survives .bool val

end Legible

section Written

variable {nt : NumberText}

/-- No value vanishes in the text. -/
theorem valueText_ne_nil (integers : nt.Integers) {k : Kind} {val : k.Carrier}
    (legible : ValueLegible nt k val) : valueText nt k val ≠ [] := by
  cases k with
  | uint8 => exact (integers.uint16 _).some'
  | uint16 => exact (integers.uint16 _).some'
  | uint32 => exact (integers.uint32 _).some'
  | uint64 => exact (integers.uint64 _).some'
  | bool => exact (integers.bool _).some'
  | float => exact NumberText.Survives.some' legible
  | double => exact NumberText.Survives.some' legible
  | string => exact List.cons_ne_nil _ _

/-- Removing one attribute does not change what the others are. -/
theorem lookup_filter_ne {name other : String} (different : name ≠ other)
    (attributes : List (String × Text)) :
    (attributes.filter fun a => a.1 ≠ name).lookup other = attributes.lookup other := by
  induction attributes with
  | nil => rfl
  | cons a attributes ih =>
    by_cases removed : a.1 = name
    · have passed : (other == a.1) = false :=
        beq_eq_false_iff_ne.mpr (by rw [removed]; exact different.symm)
      rw [List.filter_cons_of_neg (by simpa using removed), ih, List.lookup_cons, passed]
    · rw [List.filter_cons_of_pos (by simpa using removed), List.lookup_cons, List.lookup_cons,
        ih]

theorem lookup_setAttribute (attributes : List (String × Text)) (name other : String)
    (text : Text) :
    (setAttribute attributes name text).lookup other =
      if name = other then some text else attributes.lookup other := by
  unfold setAttribute
  by_cases same : name = other
  · rw [same, List.lookup_cons_self, if_pos rfl]
  · rw [if_neg same, List.lookup_cons, beq_eq_false_iff_ne.mpr (Ne.symm same)]
    exact lookup_filter_ne same attributes

/-- An attribute that was written has the content that was written last. -/
theorem Content.lookup_attributes (c : Content) (given : List (String × Text))
    (attributeName : String) :
    (c.attributes nt given).lookup attributeName =
      match c.finalAttribute attributeName with
      | some vals => some (attributeText nt vals)
      | none => given.lookup attributeName := by
  induction c generalizing given with
  | nil => rfl
  | value k val rest ih => exact ih given
  | child tagName inner rest _ ih => exact ih given
  | attrib name vals rest ih =>
    rw [Content.attributes, ih, finalAttribute, lookup_setAttribute]
    cases rest.finalAttribute attributeName with
    | some later => rfl
    | none => by_cases same : name = attributeName <;> simp [same]

theorem attributeText_numbers {vals : List Value} (numbers : ∀ v ∈ vals, v.kind ≠ .string) :
    attributeText nt vals = valuesTail nt false vals := by
  unfold attributeText
  split
  · exact absurd rfl (numbers _ (List.mem_singleton_self _))
  · cases vals with
    | nil => rfl
    | cons v vals =>
      have first := numbers v (List.mem_cons_self ..)
      rw [if_neg]
      intro empty
      exact first (by rw [empty v (List.mem_cons_self ..)])

theorem attributeText_empty {vals : List Value} (empty : ∀ v ∈ vals, v = ⟨.string, []⟩) :
    attributeText nt vals = [] := by
  unfold attributeText
  split
  · next val => exact eq_of_heq (Value.mk.inj (empty _ (List.mem_singleton_self _))).2
  · rw [if_pos empty]

end Written

/-! ## The tree that is written -/

namespace XMLObjectWriter

variable {nt : NumberText}

theorem append_eq (data value : Text) :
    append data value = data ++ ((if !data.isEmpty then [blank] else []) ++ value) := by
  cases data with
  | nil => rfl
  | cons c data => rfl

theorem append_ne_nil (data : Text) {value : Text} (visible : value ≠ []) :
    append data value ≠ [] := by
  cases data with
  | nil => exact visible
  | cons c data => exact List.cons_ne_nil _ _

/-- Whatever the target is, a number goes there as its text. -/
theorem write_number {k : Kind} (number : k ≠ .string) (val : k.Carrier)
    (w : XMLObjectWriter) :
    w.write nt k val = some (w.writeValueStringRep (valueText nt k val)) := by
  cases k with
  | string => exact absurd rfl number
  | uint8 | uint16 | uint32 | uint64 | float | double | bool => rfl

theorem write_cdata {k : Kind} {val : k.Carrier} {w : XMLObjectWriter}
    (target : w.mCurTarget = .cdata) :
    w.write nt k val = some { w with mCurCData := append w.mCurCData (valueText nt k val) } := by
  cases k with
  | string => simp only [write, writeString, target]; rfl
  | uint8 | uint16 | uint32 | uint64 | float | double | bool =>
    simp only [write, writeValueStringRep, target]; rfl

/-- The numbers of an attribute. -/
theorem run_numbers (integers : nt.Integers) {vals : List Value}
    (legible : ∀ v ∈ vals, v.kind ≠ .string ∧ ValueLegible nt v.kind v.val)
    {w : XMLObjectWriter} (target : w.mCurTarget = .attrib) :
    run (perform nt) w (vals.map Value.write) = some { w with
      mCurAttribData := w.mCurAttribData ++ valuesTail nt (!w.mCurAttribData.isEmpty) vals } := by
  induction vals generalizing w with
  | nil => simp [valuesTail]
  | cons v vals ih =>
    have here := legible v (List.mem_cons_self ..)
    have wrote : perform nt w v.write = some { w with
        mCurAttribData := append w.mCurAttribData (valueText nt v.kind v.val) } := by
      rw [Value.write, perform, write_number here.1, writeValueStringRep, target]
    have visible := append_ne_nil w.mCurAttribData
      (valueText_ne_nil integers here.2)
    have later := ih (fun u member => legible u (List.mem_cons_of_mem _ member))
      (w := { w with mCurAttribData := append w.mCurAttribData (valueText nt v.kind v.val) })
      target
    rw [List.map_cons, run_cons, wrote, Option.bind_some, later,
      List.isEmpty_eq_false_iff.mpr visible, append_eq]
    simp only [valuesTail, Bool.not_false, List.append_assoc]

/-- The values of an attribute, from `beginAttribute` on. -/
theorem run_vals (integers : nt.Integers) {vals : List Value}
    (legible : AttributeLegible nt vals) {w : XMLObjectWriter} (target : w.mCurTarget = .attrib)
    (pending : w.mCurAttribData = []) :
    run (perform nt) w (vals.map Value.write) =
      some { w with mCurAttribData := attributeText nt vals } := by
  rcases legible with numbers | ⟨val, rfl⟩ | empty
  · rw [run_numbers integers numbers target, pending,
      attributeText_numbers fun v member => (numbers v member).1]
    rfl
  · simp [run_cons, Value.write, perform, write, writeString, target, pending, attributeText]
  · rw [attributeText_empty empty, ← pending]
    induction vals with
    | nil => rfl
    | cons v vals ih =>
      obtain rfl := empty v (List.mem_cons_self ..)
      have wrote : perform nt w (Value.write ⟨.string, []⟩) = some w := by
        obtain ⟨root, cur, cdata, name, data, aim⟩ := w
        obtain rfl : aim = .attrib := target
        obtain rfl : data = [] := pending
        rfl
      rw [List.map_cons, run_cons, wrote, Option.bind_some,
        ih fun u member => empty u (List.mem_cons_of_mem _ member)]

/-- The writer outside of attributes. -/
def outside (mRootNode : Option XmlNode) (mCurNode : List XmlNode) (mCurCData : Text) :
    XMLObjectWriter where
  mRootNode := mRootNode
  mCurNode := mCurNode
  mCurCData := mCurCData
  mCurAttribName := ""
  mCurAttribData := []
  mCurTarget := .cdata

theorem run_attribute (integers : nt.Integers) {vals : List Value}
    (legible : AttributeLegible nt vals) (root : Option XmlNode) (name attributeName : String)
    (attributes : List (String × Text)) (cdata : Text) (children parents : List XmlNode)
    (data : Text) (calls : List Call) :
    run (perform nt) (outside root (.mk name attributes cdata children :: parents) data)
        (.beginAttribute attributeName :: (vals.map Value.write ++ .endAttribute :: calls)) =
      run (perform nt)
        (outside root
          (.mk name (setAttribute attributes attributeName (attributeText nt vals)) cdata
            children :: parents) data) calls := by
  rw [run_cons]
  change (run (perform nt) { outside root (.mk name attributes cdata children :: parents) data
      with mCurAttribName := attributeName, mCurTarget := .attrib } _) = _
  rw [run_append, run_vals integers legible rfl rfl, Option.bind_some, run_cons]
  rfl

theorem flushCdata_mk {name : String} {attributes : List (String × Text)} {cdata data : Text}
    {children : List XmlNode} (pending : data = [] → cdata = []) :
    flushCdata data (.mk name attributes cdata children) = .mk name attributes data children := by
  rw [flushCdata]
  split
  · next empty => rw [pending empty, empty]
  · rfl

/-- The calls for the content of an element complete the element that is open. Character
data that is still pending has been given to the element before, or not yet. -/
theorem run_calls (integers : nt.Integers) {c : Content} (legible : c.Legible nt)
    (root : Option XmlNode) (name : String) (attributes : List (String × Text)) (cdata : Text)
    (children parents : List XmlNode) (data : Text) (pending : data = [] → cdata = []) :
    ∃ cdata', (data ++ c.tail nt (!data.isEmpty) = [] → cdata' = []) ∧
      run (perform nt) (outside root (.mk name attributes cdata children :: parents) data)
          c.calls =
        some (outside root
          (.mk name (c.attributes nt attributes) cdata' (children ++ c.kids nt) :: parents)
          (data ++ c.tail nt (!data.isEmpty))) := by
  -- the induction is on the content; a child begins with no data of its own
  induction c generalizing name attributes cdata children parents data with
  | nil =>
    refine ⟨cdata, fun none => pending (List.append_eq_nil_iff.mp none).1, ?_⟩
    simp only [Content.calls, run_nil, Content.attributes, Content.kids, Content.tail,
      List.append_nil]
  | value k val rest ih =>
    have visible := append_ne_nil data (valueText_ne_nil integers legible.1)
    obtain ⟨cdata', none, ran⟩ := ih legible.2 name attributes cdata children parents
      (append data (valueText nt k val)) fun empty => absurd empty visible
    have whole : data ++ (Content.value k val rest).tail nt (!data.isEmpty) =
        append data (valueText nt k val) ++ rest.tail nt true := by
      rw [append_eq, Content.tail]
      simp only [List.append_assoc]
    rw [List.isEmpty_eq_false_iff.mpr visible, Bool.not_false] at none ran
    refine ⟨cdata', by rwa [whole], ?_⟩
    rw [whole, Content.calls, run_cons, perform, write_cdata rfl, Option.bind_some]
    exact ran
  | attrib attributeName vals rest ih =>
    obtain ⟨cdata', none, ran⟩ := ih legible.2.2 name
      (setAttribute attributes attributeName (attributeText nt vals)) cdata children parents
      data pending
    refine ⟨cdata', none, ?_⟩
    rw [Content.calls, run_attribute integers legible.1]
    exact ran
  | child tagName inner rest ihInner ih =>
    -- the pending character data is put into the element around before the child begins
    obtain ⟨cdataInner, noneInner, ranInner⟩ := ihInner legible.1 tagName [] [] []
      (.mk name attributes data children :: parents) [] fun _ => rfl
    simp only [List.nil_append, List.isEmpty_nil, Bool.not_true] at noneInner ranInner
    obtain ⟨cdata', none, ran⟩ := ih legible.2 name attributes data
      (children ++ [.mk tagName (inner.attributes nt []) (inner.tail nt false) (inner.kids nt)])
      parents data id
    refine ⟨cdata', none, ?_⟩
    have began : perform nt
        (outside root (.mk name attributes cdata children :: parents) data)
        (.beginTag tagName) =
        some (outside root
          (.mk tagName [] [] [] :: .mk name attributes data children :: parents) []) := by
      rw [← flushCdata_mk pending]
      rfl
    have ended : perform nt (outside root
        (.mk tagName (inner.attributes nt []) cdataInner (inner.kids nt) ::
          .mk name attributes data children :: parents)
        (inner.tail nt false)) .endTag =
        some (outside root
          (.mk name attributes data (children ++
            [.mk tagName (inner.attributes nt []) (inner.tail nt false) (inner.kids nt)]) ::
              parents) data) := by
      rw [← flushCdata_mk noneInner]
      rfl
    rw [Content.calls, run_cons, began, Option.bind_some, run_append]
    rw [ranInner, Option.bind_some, run_cons, ended, Option.bind_some, ran, Content.kids,
      List.append_assoc, List.singleton_append]
    rfl

/-- The document that is written. -/
theorem run_document (integers : nt.Integers) {c : Content} (legible : c.Legible nt)
    (tagName : String) :
    run (perform nt) .empty (c.document tagName) =
      some (outside (some (c.node nt tagName)) [] []) := by
  obtain ⟨cdata, none, ran⟩ := run_calls integers legible .none tagName [] [] [] [] [] fun _ => rfl
  have began : perform nt .empty (.beginTag tagName) =
      some (outside .none [.mk tagName [] [] []] []) := rfl
  rw [Content.document, run_cons, began, Option.bind_some, run_append, ran, Option.bind_some,
    run_cons]
  have closed : flushCdata (c.tail nt false) (.mk tagName (c.attributes nt []) cdata (c.kids nt)) =
      c.node nt tagName := flushCdata_mk none
  simp only [List.nil_append, List.isEmpty_nil, Bool.not_true, perform, endTag, outside, closed]
  rfl

end XMLObjectWriter

end VRJuggler.Io
