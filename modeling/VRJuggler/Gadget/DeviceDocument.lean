import VRJuggler.Gadget.DeviceReplication
import VRJuggler.Io.XmlElements

/-!
# Devices as documents

What a device writes is the content of an element: samples are child elements, values are
child elements of these, and only the elements of values have character data. So an XML
reader reads it back as far as each number and each string survives as text.
-/
namespace VRJuggler.Gadget

open VRJuggler (ByteOrder)
open VRJuggler.Io

/-! ## Devices of one type -/

/-- The element of one value: what `write` writes, without child elements. -/
structure Leaf {α : Type} (f : DataFormat α) where
  content : InputData α → Content
  calls : ∀ data, (content data).calls = f.write data
  childless : ∀ data, (content data).Childless

namespace Leaf

variable {α : Type} {f : DataFormat α} (leaf : Leaf f)

def sample (sample : List (InputData α)) : Content :=
  .attrib BufferSampleLenAttrib [⟨.uint16, UInt16.ofNat sample.length⟩]
    (.children f.valueTag leaf.content sample)

def object (b : SampleBuffer α) : Content :=
  .attrib DataTypeAttrib [⟨.uint16, f.dataType⟩]
    (.attrib SampleBufferLenAttrib [⟨.uint16, UInt16.ofNat b.mStableBuffer.length⟩]
      (.children BufferSampleTag leaf.sample b.mStableBuffer))

theorem calls_sample (sample : List (InputData α)) :
    .beginTag BufferSampleTag :: ((leaf.sample sample).calls ++ [.endTag]) =
      f.writeSample sample := by
  simp only [Leaf.sample, Content.calls, Content.calls_children, leaf.calls, List.map_cons,
    List.map_nil]
  rfl

theorem calls_object (b : SampleBuffer α) :
    .beginTag f.typeName :: ((leaf.object b).calls ++ [.endTag]) = f.writeObject b := by
  simp only [object, Content.calls, Content.calls_children, calls_sample, List.map_cons,
    List.map_nil]
  rfl

theorem layered_object (b : SampleBuffer α) : (leaf.object b).Layered :=
  Content.layered_children fun _ _ =>
    Content.layered_children fun data _ => Content.layered_of_childless (leaf.childless data)

/-- It can be read back when the elements of the values can. -/
theorem legible_object {nt : NumberText} {b : SampleBuffer α}
    (each : ∀ sample ∈ b.mStableBuffer, ∀ data ∈ sample, (leaf.content data).Legible nt) :
    (leaf.object b).Legible nt := by
  have samples : ∀ sample ∈ b.mStableBuffer, (leaf.sample sample).Legible nt := by
    intro sample member
    refine Content.legible_attribute (by decide) trivial ?_ ?_
    · exact Content.finalAttribute_children ..
    · exact Content.legible_children (each sample member)
  have elements : (Content.children BufferSampleTag leaf.sample b.mStableBuffer).Legible nt :=
    Content.legible_children samples
  -- the two attributes have different names
  refine Content.legible_attribute (by decide) trivial ?_ ?_
  · rw [Content.finalAttribute, Content.finalAttribute_children]
    rfl
  · exact Content.legible_attribute (by decide) trivial (Content.finalAttribute_children ..)
      elements

end Leaf

/-! ## Values -/

def stampedLeaf (typeName : String) (dataType : UInt16) (valueTag : String) (k : Kind) :
    Leaf (stampedFormat typeName dataType valueTag k) where
  content data := .attrib TimeStamp [⟨.uint64, data.mTimeStamp⟩] (.value k data.value .nil)
  calls _ := rfl
  childless _ := trivial

def Digital.leaf : Leaf Digital.format := stampedLeaf ..

def Analog.leaf : Leaf Analog.format := stampedLeaf ..

def Command.leaf : Leaf Command.format := stampedLeaf ..

def String.leaf : Leaf String.format := stampedLeaf ..

def stampOf (mTimeStamp : UInt64) : Content := .attrib TimeStamp [⟨.uint64, mTimeStamp⟩] .nil

def Position.leaf : Leaf Position.format where
  content data := .floats (List.ofFn data.value) (stampOf data.mTimeStamp)
  calls _ := Content.calls_floats _ _
  childless _ := Content.childless_floats trivial

def Glove.leaf : Leaf Glove.format where
  content data := .floats ((List.ofFn data.value).flatMap List.ofFn) (stampOf data.mTimeStamp)
  calls data := by
    rw [Content.calls_floats, List.map_flatMap]
    rfl
  childless _ := Content.childless_floats trivial

/-- Every value of the stable samples has a property. -/
def SampleBuffer.All {α : Type} (p : α → Prop) (b : SampleBuffer α) : Prop :=
  ∀ sample ∈ b.mStableBuffer, ∀ data ∈ sample, p data.value

section Values

variable {nt : NumberText}

theorem legible_stampOf (mTimeStamp : UInt64) : (stampOf mTimeStamp).Legible nt :=
  Content.legible_attribute (by decide) trivial rfl trivial

theorem legible_stamped {typeName : String} {dataType : UInt16} {valueTag : String} {k : Kind}
    {b : SampleBuffer k.Carrier} (all : b.All (ValueLegible nt k)) :
    ((stampedLeaf typeName dataType valueTag k).object b).Legible nt := by
  refine Leaf.legible_object _ fun sample member data inside => ?_
  refine Content.legible_attribute (by decide) trivial rfl ?_
  exact ⟨all sample member data inside, trivial⟩

theorem legible_position {b : SampleBuffer (Fin 16 → Kind.Carrier .float)}
    (all : b.All fun mPosData => ∀ n, nt.Survives .float (mPosData n)) :
    (Position.leaf.object b).Legible nt := by
  refine Leaf.legible_object _ fun sample member data inside => ?_
  refine Content.legible_floats ?_ (legible_stampOf _)
  intro val among
  obtain ⟨n, rfl⟩ := List.mem_ofFn.mp among
  exact all sample member data inside n

theorem legible_glove {b : SampleBuffer (Fin 6 → Fin 4 → Kind.Carrier .float)}
    (all : b.All fun mAngles => ∀ component joint, nt.Survives .float (mAngles component joint)) :
    (Glove.leaf.object b).Legible nt := by
  refine Leaf.legible_object _ fun sample member data inside => ?_
  refine Content.legible_floats ?_ (legible_stampOf _)
  intro val among
  obtain ⟨angles, row, among⟩ := List.mem_flatMap.mp among
  obtain ⟨component, rfl⟩ := List.mem_ofFn.mp row
  obtain ⟨joint, rfl⟩ := List.mem_ofFn.mp among
  exact all sample member data inside component joint

end Values

namespace InputType

/-- Every number and string survives as text: a string has no quote and no zero byte. An
`Analog` buffer must not be empty. -/
def Legible (nt : NumberText) : (type : InputType) → type.Device → Prop
  | analog, d => d.mStableBuffer.isEmpty = false ∧ d.All (nt.Survives .float)
  | position, d => d.All fun mPosData => ∀ n, nt.Survives .float (mPosData n)
  | glove, d => d.All fun mAngles => ∀ component joint, nt.Survives .float (mAngles component joint)
  | string, d => d.All Plain
  | inputMixer composedParent newParent, d =>
    composedParent.Legible nt d.1 ∧ newParent.Legible nt d.2
  | input, _ | digital, _ | command, _ => True

/-- The elements that a device writes, before the rest. -/
def content : (type : InputType) → type.Device → Content → Content
  | input, _, rest => rest
  | digital, d, rest => .child Digital.format.typeName (Digital.leaf.object d) rest
  | analog, d, rest => .child Analog.format.typeName (Analog.leaf.object d) rest
  | position, d, rest => .child Position.format.typeName (Position.leaf.object d) rest
  | command, d, rest => .child Command.format.typeName (Command.leaf.object d) rest
  | string, d, rest => .child String.format.typeName (String.leaf.object d) rest
  | glove, d, rest => .child Glove.format.typeName (Glove.leaf.object d) rest
  | inputMixer composedParent newParent, d, rest =>
    .child (inputMixer composedParent newParent).getInputTypeName
      (composedParent.content d.1 (newParent.content d.2 .nil)) rest

theorem calls_content (type : InputType) (d : type.Device) (rest : Content) :
    (type.content d rest).calls = type.expected d ++ rest.calls := by
  have element {α : Type} {f : DataFormat α} (leaf : Leaf f) (b : SampleBuffer α)
      (rest : Content) : (Content.child f.typeName (leaf.object b) rest).calls =
        f.writeObject b ++ rest.calls := by
    rw [← leaf.calls_object, Content.calls]
    simp only [List.cons_append, List.append_assoc, List.nil_append]
  induction type generalizing rest with
  | input => rfl
  | digital => exact element Digital.leaf d rest
  | analog => exact element Analog.leaf d rest
  | position => exact element Position.leaf d rest
  | command => exact element Command.leaf d rest
  | string => exact element String.leaf d rest
  | glove => exact element Glove.leaf d rest
  | inputMixer composedParent newParent composed added =>
    rw [content, Content.calls, composed, added, expected]
    simp only [Content.calls, List.cons_append, List.append_assoc, List.nil_append]

theorem layered_content (type : InputType) (d : type.Device) {rest : Content}
    (layered : rest.Layered) : (type.content d rest).Layered := by
  induction type generalizing rest with
  | input => exact layered
  | digital => exact ⟨Digital.leaf.layered_object d, layered⟩
  | analog => exact ⟨Analog.leaf.layered_object d, layered⟩
  | position => exact ⟨Position.leaf.layered_object d, layered⟩
  | command => exact ⟨Command.leaf.layered_object d, layered⟩
  | string => exact ⟨String.leaf.layered_object d, layered⟩
  | glove => exact ⟨Glove.leaf.layered_object d, layered⟩
  | inputMixer composedParent newParent composed added =>
    exact ⟨composed d.1 (added d.2 trivial), layered⟩

variable {nt : NumberText}

theorem legible_content {type : InputType} {d : type.Device} (legible : type.Legible nt d)
    {rest : Content} (later : rest.Legible nt) : (type.content d rest).Legible nt := by
  have whole {b : SampleBuffer UInt32} : b.All (ValueLegible nt .uint32) := by
    intro sample member data inside
    trivial
  induction type generalizing rest with
  | input => exact later
  | digital => exact ⟨legible_stamped whole, later⟩
  | analog => exact ⟨legible_stamped legible.2, later⟩
  | position => exact ⟨legible_position legible, later⟩
  | command => exact ⟨legible_stamped whole, later⟩
  | string => exact ⟨legible_stamped legible, later⟩
  | glove => exact ⟨legible_glove legible, later⟩
  | inputMixer composedParent newParent composed added =>
    exact ⟨composed legible.1 (added legible.2 trivial), later⟩

/-- Without an empty `Analog` buffer a device writes what is read. -/
theorem expected_eq {type : InputType} {d : type.Device} (legible : type.Legible nt d) :
    type.expected d = type.writeObject d := by
  induction type with
  | input | digital | position | command | string | glove => rfl
  | analog =>
    rw [expected, writeObject, Analog.writeObject, legible.1]
    rfl
  | inputMixer composedParent newParent composed added =>
    rw [expected, writeObject, composed legible.1, added legible.2]

/-- A device, other than one without data, is written as one element. -/
theorem exists_document {type : InputType} (some' : type ≠ .input) {d : type.Device}
    (legible : type.Legible nt d) :
    ∃ inner : Content, inner.document type.getInputTypeName = type.writeObject d ∧
      inner.Layered ∧ inner.Legible nt := by
  have one : ∃ inner, type.content d .nil = .child type.getInputTypeName inner .nil := by
    cases type with
    | input => exact absurd rfl some'
    | digital | analog | position | command | string | glove => exact ⟨_, rfl⟩
    | inputMixer composedParent newParent => exact ⟨_, rfl⟩
  obtain ⟨inner, element⟩ := one
  have calls := type.calls_content d .nil
  have layered := type.layered_content d (show Content.nil.Layered from trivial)
  have readable := legible_content legible (show Content.nil.Legible nt from trivial)
  rw [element, expected_eq legible, Content.calls, List.append_nil] at calls
  rw [element] at layered readable
  exact ⟨inner, calls, layered.1, readable.1⟩

end InputType

/-! ## Replication -/

/-- A device that is written with an `XMLObjectWriter` is replicated by an
`XMLObjectReader`, and the document is read to its end. -/
def ReplicatesXml (grow : Nat → Nat) (nt : NumberText) (delta : UInt64) (type : InputType)
    (receiver sender : type.Device) : Prop :=
  ∃ w root, run (XMLObjectWriter.perform nt) .empty (type.writeObject sender) = some w ∧
    w.mRootNode = some root ∧
    ∃ t, type.readObject (XMLObjectReader.reader grow nt) delta receiver (.ofRoot root) =
        (.ok (type.replica delta receiver sender), t) ∧
      t.mCurNodeStack.items = []

theorem replicatesXml_of_legible (grow : Nat → Nat) {nt : NumberText} (integers : nt.Integers)
    (delta : UInt64) {type : InputType} (some' : type ≠ .input) {receiver sender : type.Device}
    (within : type.Every (fun b => b.Within) sender)
    (idle : type.Every (fun b => b.Idle) receiver) (legible : type.Legible nt sender) :
    ReplicatesXml grow nt delta type receiver sender := by
  obtain ⟨inner, calls, layered, readable⟩ := InputType.exists_document some' legible
  have wrote := XMLObjectWriter.run_document integers readable type.getInputTypeName
  obtain ⟨t, replays, ended⟩ := XMLObjectReader.replays_document grow integers readable
    (Content.steady_of_layered grow layered _ _) type.getInputTypeName
  rw [calls] at wrote replays
  rw [← InputType.expected_eq legible] at replays
  exact ⟨_, _, wrote, rfl, t, type.readsBack_expected _ delta within idle _ _ replays, ended⟩

/-- Two units of digital data in one sample, none in the other, and a string. -/
def sampleDevice : (InputType.inputMixer .digital .string).Device :=
  (⟨[[⟨5, (1 : UInt32)⟩, ⟨6, (0 : UInt32)⟩], []], []⟩, ⟨[[⟨7, ([104, 105] : Text)⟩]], []⟩)

theorem ReplicatesXml.result {grow : Nat → Nat} {nt : NumberText} {delta : UInt64}
    {type : InputType} {receiver sender : type.Device}
    (replicates : ReplicatesXml grow nt delta type receiver sender) :
    ∃ w root, run (XMLObjectWriter.perform nt) .empty (type.writeObject sender) = some w ∧
      w.mRootNode = some root ∧
      (type.readObject (XMLObjectReader.reader grow nt) delta receiver (.ofRoot root)).1 =
        .ok (type.replica delta receiver sender) := by
  obtain ⟨w, root, wrote, rooted, t, read, -⟩ := replicates
  exact ⟨w, root, wrote, rooted, congrArg Prod.fst read⟩

def stringDevice (text : Text) : InputType.string.Device := ⟨[[⟨0, text⟩]], []⟩

end VRJuggler.Gadget
