import VRJuggler.Gadget.DeviceData
import VRJuggler.Io.BufferRoundTrip
import VRJuggler.Io.ReadBack
import VRJuggler.Io.XmlRoundTrip

/-!
# Replication of device data

What a receiving device has when it has read what the device of the sender wrote. The
programs that read are taken along the calls that write first, for any reader; then the
binary and the XML reader are put in.
-/
namespace VRJuggler.Gadget

open VRJuggler (ByteOrder)
open VRJuggler.Io

/-! ## What is to be replicated -/

/-- The same value, on the clock of the receiver. -/
def InputData.shift {α : Type} (delta : UInt64) (data : InputData α) : InputData α :=
  { data with mTimeStamp := data.mTimeStamp + delta }

/-- The buffer of the receiver: the stable samples of the sender, if it has some. -/
def SampleBuffer.replica {α : Type} (delta : UInt64) (receiver sender : SampleBuffer α) :
    SampleBuffer α where
  mStableBuffer :=
    if sender.mStableBuffer.isEmpty then receiver.mStableBuffer
    else sender.mStableBuffer.map (List.map (InputData.shift delta))
  mReadyBuffer := []

namespace InputType

/-- The device of the receiver. -/
def replica (delta : UInt64) : (type : InputType) → type.Device → type.Device → type.Device
  | input, receiver, _ => receiver
  | digital, receiver, sender => SampleBuffer.replica delta receiver sender
  | analog, receiver, sender => SampleBuffer.replica delta receiver sender
  | position, receiver, sender => SampleBuffer.replica delta receiver sender
  | command, receiver, sender => SampleBuffer.replica delta receiver sender
  | string, receiver, sender => SampleBuffer.replica delta receiver sender
  | glove, receiver, sender => SampleBuffer.replica delta receiver sender
  | inputMixer composedParent newParent, receiver, sender =>
    (composedParent.replica delta receiver.1 sender.1, newParent.replica delta receiver.2 sender.2)

/-- All buffers of a device have a property. -/
def Every (p : {α : Type} → SampleBuffer α → Prop) : (type : InputType) → type.Device → Prop
  | input, _ => True
  | digital, d => p d
  | analog, d => p d
  | position, d => p d
  | command, d => p d
  | string, d => p d
  | glove, d => p d
  | inputMixer composedParent newParent, d =>
    composedParent.Every p d.1 ∧ newParent.Every p d.2

end InputType

/-- The number of samples is within the limit of the buffer, that of the values of each
sample below 65536. -/
def SampleBuffer.Within {α : Type} (b : SampleBuffer α) : Prop :=
  b.mStableBuffer.length ≤ maxBufferSize ∧ ∀ sample ∈ b.mStableBuffer, sample.length < 65536

/-- No samples wait to become stable. -/
def SampleBuffer.Idle {α : Type} (b : SampleBuffer α) : Prop := b.mReadyBuffer = []

/-- No samples wait in a device that has read. -/
theorem InputType.idle_replica (delta : UInt64) (type : InputType)
    (receiver sender : type.Device) :
    type.Every (fun b => b.Idle) (type.replica delta receiver sender) := by
  induction type with
  | input => trivial
  | digital | analog | position | command | string | glove => exact rfl
  | inputMixer composedParent newParent composed added => exact ⟨composed _ _, added _ _⟩

/-! ## Reading along the calls -/

section Formats

variable {σ : Type} (rd : ObjectReader σ) (delta : UInt64)

theorem readsBack_attribute (attributeName : String) (k : Kind) (val : k.Carrier) :
    ReadsBack rd (readAttribute rd attributeName k) (writeAttribute attributeName k val) val :=
  (readsBack_beginAttribute attributeName).bind
    ((readsBack_read k val).bind (readsBack_endAttribute.bind (readsBack_pure val)))

theorem readsBack_each {α : Type} {m : Reading σ α} {calls : α → List Call}
    (each : ∀ a, ReadsBack rd m (calls a) a) {size : Nat} (data : Fin size → α) :
    ReadsBack rd (readEach m size) ((List.ofFn data).flatMap calls) data := by
  induction size with
  | zero =>
    rw [Subsingleton.elim data Fin.elim0]
    exact readsBack_pure _
  | succ size ih =>
    have parts : ReadsBack rd (readEach m (size + 1))
        (calls (data 0) ++ ((List.ofFn fun i => data i.succ).flatMap calls ++ []))
        (Fin.cons (data 0) fun i => data i.succ) :=
      (each (data 0)).bind ((ih fun i => data i.succ).bind (readsBack_pure _))
    rw [List.ofFn_succ, List.flatMap_cons]
    rwa [List.append_nil, show (Fin.cons (data 0) fun i => data i.succ) = data from
      Fin.cons_self_tail data] at parts

/-- What a format must do: `read` takes what `write` wrote. -/
structure DataFormat.Lawful {α : Type} (f : DataFormat α) : Prop where
  reads : ∀ {σ : Type} (rd : ObjectReader σ) (delta : UInt64) (data : InputData α),
    ReadsBack rd (f.read rd delta) (f.write data) (data.shift delta)

theorem lawful_stampedFormat (typeName : String) (dataType : UInt16) (valueTag : String)
    (k : Kind) : (stampedFormat typeName dataType valueTag k).Lawful := by
  constructor
  intro σ rd delta data
  exact (readsBack_attribute rd TimeStamp .uint64 data.mTimeStamp).bind
    ((readsBack_read k data.value).bind (readsBack_pure (data.shift delta)))

/-- The values of an array, one behind the other. -/
theorem readsBack_floats {size : Nat} (data : Fin size → Kind.Carrier .float) :
    ReadsBack rd (readEach (rd.read .float) size) ((List.ofFn data).map (Call.write .float))
      data := by
  rw [List.map_eq_flatMap]
  exact readsBack_each rd (readsBack_read .float) data

theorem lawful_position : Position.format.Lawful := by
  constructor
  intro σ rd delta data
  exact (readsBack_floats rd data.value).bind
    ((readsBack_attribute rd TimeStamp .uint64 data.mTimeStamp).bind
      (readsBack_pure (data.shift delta)))

theorem lawful_glove : Glove.format.Lawful := by
  constructor
  intro σ rd delta data
  exact (readsBack_each rd (readsBack_floats rd) data.value).bind
    ((readsBack_attribute rd TimeStamp .uint64 data.mTimeStamp).bind
      (readsBack_pure (data.shift delta)))

variable {α : Type} {f : DataFormat α}

theorem readsBack_value (lawful : f.Lawful) (data : InputData α) :
    ReadsBack rd (f.readValue rd delta) (.beginTag f.valueTag :: (f.write data ++ [.endTag]))
      (data.shift delta) :=
  (readsBack_beginTag f.valueTag).bind
    ((lawful.reads rd delta data).bind (readsBack_endTag.bind (readsBack_pure _)))

theorem readsBack_sample (lawful : f.Lawful) {sample : List (InputData α)}
    (within : sample.length < 65536) :
    ReadsBack rd (f.readSample rd delta) (f.writeSample sample)
      (sample.map (InputData.shift delta)) := by
  have size : (UInt16.ofNat sample.length).toNat = sample.length :=
    UInt16.toNat_ofNat_of_lt' within
  have loop := readsBack_times sample fun data _ => readsBack_value rd delta lawful data
  rw [← size] at loop
  exact (readsBack_beginTag BufferSampleTag).bind
    ((readsBack_attribute rd BufferSampleLenAttrib .uint16 _).bind
      (loop.bind (readsBack_endTag.bind (readsBack_pure _))))

/-- Below the limit no sample is erased. -/
theorem foldl_addSample (samples : Buffer α) (b : SampleBuffer α)
    (within : b.mReadyBuffer.length + samples.length ≤ maxBufferSize) :
    samples.foldl SampleBuffer.addSample b =
      { b with mReadyBuffer := b.mReadyBuffer ++ samples } := by
  induction samples generalizing b with
  | nil => rw [List.foldl_nil, List.append_nil]
  | cons sample samples ih =>
    rw [List.length_cons] at within
    have added : b.addSample sample =
        { b with mReadyBuffer := b.mReadyBuffer ++ [sample] } := by
      have none : (b.mReadyBuffer ++ [sample]).length - maxBufferSize = 0 := by
        rw [List.length_append, List.length_singleton]
        omega
      rw [SampleBuffer.addSample, none, List.drop_zero]
    rw [List.foldl_cons, added, ih _ (by
      rw [List.length_append, List.length_singleton]
      omega)]
    simp only [List.append_assoc, List.singleton_append]

theorem readsBack_object (lawful : f.Lawful) {receiver sender : SampleBuffer α}
    (within : sender.Within) (idle : receiver.Idle) :
    ReadsBack rd (f.readObject rd delta receiver) (f.writeObject sender)
      (SampleBuffer.replica delta receiver sender) := by
  have size : (UInt16.ofNat sender.mStableBuffer.length).toNat = sender.mStableBuffer.length :=
    UInt16.toNat_ofNat_of_lt' (Nat.lt_of_le_of_lt within.1 (by decide))
  have loop := readsBack_times sender.mStableBuffer fun sample member =>
    readsBack_sample rd delta lawful (within.2 sample member)
  rw [← size] at loop
  have result : ((sender.mStableBuffer.map (List.map (InputData.shift delta))).foldl
      SampleBuffer.addSample receiver).swapBuffers =
      SampleBuffer.replica delta receiver sender := by
    have none : receiver.mReadyBuffer = [] := idle
    have room : receiver.mReadyBuffer.length +
        (sender.mStableBuffer.map (List.map (InputData.shift delta))).length ≤
          maxBufferSize := by
      rw [none, List.length_map, List.length_nil, Nat.zero_add]
      exact within.1
    rw [foldl_addSample _ _ room]
    simp only [SampleBuffer.swapBuffers, SampleBuffer.replica, none, List.nil_append,
      List.isEmpty_map]
  rw [← result]
  exact (readsBack_beginTag f.typeName).bind
    ((readsBack_attribute rd DataTypeAttrib .uint16 _).bind
      ((readsBack_attribute rd SampleBufferLenAttrib .uint16 _).bind
        (loop.bind (readsBack_endTag.bind (readsBack_pure _)))))

end Formats

namespace InputType

/-- What is written if `Analog` writes an empty buffer as the other types do: this is what
`readObject` reads. -/
def expected : (type : InputType) → type.Device → List Call
  | analog, d => Analog.format.writeObject d
  | inputMixer composedParent newParent, d =>
    .beginTag (inputMixer composedParent newParent).getInputTypeName ::
      (composedParent.expected d.1 ++ (newParent.expected d.2 ++ [.endTag]))
  | type, d => type.writeObject d

/-- Reading along these calls replicates the device. -/
theorem readsBack_expected {σ : Type} (rd : ObjectReader σ) (delta : UInt64)
    {type : InputType} {receiver sender : type.Device}
    (within : type.Every (fun b => b.Within) sender)
    (idle : type.Every (fun b => b.Idle) receiver) :
    ReadsBack rd (type.readObject rd delta receiver) (type.expected sender)
      (type.replica delta receiver sender) := by
  induction type with
  | input => exact readsBack_pure _
  | digital => exact readsBack_object rd delta (lawful_stampedFormat _ _ _ _) within idle
  | analog => exact readsBack_object rd delta (lawful_stampedFormat _ _ _ _) within idle
  | command => exact readsBack_object rd delta (lawful_stampedFormat _ _ _ _) within idle
  | string => exact readsBack_object rd delta (lawful_stampedFormat _ _ _ _) within idle
  | position => exact readsBack_object rd delta lawful_position within idle
  | glove => exact readsBack_object rd delta lawful_glove within idle
  | inputMixer composedParent newParent composed added =>
    exact (readsBack_beginTag _).bind ((composed within.1 idle.1).bind
      ((added within.2 idle.2).bind (readsBack_endTag.bind (readsBack_pure _))))

/-- The values are the same ones either way: the length of an empty `Analog` buffer stands
where its sample stands. -/
theorem values_expected (type : InputType) (d : type.Device) :
    values (type.expected d) = values (type.writeObject d) := by
  induction type with
  | input | digital | command | string | position | glove => rfl
  | analog =>
    simp only [expected, writeObject, Analog.writeObject]
    split
    · next empty =>
      rw [DataFormat.writeObject, List.isEmpty_iff.mp empty]
      rfl
    · rfl
  | inputMixer composedParent newParent composed added =>
    simp only [expected, writeObject]
    have both (front rest : List Call) :
        values (.beginTag (inputMixer composedParent newParent).getInputTypeName ::
          (front ++ (rest ++ [.endTag]))) = values front ++ (values rest ++ []) := by
      rw [← values_nil, ← show values [.endTag] = values [] from rfl, ← values_append,
        ← values_append]
      rfl
    rw [both, both, composed, added]

end InputType

/-! ## Over the binary reader -/

/-- A binary reader answers by the values only. -/
theorem replays_values (order : ByteOrder) (behind : Nat → UInt8) {calls : List Call}
    {s t : BufferObjectReader} :
    (BufferObjectReader.reader behind order).Replays s calls t ↔
      (BufferObjectReader.reader behind order).Replays s ((values calls).map Value.write) t := by
  induction calls generalizing s with
  | nil => exact Iff.rfl
  | cons call calls ih =>
    cases call with
    | beginTag | endTag | beginAttribute | endAttribute =>
      constructor
      · rintro ⟨u, here, later⟩
        obtain rfl := (Prod.mk.inj here).2
        exact ih.mp later
      · intro later
        exact ⟨s, rfl, ih.mpr later⟩
    | write k val =>
      constructor
      · rintro ⟨u, here, later⟩
        exact ⟨u, here, ih.mp later⟩
      · rintro ⟨u, here, later⟩
        exact ⟨u, here, ih.mpr later⟩

/-- A device that is written with a `BufferObjectWriter` on one host is replicated by a
`BufferObjectReader` on another, wherever the bytes stand in a buffer, and just these bytes
are taken. -/
def ReplicatesBinary (writerHost readerHost : ByteOrder) (before after : List UInt8)
    (delta : UInt64) (type : InputType) (receiver sender : type.Device) : Prop :=
  ∃ w, run (BufferObjectWriter.perform writerHost) .empty (type.writeObject sender) = some w ∧
    ∀ behind s, s.mData = before ++ w.mData ++ after → s.mCurHeadPos.toNat = before.length →
      ∃ t, type.readObject (BufferObjectReader.reader behind readerHost) delta receiver s =
          (.ok (type.replica delta receiver sender), t) ∧
        t.mCurHeadPos.toNat = before.length + w.mData.length

theorem replicatesBinary_of_small (writerHost readerHost : ByteOrder)
    (before after : List UInt8) (delta : UInt64) (type : InputType)
    (receiver sender : type.Device) (within : type.Every (fun b => b.Within) sender)
    (idle : type.Every (fun b => b.Idle) receiver)
    (small : before.length + (encodeAll (type.writeObject sender)).length < 2 ^ 32) :
    ReplicatesBinary writerHost readerHost before after delta type receiver sender := by
  have fits : ∀ call ∈ type.writeObject sender, call.Fits := fits_of_small (by omega)
  refine ⟨_, BufferObjectWriter.run_perform writerHost fits _, ?_⟩
  intro behind s data position
  have replays := BufferObjectReader.replays_middle readerHost behind fits before after
    (by rw [data]; simp [BufferObjectWriter.writeRaw, BufferObjectWriter.empty]) position small
  rw [replays_values, ← type.values_expected, ← replays_values] at replays
  refine ⟨_, type.readsBack_expected _ delta within idle _ _ replays, ?_⟩
  rw [BufferObjectReader.advance_toNat _ (by omega), position]
  rfl

theorem not_replicatesBinary_of_long (writerHost readerHost : ByteOrder) (delta : UInt64)
    {type : InputType} {receiver sender : type.Device}
    (fits : ∀ call ∈ type.writeObject sender, call.Fits)
    (long : 2 ^ 32 ≤ (encodeAll (type.writeObject sender)).length) :
    ¬ ReplicatesBinary writerHost readerHost [] [] delta type receiver sender := by
  rintro ⟨w, wrote, reads⟩
  rw [BufferObjectWriter.run_perform writerHost fits] at wrote
  obtain rfl := Option.some.inj wrote
  obtain ⟨t, -, position⟩ := reads (fun _ => 0) (.at' _ 0) (List.append_nil _).symm rfl
  have bound := t.mCurHeadPos.toNat_lt
  have size : (encodeAll (type.writeObject sender)).length ≤
      (BufferObjectWriter.empty.writeRaw (encodeAll (type.writeObject sender))).mData.length := by
    rw [BufferObjectWriter.writeRaw, List.length_append]
    exact Nat.le_add_left _ _
  rw [position, List.length_nil] at bound
  omega

end VRJuggler.Gadget
