import VRJuggler.Gadget.InputLogger

/-!
# Playback of a log

When a recorded log plays back what was recorded: every device must be known to the input manager
under its own name, and between two samples there must be one stamp at most.
-/
namespace VRJuggler.Gadget

variable {δ κ σ : Type}

/-! ## Recording -/

namespace InputDevices

variable (devices : InputDevices δ κ)

/-- No null pointer is in the table. -/
def NonNull : Prop := ∀ entry ∈ devices.mDevTable.entries, entry.2 ≠ none

/-- Every device is in the table under its own name, and can read what it writes. -/
def Readable (code : DeviceCode δ κ σ) : Prop :=
  ∀ name dev, (name, some dev) ∈ devices.mDevTable.entries → code.getInstanceName dev = name ∧
    code.readObject dev (code.writeObject dev (devices.contents dev)) ≠ none

end InputDevices

/-- No table of a sample has a null pointer. -/
def AllNonNull (items : List (Recorded δ κ)) : Prop :=
  ∀ devices, Recorded.sample devices ∈ items → devices.NonNull

/-- The samples begin the log, and of several stamps between two samples, or behind the last, all
are equal to the first. -/
def StampsFit (equality : NodeEquality σ) : Option (Recorded δ κ) → List (Recorded δ κ) → Prop
  | _, [] => True
  | _, .sample devices :: rest => StampsFit equality (some (.sample devices)) rest
  | none, .stamp _ :: _ => False
  | some (.sample _), .stamp id :: rest => StampsFit equality (some (.stamp id)) rest
  | some (.stamp first), .stamp id :: rest =>
    equality.isEqual (.stamp id) (.stamp first) = true ∧
      StampsFit equality (some (.stamp first)) rest

variable {code : DeviceCode δ κ σ} {equality : NodeEquality σ}

theorem deviceNodes_nonNull {contents : δ → κ} {entries : List (String × Option δ)}
    (nonNull : ∀ entry ∈ entries, entry.2 ≠ none) :
    InputLogger.deviceNodes code contents entries = some (entries.filterMap fun entry =>
      entry.2.map fun dev => (code.getInstanceName dev, code.writeObject dev (contents dev))) := by
  induction entries with
  | nil => rfl
  | cons entry rest ih =>
    obtain ⟨name, dev⟩ := entry
    cases dev with
    | none => exact absurd rfl (nonNull (name, none) (List.mem_cons_self ..))
    | some dev =>
      have later := ih fun entry member => nonNull entry (List.mem_cons_of_mem _ member)
      rw [InputLogger.deviceNodes, later]
      rfl

theorem deviceNodes_null {contents : δ → κ} {entries : List (String × Option δ)}
    (null : ∃ entry ∈ entries, entry.2 = none) :
    InputLogger.deviceNodes code contents entries = none := by
  induction entries with
  | nil =>
    obtain ⟨entry, member, -⟩ := null
    cases member
  | cons entry rest ih =>
    obtain ⟨name, dev⟩ := entry
    cases dev with
    | none => rfl
    | some dev =>
      have later : ∃ entry ∈ rest, entry.2 = none := by
        obtain ⟨found, member, missing⟩ := null
        rcases List.mem_cons.mp member with rfl | there
        · cases missing
        · exact ⟨found, there, missing⟩
      rw [InputLogger.deviceNodes, ih later]
      rfl

/-- The logger records, and these are its nodes. -/
structure Recording (s : InputLogger σ) (nodes : List (LogNode σ)) : Prop where
  state : s.mCurState = .recording
  root : s.mRootNode = some nodes

theorem stampRecord_recording {s : InputLogger σ} {nodes : List (LogNode σ)}
    (recording : Recording s nodes) (id : String) :
    ∃ t, s.stampRecord id = some t ∧ Recording t (nodes ++ [.stamp id]) ∧
      t.mSleepFramesLeft = s.mSleepFramesLeft := by
  refine ⟨{ s with mRootNode := some (nodes ++ [.stamp id]) }, ?_, ⟨recording.state, rfl⟩, rfl⟩
  rw [InputLogger.stampRecord, recording.root]
  rfl

theorem addRecordingSample_recording (code : DeviceCode δ κ σ) {s : InputLogger σ}
    {nodes : List (LogNode σ)} (recording : Recording s nodes) {devices : InputDevices δ κ}
    (nonNull : devices.NonNull) :
    ∃ t, s.addRecordingSample code devices = some t ∧
      Recording t (nodes ++ [nodeOf code (.sample devices)]) ∧
      t.mSleepFramesLeft = s.mSleepFramesLeft := by
  refine ⟨{ s with mRootNode := some (nodes ++ [nodeOf code (.sample devices)]) }, ?_,
    ⟨recording.state, rfl⟩, rfl⟩
  rw [InputLogger.addRecordingSample, recording.root, deviceNodes_nonNull nonNull]
  rfl

theorem addRecordingSample_null {s : InputLogger σ} {devices : InputDevices δ κ}
    (null : ¬ devices.NonNull) : s.addRecordingSample code devices = none := by
  have found : ∃ entry ∈ devices.mDevTable.entries, entry.2 = none := by
    by_contra none'
    exact null fun entry member missing => none' ⟨entry, member, missing⟩
  rw [InputLogger.addRecordingSample, deviceNodes_null found]
  cases s.mRootNode <;> rfl

section Session

variable [DecidableEq δ]

/-- A frame while the logger sleeps. -/
theorem sessionCall_asleep {s : InputLogger σ} {sleep : Nat}
    (asleep : s.mSleepFramesLeft = sleep + 1) (stamp_triggered : Option String)
    (devices : InputDevices δ κ) :
    s.sessionCall code equality (.frame stamp_triggered devices) =
      some { s with mSleepFramesLeft := sleep } := by
  simp [InputLogger.sessionCall, InputLogger.process, asleep]

/-- A frame adds the stamp, if there is one, and then the sample. -/
theorem sessionCall_awake {s : InputLogger σ} {nodes : List (LogNode σ)}
    (recording : Recording s nodes) (awake : s.mSleepFramesLeft = 0)
    (stamp_triggered : Option String) (devices : InputDevices δ κ) :
    s.sessionCall code equality (.frame stamp_triggered devices) =
      match stamp_triggered with
      | some stamp_id => (s.stampRecord stamp_id).bind fun t => t.addRecordingSample code devices
      | none => s.addRecordingSample code devices := by
  have sample : ∀ t : InputLogger σ,
      ((t.addRecordingSample code devices).map fun u => (u, devices.contents)).map Prod.fst =
        t.addRecordingSample code devices := by
    intro t
    rw [Option.map_map]
    exact Option.map_id'
  rw [InputLogger.sessionCall, InputLogger.process, if_pos awake]
  cases stamp_triggered with
  | none =>
    rw [InputLogger.controlKeys, recording.state]
    simp only [reduceCtorEq, if_false, Option.bind_some, recording.state, if_true]
    exact sample s
  | some stamp_id =>
    obtain ⟨t, stamped, after, -⟩ := stampRecord_recording recording stamp_id
    rw [InputLogger.controlKeys, recording.state]
    simp only [reduceCtorEq, if_false, if_true, stamped, Option.bind_some, after.state]
    exact sample t

/-- A frame with stamp and sample, when no pointer is null. -/
theorem sessionCall_recording (code : DeviceCode δ κ σ) (equality : NodeEquality σ)
    {s : InputLogger σ} {nodes : List (LogNode σ)} (recording : Recording s nodes)
    (awake : s.mSleepFramesLeft = 0)
    (stamp_triggered : Option String) {devices : InputDevices δ κ} (nonNull : devices.NonNull) :
    ∃ t, s.sessionCall code equality (.frame stamp_triggered devices) = some t ∧
      Recording t (nodes ++ (stamp_triggered.toList.map Recorded.stamp ++
        [Recorded.sample devices]).map (nodeOf code)) ∧ t.mSleepFramesLeft = 0 := by
  rw [sessionCall_awake recording awake]
  cases stamp_triggered with
  | none =>
    obtain ⟨t, added, after, sleep⟩ := addRecordingSample_recording code recording nonNull
    exact ⟨t, added, after, sleep.trans awake⟩
  | some stamp_id =>
    obtain ⟨t, stamped, between, sleep⟩ := stampRecord_recording recording stamp_id
    obtain ⟨u, added, after, still⟩ := addRecordingSample_recording code between nonNull
    refine ⟨u, ?_, ?_, still.trans (sleep.trans awake)⟩
    · simp only [stamped, Option.bind_some]
      exact added
    · simpa [nodeOf] using after

theorem sessionCall_null {s : InputLogger σ} {nodes : List (LogNode σ)}
    (recording : Recording s nodes) (awake : s.mSleepFramesLeft = 0)
    (stamp_triggered : Option String) {devices : InputDevices δ κ} (null : ¬ devices.NonNull) :
    s.sessionCall code equality (.frame stamp_triggered devices) = none := by
  rw [sessionCall_awake recording awake]
  cases stamp_triggered with
  | none => exact addRecordingSample_null null
  | some stamp_id =>
    obtain ⟨t, stamped, -, -⟩ := stampRecord_recording recording stamp_id
    simp only [stamped, Option.bind_some]
    exact addRecordingSample_null null

/-- What a session adds to the nodes. A null pointer in a table ends it. -/
theorem sessionCalls_cases (code : DeviceCode δ κ σ) (equality : NodeEquality σ)
    {s : InputLogger σ} {nodes : List (LogNode σ)}
    (calls : List (SessionCall δ κ)) (recording : Recording s nodes) :
    (AllNonNull (recorded s.mSleepFramesLeft calls) ∧
      ∃ t, s.sessionCalls code equality calls = some t ∧
        Recording t (nodes ++ (recorded s.mSleepFramesLeft calls).map (nodeOf code))) ∨
    (¬ AllNonNull (recorded s.mSleepFramesLeft calls) ∧
      s.sessionCalls code equality calls = none) := by
  induction calls generalizing s nodes with
  | nil =>
    refine Or.inl ⟨fun _ member => (List.not_mem_nil member).elim, s, rfl, ?_⟩
    rw [recorded, List.map_nil, List.append_nil]
    exact recording
  | cons call calls ih =>
    rw [InputLogger.sessionCalls]
    cases call with
    | stampRecord stamp_id =>
      obtain ⟨t, stamped, between, sleep⟩ := stampRecord_recording recording stamp_id
      have same : AllNonNull (recorded s.mSleepFramesLeft (.stampRecord stamp_id :: calls)) ↔
          AllNonNull (recorded s.mSleepFramesLeft calls) := by
        simp [recorded, AllNonNull]
      have first : s.sessionCall code equality (.stampRecord stamp_id) = some t := stamped
      rw [same, first, Option.bind_some, ← sleep]
      refine (ih between).imp_left fun ⟨nonNull, u, rest, after⟩ => ⟨nonNull, u, rest, ?_⟩
      simpa [recorded, sleep, nodeOf] using after
    | frame stamp_triggered devices =>
      cases asleep : s.mSleepFramesLeft with
      | succ sleep =>
        -- a sleeping logger writes nothing, and the frame is not among the recorded ones
        rw [sessionCall_asleep asleep, Option.bind_some]
        exact ih (s := { s with mSleepFramesLeft := sleep }) ⟨recording.state, recording.root⟩
      | zero =>
        by_cases nonNull : devices.NonNull
        · obtain ⟨t, first, between, sleep⟩ :=
            sessionCall_recording code equality recording asleep stamp_triggered nonNull
          have same : AllNonNull (recorded 0 (.frame stamp_triggered devices :: calls)) ↔
              AllNonNull (recorded 0 calls) := by
            simp [recorded, AllNonNull, nonNull]
          rw [same, first, Option.bind_some, ← sleep]
          refine (ih between).imp_left fun ⟨allowed, u, rest, after⟩ => ⟨allowed, u, rest, ?_⟩
          simpa [recorded, sleep, nodeOf] using after
        · -- a null device is dereferenced, so the session has no result
          refine Or.inr ⟨fun all => nonNull (all devices ?_), ?_⟩
          · simp [recorded]
          · rw [sessionCall_null recording asleep stamp_triggered nonNull]
            rfl

end Session

/-! ## Samples and stamps of a document -/

/-- The samples of a document with the stamps behind them, after a sample that was met last.
There are none when a stamp is where a sample should be. -/
def framesOf : Option (List (String × σ)) → List (LogNode σ) →
    Option (List (List (String × σ) × String))
  | none, [] => some []
  | some last, [] => some [(last, "")]
  | none, .sample next :: rest => framesOf (some next) rest
  | some last, .sample next :: rest => (framesOf (some next) rest).map ((last, "") :: ·)
  | some last, .stamp id :: rest => (framesOf none rest).map ((last, id) :: ·)
  | none, .stamp _ :: _ => none

/-- A sample with its stamp, as it is found in the document. -/
def frameOf (code : DeviceCode δ κ σ) (frame : InputDevices δ κ × Option String) :
    List (String × σ) × String :=
  (sampleOf code frame.1, frame.2.getD "")

theorem sameSample_refl (a : InputDevices δ κ) : SameSample code equality a a = true :=
  equality.equivalence.refl _

theorem map_cons_eq_some {α : Type} {a : α} {l : List α} {found : Option (List α)} :
    found.map (a :: ·) = some (a :: l) ↔ found = some l := by
  cases found <;> simp

theorem eraseDuplicates_equal {dup cur : LogNode σ} {rest : List (LogNode σ)}
    (equal : equality.isEqual cur dup = true) :
    InputLogger.eraseDuplicates equality dup (cur :: rest) =
      InputLogger.eraseDuplicates equality dup rest := if_pos equal

theorem eraseDuplicates_new {dup cur : LogNode σ} {rest : List (LogNode σ)}
    (new : ¬ equality.isEqual cur dup = true) :
    InputLogger.eraseDuplicates equality dup (cur :: rest) =
      cur :: InputLogger.eraseDuplicates equality cur rest := if_neg new

theorem stampAfter_sample (devices before : InputDevices δ κ) (rest : List (Recorded δ κ)) :
    stampAfter code equality before (.sample devices :: rest) =
      if SameSample code equality devices before then stampAfter code equality devices rest
      else none := rfl

theorem shown_sample (devices before : InputDevices δ κ) (rest : List (Recorded δ κ)) :
    shown code equality (some before) (.sample devices :: rest) =
      if SameSample code equality devices before then shown code equality (some devices) rest
      else (devices, stampAfter code equality devices rest) ::
        shown code equality (some devices) rest := rfl

/-- What is left of the nodes after the sample `first`, where `last` is the equal sample directly
before them, or after the stamp `id`. -/
theorem framesOf_eraseDuplicates (items : List (Recorded δ κ)) :
    (∀ first last, SameSample code equality last first = true →
      (framesOf (some (sampleOf code first)) (InputLogger.eraseDuplicates equality
          (.sample (sampleOf code first)) (items.map (nodeOf code))) =
        some ((frameOf code (first, stampAfter code equality last items)) ::
          (shown code equality (some last) items).map (frameOf code)) ↔
        StampsFit equality (some (.sample last)) items)) ∧
    (∀ id,
      (framesOf none (InputLogger.eraseDuplicates equality (.stamp id)
          (items.map (nodeOf code))) =
        some ((shown code equality none items).map (frameOf code)) ↔
        StampsFit equality (some (.stamp id)) items)) := by
  induction items with
  | nil =>
    constructor
    · intro first last _
      exact iff_of_true rfl trivial
    · intro id
      exact iff_of_true rfl trivial
  | cons item rest ih =>
    obtain ⟨afterSample, afterStamp⟩ := ih
    cases item with
    | sample devices =>
      have node : nodeOf code (.sample devices) = .sample (sampleOf code devices) := rfl
      constructor
      · intro first last same
        rw [List.map_cons, node, stampAfter_sample, shown_sample, StampsFit]
        by_cases equal : equality.isEqual (.sample (sampleOf code devices))
            (.sample (sampleOf code first)) = true
        · -- the sample is equal to the one that is kept, and so to the one before it
          have repeated : SameSample code equality devices last = true :=
            equality.equivalence.trans equal (equality.equivalence.symm same)
          rw [eraseDuplicates_equal equal, if_pos repeated, if_pos repeated]
          exact afterSample first devices equal
        · have new : ¬ SameSample code equality devices last = true := fun repeated =>
            equal (equality.equivalence.trans repeated same)
          rw [eraseDuplicates_new equal, if_neg new, if_neg new,
            ← afterSample devices devices (sameSample_refl devices)]
          exact map_cons_eq_some
      · intro id
        have apart : ¬ equality.isEqual (.sample (sampleOf code devices)) (.stamp id) = true := by
          rw [equality.apart]
          exact Bool.false_ne_true
        rw [List.map_cons, node, eraseDuplicates_new apart]
        exact afterSample devices devices (sameSample_refl devices)
    | stamp id =>
      have node : nodeOf code (.stamp id) = .stamp id := rfl
      constructor
      · intro first last _
        have apart : ¬ equality.isEqual (.stamp id) (.sample (sampleOf code first)) = true := by
          intro equal
          have turned := equality.equivalence.symm equal
          rw [equality.apart] at turned
          cases turned
        rw [List.map_cons, node, eraseDuplicates_new apart, StampsFit, ← afterStamp id]
        exact map_cons_eq_some
      · intro before
        rw [List.map_cons, node, StampsFit]
        by_cases equal : equality.isEqual (.stamp id) (.stamp before) = true
        · rw [eraseDuplicates_equal equal, and_iff_right equal]
          exact afterStamp before
        · -- the second stamp stays, where a sample should be
          rw [eraseDuplicates_new equal]
          refine iff_of_false ?_ fun fits => equal fits.1
          intro same
          cases same

/-- The document has the samples to be shown and their stamps just when the stamps fit. -/
theorem framesOf_compressSamples (items : List (Recorded δ κ)) :
    framesOf none (InputLogger.compressSamples equality (items.map (nodeOf code))) =
        some ((shown code equality none items).map (frameOf code)) ↔
      StampsFit equality none items := by
  cases items with
  | nil => exact iff_of_true rfl trivial
  | cons item rest =>
    cases item with
    | sample devices =>
      exact (framesOf_eraseDuplicates rest).1 devices devices (sameSample_refl devices)
    | stamp id =>
      refine iff_of_false ?_ ?_
      · intro same
        cases same
      · exact fun fits => fits

/-! ## The devices of a sample -/

section Devices

theorem getDevice_of_mem {devices : InputDevices δ κ} {name : String} {dev : δ}
    (member : (name, some dev) ∈ devices.mDevTable.entries) :
    devices.getDevice name = some dev := by
  have found : devices.mDevTable.find name = some (some dev) :=
    lookup_eq_some_of_mem devices.mDevTable.nodup_keys member
  rw [InputDevices.getDevice, found]

theorem mem_of_getDevice {devices : InputDevices δ κ} {name : String} {dev : δ}
    (found : devices.getDevice name = some dev) : (name, some dev) ∈ devices.mDevTable.entries := by
  unfold InputDevices.getDevice at found
  cases entry : devices.mDevTable.find name with
  | none =>
    rw [entry] at found
    cases found
  | some device =>
    rw [entry] at found
    subst found
    exact SortedMap.mem_entries_of_find entry

variable [DecidableEq δ] {devices : InputDevices δ κ}

/-- What is read of device nodes: of each that a device is found for, its data. -/
theorem reads_of_readDevices {nodes : List (String × σ)} {contents : δ → κ}
    {after : (δ → κ) × List (DeviceRead δ σ)}
    (read : InputLogger.readDevices code devices nodes contents = some after) :
    after.2 = (nodes.filterMap fun node =>
      (devices.getDevice node.1).map fun dev => ⟨node.1, dev, node.2⟩) ∧
    ∀ r ∈ after.2, code.readObject r.device r.serial ≠ none := by
  induction nodes generalizing contents after with
  | nil =>
    obtain rfl := Option.some.inj read
    exact ⟨rfl, fun r member => (List.not_mem_nil member).elim⟩
  | cons node rest ih =>
    obtain ⟨dev_name, serial⟩ := node
    cases found : devices.getDevice dev_name with
    | none =>
      simp only [InputLogger.readDevices, found] at read
      rw [List.filterMap_cons_none (by rw [found]; rfl)]
      exact ih read
    | some dev =>
      simp only [InputLogger.readDevices, found] at read
      obtain ⟨effect, fine, read⟩ := Option.bind_eq_some_iff.mp read
      obtain ⟨later, rest', rfl⟩ := Option.map_eq_some_iff.mp read
      obtain ⟨reads, readable⟩ := ih rest'
      rw [List.filterMap_cons_some (by rw [found]; rfl), ← reads]
      refine ⟨rfl, ?_⟩
      intro r member
      rcases List.mem_cons.mp member with rfl | member
      · rw [fine]
        exact Option.some_ne_none effect
      · exact readable r member

/-- Device nodes that the devices can read are read. -/
theorem readDevices_some {nodes : List (String × σ)} (contents : δ → κ)
    (readable : ∀ node ∈ nodes, ∀ dev, devices.getDevice node.1 = some dev →
      code.readObject dev node.2 ≠ none) :
    ∃ after, InputLogger.readDevices code devices nodes contents = some after := by
  induction nodes generalizing contents with
  | nil => exact ⟨_, rfl⟩
  | cons node rest ih =>
    obtain ⟨dev_name, serial⟩ := node
    have here := readable (dev_name, serial) (List.mem_cons_self ..)
    have later := fun contents => ih contents fun node member =>
      readable node (List.mem_cons_of_mem _ member)
    cases found : devices.getDevice dev_name with
    | none =>
      simp only [InputLogger.readDevices, found]
      exact later contents
    | some dev =>
      obtain ⟨effect, fine⟩ := Option.ne_none_iff_exists'.mp (here dev found)
      obtain ⟨after, read⟩ := later (Function.update contents dev (effect (contents dev)))
      simp only [InputLogger.readDevices, found, fine, Option.bind_some, read]
      exact ⟨_, rfl⟩

/-- A device that is given one document only, perhaps several times, holds what it says
afterwards; one that is given none holds what it held. -/
theorem contents_of_readDevices {dev : δ} {serial : σ} {nodes : List (String × σ)}
    {contents : δ → κ} {after : (δ → κ) × List (DeviceRead δ σ)}
    (read : InputLogger.readDevices code devices nodes contents = some after)
    (only : ∀ r ∈ after.2, r.device = dev → r.serial = serial) :
    ((∀ r ∈ after.2, r.device ≠ dev) ∧ after.1 dev = contents dev) ∨
      ∃ effect before, code.readObject dev serial = some effect ∧ after.1 dev = effect before := by
  induction nodes generalizing contents after with
  | nil =>
    obtain rfl := Option.some.inj read
    exact Or.inl ⟨fun r member => (List.not_mem_nil member).elim, rfl⟩
  | cons node rest ih =>
    obtain ⟨dev_name, data⟩ := node
    cases found : devices.getDevice dev_name with
    | none =>
      simp only [InputLogger.readDevices, found] at read
      exact ih read only
    | some other =>
      simp only [InputLogger.readDevices, found] at read
      obtain ⟨effect, fine, read⟩ := Option.bind_eq_some_iff.mp read
      obtain ⟨later, rest', rfl⟩ := Option.map_eq_some_iff.mp read
      rcases ih rest' fun r member => only r (List.mem_cons_of_mem _ member) with
        ⟨none', kept⟩ | last
      · by_cases same : other = dev
        · -- this is the last time that the device reads
          subst same
          have equal : data = serial := only _ (List.mem_cons_self ..) rfl
          subst equal
          exact Or.inr ⟨effect, contents other, fine, kept.trans (Function.update_self ..)⟩
        · refine Or.inl ⟨?_, kept.trans (Function.update_of_ne (Ne.symm same) _ _)⟩
          intro r member
          rcases List.mem_cons.mp member with rfl | member
          · exact same
          · exact none' r member
      · exact Or.inr last

/-- The sample is read by the devices as it should. -/
def ReadsWell (code : DeviceCode δ κ σ) (frame : InputDevices δ κ × Option String)
    (devices : InputDevices δ κ) : Prop :=
  ∃ after, InputLogger.readDevices code devices (sampleOf code frame.1) devices.contents =
      some after ∧ after.2 = offered code frame.1 devices ∧
    ∀ name dev, frame.1.getDevice name = some dev → devices.getDevice name = some dev →
      ∃ effect before, code.readObject dev (code.writeObject dev (frame.1.contents dev)) =
        some effect ∧ after.1 dev = effect before

omit [DecidableEq δ] in
/-- Where devices have their own names, the nodes are found under the recorded names. -/
theorem filterMap_sampleOf {sample : InputDevices δ κ}
    (named : ∀ name dev, (name, some dev) ∈ sample.mDevTable.entries →
      code.getInstanceName dev = name) :
    ((sampleOf code sample).filterMap fun node =>
      (devices.getDevice node.1).map fun dev => (⟨node.1, dev, node.2⟩ : DeviceRead δ σ)) =
      offered code sample devices := by
  rw [sampleOf, offered, List.filterMap_filterMap]
  refine List.filterMap_congr fun entry member => ?_
  obtain ⟨name, dev⟩ := entry
  cases dev with
  | none => rfl
  | some dev =>
    have own := named name dev member
    simp [own]

theorem readsWell_of_readable {frame : InputDevices δ κ × Option String}
    (readable : frame.1.Readable code) (still : StillThere frame devices) :
    ReadsWell code frame devices := by
  have named := fun name dev member => (readable name dev member).1
  -- the device that is found is the one that wrote
  have able : ∀ node ∈ sampleOf code frame.1, ∀ dev, devices.getDevice node.1 = some dev →
      code.readObject dev node.2 ≠ none := by
    intro node member dev found
    obtain ⟨⟨name, writer⟩, there, wrote⟩ := List.mem_filterMap.mp member
    obtain ⟨writer, rfl, rfl⟩ := Option.map_eq_some_iff.mp wrote
    obtain ⟨own, reads⟩ := readable name writer there
    obtain rfl := still name writer dev (getDevice_of_mem there) (own ▸ found)
    exact reads
  obtain ⟨after, read⟩ := readDevices_some devices.contents able
  have reads : after.2 = offered code frame.1 devices :=
    (reads_of_readDevices read).1.trans (filterMap_sampleOf named)
  refine ⟨after, read, reads, ?_⟩
  intro name dev recorded found
  have here : ⟨name, dev, code.writeObject dev (frame.1.contents dev)⟩ ∈ after.2 := by
    rw [reads, offered, List.mem_filterMap]
    exact ⟨(name, some dev), mem_of_getDevice recorded, by simp [found]⟩
  have only : ∀ r ∈ after.2, r.device = dev →
      r.serial = code.writeObject dev (frame.1.contents dev) := by
    intro r member same
    rw [reads, offered, List.mem_filterMap] at member
    obtain ⟨⟨other, writer⟩, there, offers⟩ := member
    obtain ⟨writer, rfl, offers⟩ := Option.bind_eq_some_iff.mp offers
    obtain ⟨reader, present, rfl⟩ := Option.map_eq_some_iff.mp offers
    obtain rfl := still other writer reader (getDevice_of_mem there) present
    obtain rfl : reader = dev := same
    rfl
  rcases contents_of_readDevices read only with ⟨absent, -⟩ | restored
  · exact absurd rfl (absent _ here)
  · exact restored

omit [DecidableEq δ] in
/-- With the table of the recording, everything is found only if each name is the own one. -/
theorem named_of_filterMap {entries : List (String × Option δ)} (data : δ → σ)
    (table : ∀ name dev, (name, some dev) ∈ entries → devices.getDevice name = some dev)
    (same : ((entries.filterMap fun entry => entry.2.map fun dev =>
        (code.getInstanceName dev, data dev)).filterMap fun node =>
          (devices.getDevice node.1).map fun dev => (⟨node.1, dev, node.2⟩ : DeviceRead δ σ)) =
      entries.filterMap fun entry => entry.2.map fun dev => ⟨entry.1, dev, data dev⟩) :
    ∀ name dev, (name, some dev) ∈ entries → code.getInstanceName dev = name := by
  induction entries with
  | nil =>
    intro name dev member
    cases member
  | cons entry rest ih =>
    obtain ⟨own, writer⟩ := entry
    have later := fun name dev member => table name dev (List.mem_cons_of_mem _ member)
    cases writer with
    | none =>
      intro name dev member
      rcases List.mem_cons.mp member with equal | member
      · cases equal
      · exact ih later same name dev member
    | some writer =>
      simp only [List.filterMap_cons, Option.map_some] at same
      cases found : devices.getDevice (code.getInstanceName writer) with
      | none =>
        -- one read is missing, and no other can be in its place
        simp only [found, Option.map_none] at same
        have lengths := congrArg List.length same
        have nodes := List.length_filterMap_le (fun node : String × σ =>
          (devices.getDevice node.1).map fun dev => (⟨node.1, dev, node.2⟩ : DeviceRead δ σ))
          (rest.filterMap fun entry => entry.2.map fun dev =>
            (code.getInstanceName dev, data dev))
        have equal : (rest.filterMap fun entry => entry.2.map fun dev =>
            (code.getInstanceName dev, data dev)).length =
            (rest.filterMap fun entry => entry.2.map fun dev =>
              (⟨entry.1, dev, data dev⟩ : DeviceRead δ σ)).length := by
          clear ih same lengths nodes table later
          induction rest with
          | nil => rfl
          | cons entry rest ih =>
            obtain ⟨_, dev⟩ := entry
            cases dev with
            | none => exact ih
            | some dev => exact congrArg (· + 1) ih
        rw [List.length_cons, ← equal] at lengths
        omega
      | some reader =>
        simp only [found, Option.map_some] at same
        obtain ⟨first, rest'⟩ := List.cons.inj same
        intro name dev member
        rcases List.mem_cons.mp member with equal | member
        · obtain ⟨rfl, hdev⟩ := Prod.mk.inj equal
          obtain rfl := Option.some.inj hdev
          exact congrArg DeviceRead.name first
        · exact ih later rest' name dev member

/-- What is read well with the table of the recording is readable. -/
theorem readable_of_readsWell {frame : InputDevices δ κ × Option String}
    (well : ReadsWell code frame frame.1) : frame.1.Readable code := by
  obtain ⟨after, read, reads, -⟩ := well
  obtain ⟨found, fine⟩ := reads_of_readDevices read
  have all : offered code frame.1 frame.1 = frame.1.mDevTable.entries.filterMap fun entry =>
      entry.2.map fun dev =>
        ⟨entry.1, dev, code.writeObject dev (frame.1.contents dev)⟩ := by
    refine List.filterMap_congr fun entry member => ?_
    obtain ⟨name, dev⟩ := entry
    cases dev with
    | none => rfl
    | some dev => simp [getDevice_of_mem member]
  have named : ∀ name dev, (name, some dev) ∈ frame.1.mDevTable.entries →
      code.getInstanceName dev = name :=
    named_of_filterMap (fun dev => code.writeObject dev (frame.1.contents dev))
      (fun name dev member => getDevice_of_mem member) (found.symm.trans (reads.trans all))
  intro name dev member
  refine ⟨named name dev member, ?_⟩
  refine fine ⟨name, dev, code.writeObject dev (frame.1.contents dev)⟩ ?_
  rw [reads, all, List.mem_filterMap]
  exact ⟨(name, some dev), member, rfl⟩

end Devices

/-! ## Playback -/

section Playback

variable [DecidableEq δ]

/-- The logger plays, with these nodes to come, or has nothing left to play. -/
structure At (s : InputLogger σ) (rest : List (LogNode σ)) : Prop where
  next : s.mNextSample = rest
  state : s.mCurState = if rest = [] then .inactive else .playing

/-- The stamp at the front of the nodes. -/
def frontStamp : List (LogNode σ) → String
  | .stamp id :: _ => id
  | _ => ""

def afterStamp : List (LogNode σ) → List (LogNode σ)
  | .stamp _ :: rest => rest
  | rest => rest

theorem framesOf_some (last : List (String × σ)) (rest : List (LogNode σ)) :
    framesOf (some last) rest =
      (framesOf none (afterStamp rest)).map ((last, frontStamp rest) :: ·) := by
  match rest with
  | [] => rfl
  | .sample _ :: _ => rfl
  | .stamp _ :: _ => rfl

theorem at_advance {s : InputLogger σ} (playing : s.mCurState = .playing)
    (rest : List (LogNode σ)) :
    At (s.advance rest) (afterStamp rest) ∧ (s.advance rest).getStamp = frontStamp rest := by
  have split : s.advance rest =
      let t := { s with mActiveStamp := frontStamp rest, mNextSample := afterStamp rest }
      if t.mNextSample.isEmpty then { t with mCurState := .inactive, mSleepFramesLeft := 10 }
      else t := by
    match rest with
    | [] => rfl
    | .sample _ :: _ => rfl
    | .stamp _ :: _ => rfl
  rw [split]
  cases afterStamp rest with
  | nil => exact ⟨⟨rfl, rfl⟩, rfl⟩
  | cons node later => exact ⟨⟨rfl, playing⟩, rfl⟩

theorem framesOf_eq_nil {rest : List (LogNode σ)} : framesOf none rest = some [] ↔ rest = [] := by
  match rest with
  | [] => exact iff_of_true rfl rfl
  | .stamp _ :: _ =>
    refine iff_of_false ?_ (List.cons_ne_nil _ _)
    intro same
    cases same
  | .sample last :: rest =>
    refine iff_of_false ?_ (List.cons_ne_nil _ _)
    intro same
    have none' : framesOf (some last) rest = some [] := same
    rw [framesOf_some] at none'
    obtain ⟨_, -, equal⟩ := Option.map_eq_some_iff.mp none'
    cases equal

omit [DecidableEq δ] in
/-- The first frame of the document is a sample with the stamp after it. -/
theorem framesOf_sample_iff {nodes : List (String × σ)} {rest : List (LogNode σ)}
    {sample : InputDevices δ κ} {stamp : Option String}
    {samples : List (InputDevices δ κ × Option String)} :
    framesOf none (.sample nodes :: rest) =
        some (((sample, stamp) :: samples).map (frameOf code)) ↔
      nodes = sampleOf code sample ∧ frontStamp rest = stamp.getD "" ∧
        framesOf none (afterStamp rest) = some (samples.map (frameOf code)) := by
  show framesOf (some nodes) rest = _ ↔ _
  rw [framesOf_some, Option.map_eq_some_iff]
  constructor
  · rintro ⟨found, frames, equal⟩
    obtain ⟨head, rfl⟩ := List.cons.inj equal
    exact ⟨congrArg Prod.fst head, congrArg Prod.snd head, frames⟩
  · rintro ⟨rfl, head, frames⟩
    refine ⟨_, frames, ?_⟩
    rw [head]
    rfl

/-- Playback is right when the document has the samples with their stamps, and each is read
well. -/
theorem playsBack_iff {s : InputLogger σ} {rest : List (LogNode σ)} (here : At s rest)
    {samples : List (InputDevices δ κ × Option String)} {frames : List (InputDevices δ κ)}
    (still : List.Forall₂ StillThere samples frames) :
    PlaysBack code s samples frames ↔ framesOf none rest = some (samples.map (frameOf code)) ∧
      List.Forall₂ (ReadsWell code) samples frames := by
  induction still generalizing s rest with
  | nil =>
    rw [List.map_nil, framesOf_eq_nil, and_iff_left List.Forall₂.nil]
    show s.mCurState = _ ↔ _
    rw [here.state]
    by_cases empty : rest = [] <;> simp [empty]
  | @cons frame devices samples frames first later ih =>
    obtain ⟨sample, stamp⟩ := frame
    rw [List.forall₂_cons]
    match rest, here with
    | [], here =>
      -- nothing is left to play
      refine iff_of_false ?_ ?_
      · rintro ⟨after, presents, -⟩
        have node := presents.node
        rw [here.next] at node
        cases node
      · rintro ⟨same, -⟩
        cases same
    | .stamp id :: rest, here =>
      -- playback reads a stamp where it wants a sample
      refine iff_of_false ?_ ?_
      · rintro ⟨after, presents, -⟩
        have node := presents.node
        rw [here.next] at node
        cases node
      · rintro ⟨same, -⟩
        cases same
    | .sample nodes :: rest, here =>
      have playing : s.mCurState = .playing := here.state
      obtain ⟨next, stamped⟩ := at_advance playing rest
      have played : s.playNextSample code devices =
          (InputLogger.readDevices code devices nodes devices.contents).map fun after =>
            { logger := s.advance rest, contents := after.1, reads := after.2 } := by
        rw [InputLogger.playNextSample, here.next]
        rfl
      rw [framesOf_sample_iff]
      constructor
      · rintro ⟨after, presents, continues⟩
        have node := presents.node
        rw [here.next] at node
        have same : nodes = sampleOf code sample := LogNode.sample.inj (Option.some.inj node)
        subst same
        obtain ⟨read, reading, rfl⟩ :=
          Option.map_eq_some_iff.mp (played.symm.trans presents.played)
        obtain ⟨frames', reads⟩ := (ih next).mp continues
        refine ⟨⟨rfl, stamped.symm.trans presents.stamped, frames'⟩, ?_, reads⟩
        exact ⟨read, reading, presents.reads, presents.restored⟩
      · rintro ⟨⟨rfl, stampEq, frames'⟩, ⟨read, reading, reads, restored⟩, others⟩
        refine ⟨{ logger := s.advance rest, contents := read.1, reads := read.2 },
          ⟨playing, ?_, ?_, reads, restored, stamped.trans stampEq⟩,
          (ih next).mpr ⟨frames', others⟩⟩
        · rw [here.next]
          rfl
        · rw [played, reading]
          rfl

theorem at_play {s : InputLogger σ} {nodes : List (LogNode σ)}
    (root : s.mRootNode = some nodes) (inactive : s.mCurState = .inactive) :
    At s.play nodes := by
  unfold InputLogger.play
  rw [root]
  cases nodes with
  | nil => exact ⟨rfl, inactive⟩
  | cons node rest => exact ⟨rfl, rfl⟩

/-- After a recording, the logger is ready to play what is left of the nodes. -/
theorem at_play_of_recording (equality : NodeEquality σ) {s : InputLogger σ}
    {nodes : List (LogNode σ)} (recording : Recording s nodes) :
    ∃ t, s.stopRecording equality = some t ∧
      At t.play (InputLogger.compressSamples equality nodes) := by
  refine ⟨{ s with
    mRootNode := some (InputLogger.compressSamples equality nodes)
    mCurState := .inactive
    mSleepFramesLeft := 10 }, ?_, at_play rfl rfl⟩
  rw [InputLogger.stopRecording, recording.root]
  rfl

/-- The recording is made, and it plays back what was recorded, whatever other devices there are
then and whatever the devices hold. -/
def PlaysBackRecorded (code : DeviceCode δ κ σ) (equality : NodeEquality σ) (s : InputLogger σ)
    (calls : List (SessionCall δ κ)) : Prop :=
  let samples := shown code equality none (recorded s.mSleepFramesLeft calls)
  ∃ t, s.session code equality calls = some t ∧
    ∀ frames, List.Forall₂ StillThere samples frames → PlaysBack code t.play samples frames

/-- A session can be played back when no pointer in the device table was null, there was a sample
before each stamp (other than repetitions), and each device that is presented had its own name in
the table and can read what it wrote. -/
theorem playsBackRecorded_iff (code : DeviceCode δ κ σ) (equality : NodeEquality σ)
    (s : InputLogger σ) (calls : List (SessionCall δ κ)) :
    PlaysBackRecorded code equality s calls ↔
      AllNonNull (recorded s.mSleepFramesLeft calls) ∧
        StampsFit equality none (recorded s.mSleepFramesLeft calls) ∧
        ∀ sample ∈ shown code equality none (recorded s.mSleepFramesLeft calls),
          sample.1.Readable code := by
  have start : Recording s.startRecording ([] : List (LogNode σ)) := ⟨rfl, rfl⟩
  rcases sessionCalls_cases code equality calls start with
    ⟨nonNull, t, made, recording⟩ | ⟨null, undefined⟩
  · obtain ⟨u, stopped, ready⟩ := at_play_of_recording equality recording
    have whole : s.session code equality calls = some u := by
      rw [InputLogger.session, made]
      exact stopped
    rw [List.nil_append] at ready
    constructor
    · rintro ⟨v, session, plays⟩
      obtain rfl := Option.some.inj (whole.symm.trans session)
      -- playback with the tables of the recording
      have same : List.Forall₂ StillThere
          (shown code equality none (recorded s.mSleepFramesLeft calls))
          ((shown code equality none (recorded s.mSleepFramesLeft calls)).map Prod.fst) := by
        refine List.forall₂_map_right_iff.mpr (List.forall₂_same.mpr fun sample _ => ?_)
        intro name dev found recorded' there
        exact Option.some.inj (there.symm.trans recorded')
      obtain ⟨frames, well⟩ := (playsBack_iff ready same).mp (plays _ same)
      refine ⟨nonNull, (framesOf_compressSamples _).mp frames, ?_⟩
      intro sample member
      exact readable_of_readsWell
        (List.forall₂_same.mp (List.forall₂_map_right_iff.mp well) sample member)
    · rintro ⟨-, fits, readable⟩
      refine ⟨u, whole, fun frames still => (playsBack_iff ready still).mpr ⟨?_, ?_⟩⟩
      · exact (framesOf_compressSamples _).mpr fits
      · refine List.Forall₂.imp ?_ ((List.forall₂_and_left _ _).mpr ⟨readable, still⟩)
        rintro sample devices ⟨able, there⟩
        exact readsWell_of_readable able there
  · refine iff_of_false ?_ fun condition => null condition.1
    rintro ⟨t, session, -⟩
    have none' : s.session code equality calls = none := by
      rw [InputLogger.session, undefined]
      rfl
    cases none'.symm.trans session

end Playback

/-- A remote device, which has no name of its own. -/
def remoteCode : DeviceCode Nat Unit String where
  getInstanceName := fun _ => "Undefined"
  writeObject := fun _ _ => "data"
  readObject := fun _ _ => some id

def nodeEquality : NodeEquality String where
  isEqual a b := a = b
  equivalence := by simpa using eq_equivalence
  apart := by simp

def remoteWand : InputDevices Nat Unit where
  mDevTable := SortedMap.empty.insert "Wand" (some 0)
  contents := fun _ => ()

/-- One sample of a remote device, which is not found when the sample is played. -/
theorem remote_device_skipped :
    ¬ ∀ calls : List (SessionCall Nat Unit),
      PlaysBackRecorded remoteCode nodeEquality ({} : InputLogger String) calls := by
  intro all
  obtain ⟨t, session, plays⟩ := all [.frame none remoteWand]
  obtain rfl := Option.some.inj session
  have still : StillThere (remoteWand, none) remoteWand := by
    intro name dev found recorded' there
    exact Option.some.inj (there.symm.trans recorded')
  obtain ⟨after, presents, -⟩ := plays [remoteWand] (.cons still .nil)
  obtain rfl := Option.some.inj presents.played
  cases presents.reads

end VRJuggler.Gadget
