import VRJuggler.Jccl.IncludePrecedence

/-!
# Files that include themselves

`Configuration::load` calls itself for every file that a file includes and keeps no record of
the files it has begun with. So it returns just when no file that it comes to includes itself,
directly or through others.
-/
namespace VRJuggler.Jccl

variable {fs : FileSystem} {s t : Loading}

namespace FileSystem

/-- Whatever this name stands for, no file from there on includes itself. -/
def LoopFree (fs : FileSystem) (filename : String) : Prop :=
  ∀ doc, fs.document filename = some doc → fs.hierarchy.NoLoop (filename, doc)

theorem loopFree_iff_acc {filename : String} : fs.LoopFree filename ↔
    ∀ doc, fs.document filename = some doc → Acc fs.hierarchy.Parent (filename, doc) :=
  forall_congr' fun _ => forall_congr' fun _ =>
    (Hierarchy.acc_iff_noLoop fun _ => mem_files_of_get).symm

/-- A file that is included is below the one that includes it. -/
theorem parent_iff {doc : Document} {filename : String} {file : String × Document} :
    fs.hierarchy.Parent file (filename, doc) ↔
      ∃ name ∈ doc.includes, fs.expandFileName name filename = file.1 ∧
        fs.document file.1 = some file.2 := by
  constructor
  · rintro ⟨p, member, found⟩
    obtain ⟨name, included, rfl⟩ := List.mem_map.mp member
    obtain ⟨doc', there, rfl⟩ := Option.map_eq_some_iff.mp found
    exact ⟨name, included, rfl, there⟩
  · rintro ⟨name, included, same, there⟩
    refine ⟨file.1, ?_, Option.map_eq_some_iff.mpr ⟨file.2, there, rfl⟩⟩
    exact List.mem_map.mpr ⟨name, included, same⟩

end FileSystem

namespace Loading

/-! ## One include after the other -/

/-- When all of a list has been loaded, each of it was loaded at some time. -/
theorem isSome_of_foldlM {f : Loading → String → Option Loading} {names : List String}
    (loads : names.foldlM f s = some t) {name : String} (member : name ∈ names) :
    ∃ u, (f u name).isSome := by
  induction names generalizing s with
  | nil => cases member
  | cons first rest ih =>
    rw [List.foldlM_cons] at loads
    obtain ⟨u, here, later⟩ := Option.bind_eq_some_iff.mp loads
    rcases List.mem_cons.mp member with rfl | member
    · exact ⟨s, by rw [here]; rfl⟩
    · exact ih later member

theorem foldlM_terminates {f : Nat → Loading → String → Option Loading} (names : List String)
    (each : ∀ name ∈ names, ∀ s, Terminates (f · s name)) (s : Loading) :
    Terminates fun depth => names.foldlM (f depth) s := by
  induction names generalizing s with
  | nil => exact ⟨s, Returns.of_some s⟩
  | cons name rest ih =>
    obtain ⟨u, here⟩ := each name (List.mem_cons_self ..) s
    obtain ⟨t, later⟩ := ih (fun name member => each name (List.mem_cons_of_mem _ member)) u
    simp only [List.foldlM_cons]
    exact ⟨t, here.bind later⟩

/-! ## Files -/

/-- A file that was loaded is the top of a finite tree of includes. -/
theorem acc_of_load {depth : Nat} {filename parentfile : String} {result : Bool × Loading}
    (loads : load fs depth s filename parentfile = some result) {doc : Document}
    (found : fs.document (fs.expandFileName filename parentfile) = some doc) :
    Acc fs.hierarchy.Parent (fs.expandFileName filename parentfile, doc) := by
  induction depth generalizing s filename parentfile result doc with
  | zero => cases loads
  | succ depth ih =>
    rw [load, found] at loads
    obtain ⟨t, includes, -⟩ := Option.map_eq_some_iff.mp loads
    constructor
    rintro ⟨included, doc'⟩ below
    obtain ⟨name, member, rfl, there⟩ := FileSystem.parent_iff.mp below
    -- the call for this name has returned, too
    obtain ⟨u, loaded⟩ := isSome_of_foldlM includes member
    obtain ⟨result', loads'⟩ := Option.isSome_iff_exists.mp (Option.isSome_map .. ▸ loaded)
    exact ih loads' there

theorem terminates_of_acc {file : String × Document} (ends : Acc fs.hierarchy.Parent file)
    (there : fs.document file.1 = some file.2) {filename parentfile : String}
    (same : fs.expandFileName filename parentfile = file.1) (s : Loading) :
    Terminates (load fs · s filename parentfile) := by
  induction ends generalizing filename parentfile s with
  | intro file _ ih =>
    have each (name : String) (member : name ∈ file.2.includes) (s : Loading) :
        Terminates fun depth => (load fs depth s name file.1).map Prod.snd := by
      cases found : fs.document (fs.expandFileName name file.1) with
      | none =>
        refine ⟨s, (Returns.of_some s).congr fun depth => ?_⟩
        rw [load, found, Option.map_some]
      | some doc =>
        have below : fs.hierarchy.Parent (fs.expandFileName name file.1, doc) file :=
          FileSystem.parent_iff.mpr ⟨name, member, rfl, found⟩
        obtain ⟨result, returns⟩ := ih _ below found rfl s
        exact ⟨_, returns.map Prod.snd⟩
    obtain ⟨t, includes⟩ := foldlM_terminates file.2.includes each
      ({ s with mConfigurationNode := some file.2 }.setDefinitionPath fs file.2.definition_path)
    refine ⟨_, (includes.map fun s => (true,
      { s.loadFromElementNode file.2.elements with mFileName := file.1 })).congr fun depth => ?_⟩
    rw [load, same, there]

/-- `load` returns just when no file that it comes to includes itself. -/
theorem load_terminates_iff {filename parentfile : String} :
    Terminates (load fs · s filename parentfile) ↔
      fs.LoopFree (fs.expandFileName filename parentfile) := by
  rw [FileSystem.loopFree_iff_acc]
  constructor
  · rintro ⟨result, returns⟩ doc found
    obtain ⟨depth, loads⟩ := returns.exists_some
    exact acc_of_load loads found
  · intro ends
    cases found : fs.document (fs.expandFileName filename parentfile) with
    | none =>
      refine ⟨(false, s), (Returns.of_some (false, s)).congr fun depth => ?_⟩
      rw [load, found]
    | some doc => exact terminates_of_acc (ends doc found) found rfl s

/-- The same for each file that is included in the document of a stream. -/
theorem read_terminates_iff {doc : Document} :
    Terminates (read fs · s doc) ↔
      ∀ name ∈ doc.includes, fs.LoopFree (fs.expandFileName name "") := by
  constructor
  · rintro ⟨t, returns⟩ name member
    obtain ⟨depth, reads⟩ := returns.exists_some
    obtain ⟨u, loaded⟩ := isSome_of_foldlM reads member
    obtain ⟨result, loads⟩ := Option.isSome_iff_exists.mp (Option.isSome_map .. ▸ loaded)
    rw [← load_terminates_iff (s := u)]
    exact ⟨result, Returns.of_mono (fun _ _ => load_mono) depth loads⟩
  · intro free
    refine foldlM_terminates doc.includes (fun name member s => ?_) _
    obtain ⟨result, returns⟩ := load_terminates_iff.mpr (free name member)
    exact ⟨_, returns.map Prod.snd⟩

end Loading

/-- Loading ends, from a file or from a stream, just when no file that it comes to includes
itself. -/
theorem loading_ends_iff (fs : FileSystem) (s : Loading) :
    (∀ filename parentfile, Terminates (Loading.load fs · s filename parentfile) ↔
      fs.LoopFree (fs.expandFileName filename parentfile)) ∧
    ∀ doc, Terminates (Loading.read fs · s doc) ↔
      ∀ name ∈ doc.includes, fs.LoopFree (fs.expandFileName name "") :=
  ⟨fun _ _ => Loading.load_terminates_iff, fun _ => Loading.read_terminates_iff⟩

/-- Two files that include each other. -/
def mutual' : FileSystem :=
  directory [("/a.jconf", ⟨none, ["/b.jconf"], []⟩), ("/b.jconf", ⟨none, ["/a.jconf"], []⟩)]

theorem not_loopFree_mutual : ¬ mutual'.LoopFree "/a.jconf" := by
  intro free
  have b : mutual'.hierarchy.Parent ("/b.jconf", ⟨none, ["/a.jconf"], []⟩)
      ("/a.jconf", ⟨none, ["/b.jconf"], []⟩) :=
    FileSystem.parent_iff.mpr ⟨"/b.jconf", by decide, by decide, by decide⟩
  have a : mutual'.hierarchy.Parent ("/a.jconf", ⟨none, ["/b.jconf"], []⟩)
      ("/b.jconf", ⟨none, ["/a.jconf"], []⟩) :=
    FileSystem.parent_iff.mpr ⟨"/a.jconf", by decide, by decide, by decide⟩
  exact free ⟨none, ["/b.jconf"], []⟩ (by decide) _ .refl (.tail (.single a) b)

theorem load_fails : ¬ ∀ (fs : FileSystem) (s : Loading) (filename parentfile : String),
    Terminates (Loading.load fs · s filename parentfile) := by
  intro all
  have ends := all mutual' (.empty (.load [])) "/a.jconf" ""
  rw [Loading.load_terminates_iff] at ends
  exact not_loopFree_mutual ends

end VRJuggler.Jccl
