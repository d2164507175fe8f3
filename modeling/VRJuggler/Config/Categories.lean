import VRJuggler.Base.Separators
import VRJuggler.Base.Throwing

/-!
# Categories

`org.vrjuggler.jccl.config.Category` takes a path apart with a loop over the indices of its
slashes, which ends when the next index is that of no slash.
-/
namespace VRJuggler.Config

/-! ## Strings -/

/-- `String.indexOf` from an index. -/
def Category.indexOf (path : String) (c : Char) (start : Nat) : Int :=
  match (path.toList.drop start).findIdx? (· == c) with
  | some i => start + i
  | none => -1

inductive CategoryThrown where
  | illegalArgument (message : String)
  | stringIndexOutOfBounds
  deriving DecidableEq

/-- `String.substring`. -/
def Category.substring (path : String) (beginIndex endIndex : Int) : Except CategoryThrown String :=
  if 0 ≤ beginIndex ∧ beginIndex ≤ endIndex ∧ endIndex ≤ path.toList.length then
    .ok (String.ofList
      ((path.toList.drop beginIndex.toNat).take (endIndex.toNat - beginIndex.toNat)))
  else .error .stringIndexOutOfBounds

/-! ## The category -/

structure Category where
  mPath : List String
  deriving DecidableEq

namespace Category

/-- The loop of the constructor, of which `fuel` rounds are made. -/
def splitPath (path : String) : Nat → Int → List String → Throwing CategoryThrown (List String)
  | 0, _, _ => ExceptT.mk none
  | fuel + 1, idx, path_list =>
    if idx = 0 then pure path_list
    else do
      let next_idx := indexOf path '/' idx.toNat
      let name ← ExceptT.mk (some (
        if next_idx ≠ -1 then substring path idx next_idx
        else substring path idx path.toList.length))
      -- two slashes in a row, or one at the end
      splitPath path fuel (next_idx + 1) (if name ≠ "" then path_list ++ [name] else path_list)

def ofPath (fuel : Nat) (path : String) : Throwing CategoryThrown Category :=
  if path.toList.head? = some '/' then
    if path = "/" then pure ⟨[]⟩
    else do
      let path_list ← splitPath path fuel 1 []
      pure ⟨path_list⟩
  else throw (.illegalArgument "Path must start with a '/'")

def toString (category : Category) : String :=
  category.mPath.foldl (fun sb name => sb ++ name ++ "/") "/"

def equals (category cat : Category) : Bool :=
  category.mPath.length = cat.mPath.length &&
    (category.mPath.zip cat.mPath).all fun names => names.1 = names.2

/-! ## The loop -/

variable {path : String} {idx : Nat}

theorem indexOf_of_plain (plain : '/' ∉ path.toList.drop idx) : indexOf path '/' idx = -1 := by
  rw [indexOf, findIdx?_plain plain]

theorem indexOf_of_mem (member : '/' ∈ path.toList.drop idx) :
    indexOf path '/' idx = (idx + (component '/' (path.toList.drop idx)).length : Nat) := by
  rw [indexOf, findIdx?_separator member]
  rfl

/-- The rest of the path from an index. -/
theorem substring_drop (inside : idx ≤ path.toList.length) :
    substring path idx path.toList.length = .ok (String.ofList (path.toList.drop idx)) := by
  rw [substring, if_pos (by omega)]
  congr 2
  apply List.take_of_length_le
  simp

theorem substring_component (member : '/' ∈ path.toList.drop idx) :
    substring path idx (idx + (component '/' (path.toList.drop idx)).length : Nat) =
      .ok (String.ofList (component '/' (path.toList.drop idx))) := by
  have size := length_component member
  rw [List.length_drop] at size
  have width : (idx + (component '/' (path.toList.drop idx)).length) - idx =
      (component '/' (path.toList.drop idx)).length := Nat.add_sub_cancel_left ..
  rw [substring, if_pos (by omega), Int.toNat_natCast, Int.toNat_natCast, width, take_component]

/-- The name is a run, unless it is empty. -/
theorem appended_name (name : List Char) (path_list : List String) :
    (if String.ofList name ≠ "" then path_list ++ [String.ofList name] else path_list) =
      path_list ++ (if name = [] then [] else [String.ofList name]) := by
  have empty : String.ofList name ≠ "" ↔ ¬ name = [] := by
    rw [ne_eq, ← String.toList_inj, String.toList_ofList]
    rfl
  by_cases none' : name = []
  · rw [if_neg (fun some' => empty.mp some' none'), if_pos none', List.append_nil]
  · rw [if_pos (empty.mpr none'), if_neg none']

/-- From an index on, the loop appends the runs that come. -/
theorem ends_splitPath (begun : idx ≠ 0) (inside : idx ≤ path.toList.length)
    (path_list : List String) :
    ∃ names : List String, Runs '/' (path.toList.drop idx) (names.map String.toList) ∧
      Throwing.Ends (splitPath path · idx path_list) (.ok (path_list ++ names)) := by
  generalize size : (path.toList.drop idx).length = n
  induction n using Nat.strong_induction_on generalizing idx path_list with
  | _ n ih =>
    subst size
    have going : ¬ (idx : Int) = 0 := by omega
    -- the next round begins behind the next slash, if there is one
    by_cases member : '/' ∈ path.toList.drop idx
    · let name := component '/' (path.toList.drop idx)
      have rest : path.toList.drop (idx + name.length + 1) = behind '/' (path.toList.drop idx) := by
        rw [Nat.add_assoc, ← List.drop_drop, drop_component member]
      have parts : name.length + 1 + (behind '/' (path.toList.drop idx)).length =
          (path.toList.drop idx).length := length_component member
      rw [List.length_drop] at parts
      -- the induction is on what is left of the path
      have shorter := length_behind member
      rw [← rest] at shorter
      obtain ⟨names, split, ends⟩ := ih _ shorter (Nat.succ_ne_zero (idx + name.length)) (by omega)
        (path_list ++ if name = [] then [] else [String.ofList name]) rfl
      refine ⟨(if name = [] then [] else [String.ofList name]) ++ names, ?_, ?_⟩
      · rw [rest] at split
        have first := split.of_behind member
        by_cases none' : name = []
        · rwa [if_pos none'] at first ⊢
        · rw [if_neg none'] at first ⊢
          rw [List.singleton_append, List.map_cons, String.toList_ofList]
          exact first
      · rw [← List.append_assoc]
        refine Returns.congr (fun fuel => ?_) ends
        rw [splitPath, if_neg going, Int.toNat_natCast, indexOf_of_mem member]
        dsimp only
        rw [if_pos (by omega), substring_component member]
        change splitPath path fuel _ (if String.ofList name ≠ "" then _ else _) = _
        rw [appended_name]
        rfl
    · refine ⟨if path.toList.drop idx = [] then [] else [String.ofList (path.toList.drop idx)],
        ?_, ?_⟩
      · have last := Runs.of_plain member
        by_cases none' : path.toList.drop idx = []
        · rwa [if_pos none'] at last ⊢
        · rw [if_neg none'] at last ⊢
          rw [List.map_singleton, String.toList_ofList]
          exact last
      · -- there is no index behind it, and the next round is the last
        refine ⟨2, fun fuel enough => ?_⟩
        obtain ⟨fuel, rfl⟩ := Nat.exists_eq_add_of_le' enough
        show splitPath path (fuel + 1 + 1) idx path_list = _
        rw [splitPath, if_neg going, Int.toNat_natCast, indexOf_of_plain member]
        dsimp only
        rw [if_neg (by decide), substring_drop inside]
        change splitPath path (fuel + 1) (-1 + 1) (if String.ofList _ ≠ "" then _ else _) = _
        rw [appended_name, splitPath, if_pos (by decide)]
        rfl

/-! ## The constructor -/

/-- The path is the list of the runs. -/
theorem ends_ofPath (slash : path.toList.head? = some '/') :
    ∃ category : Category, Runs '/' path.toList (category.mPath.map String.toList) ∧
      Throwing.Ends (ofPath · path) (.ok category) := by
  obtain ⟨rest, parts⟩ := List.head?_eq_some_iff.mp slash
  by_cases root : path = "/"
  · refine ⟨⟨[]⟩, ?_, 0, fun fuel _ => ?_⟩
    · subst root
      exact .none 1
    · simp only [ofPath]
      rw [if_pos slash, if_pos root]
      rfl
  · have inside : 1 ≤ path.toList.length := by simp [parts]
    obtain ⟨names, split, ends⟩ := ends_splitPath Nat.one_ne_zero inside []
    rw [parts, List.drop_one, List.tail_cons] at split
    refine ⟨⟨names⟩, ?_, ?_⟩
    · rw [parts]
      exact split.separated
    · have whole : (ofPath · path) = fun fuel =>
          splitPath path fuel 1 [] >>= fun path_list => pure ⟨path_list⟩ := by
        funext fuel
        rw [ofPath, if_pos slash, if_neg root]
      rw [whole]
      exact ends.map Category.mk

theorem toList_toString (category : Category) : category.toString.toList =
    '/' :: (category.mPath.map String.toList).flatMap (· ++ ['/']) := by
  have appended (sb : String) (names : List String) :
      (names.foldl (fun sb name => sb ++ name ++ "/") sb).toList =
        sb.toList ++ (names.map String.toList).flatMap (· ++ ['/']) := by
    induction names generalizing sb with
    | nil => simp
    | cons name names ih => simp [ih]
  exact appended "/" category.mPath

theorem equals_iff {left right : Category} : left.equals right = true ↔ left = right := by
  have names (xs ys : List String) : (decide (xs.length = ys.length) &&
      (xs.zip ys).all fun names => decide (names.1 = names.2)) = true ↔ xs = ys := by
    induction xs generalizing ys with
    | nil => cases ys <;> simp
    | cons x xs ih =>
      cases ys with
      | nil => simp
      | cons y ys =>
        have rest := ih ys
        simp only [Bool.and_eq_true, decide_eq_true_eq] at rest
        simp only [List.length_cons, List.zip_cons_cons, List.all_cons, Bool.and_eq_true,
          decide_eq_true_eq, List.cons.injEq, Nat.add_right_cancel_iff, ← rest]
        exact and_left_comm
  rw [equals, names, Category.mk.injEq]

/-- A category is made from every path, with its names in order, and made again from its text. -/
theorem category_paths :
    (∀ path : String, path.toList.head? = some '/' →
      ∃ category : Category, Throwing.Ends (ofPath · path) (.ok category) ∧
        ∀ runs, Runs '/' path.toList runs ↔ runs = category.mPath.map String.toList) ∧
    ∀ names : List String, (∀ name ∈ names, name ≠ "" ∧ '/' ∉ name.toList) →
      ∃ category, Throwing.Ends (ofPath · (Category.mk names).toString) (.ok category) ∧
        category.equals ⟨names⟩ = true := by
  have exact' : ∀ path : String, path.toList.head? = some '/' →
      ∃ category : Category, Throwing.Ends (ofPath · path) (.ok category) ∧
        ∀ runs, Runs '/' path.toList runs ↔ runs = category.mPath.map String.toList := by
    intro path slash
    obtain ⟨category, split, ends⟩ := ends_ofPath slash
    refine ⟨category, ends, fun runs => ⟨fun other => other.unique split, ?_⟩⟩
    rintro rfl
    exact split
  refine ⟨exact', fun names plain => ?_⟩
  have slash : (Category.mk names).toString.toList.head? = some '/' := by
    rw [toList_toString]
    rfl
  obtain ⟨category, ends, split⟩ := exact' _ slash
  refine ⟨category, ends, equals_iff.mpr ?_⟩
  have pieces : ∀ run ∈ names.map String.toList, run ≠ [] ∧ '/' ∉ run := by
    intro run member
    obtain ⟨name, here, rfl⟩ := List.mem_map.mp member
    exact ⟨fun empty => (plain name here).1 (String.toList_inj.mp empty), (plain name here).2⟩
  have same := (split _).mp (by rw [toList_toString]; exact Runs.of_pieces pieces)
  have equal : names = category.mPath :=
    List.map_injective_iff.mpr (fun _ _ => String.toList_inj.mp) same
  rw [equal]

/-- The last slash of the text is no name of its own. -/
theorem category_paths_devices :
    ∃ category, Throwing.Ends (ofPath · (Category.mk ["Devices", "Gloves"]).toString)
      (.ok category) ∧ category.equals ⟨["Devices", "Gloves"]⟩ = true :=
  category_paths.2 ["Devices", "Gloves"] (by decide)

end Category

end VRJuggler.Config
