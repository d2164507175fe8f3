import VRJuggler.Io.DecimalText
import VRJuggler.Io.ReadStringEnds

/-!
# Network graph files

`vpr::sim::NetworkGraph::construct` reads a file from an `std::ifstream`. What a variable
holds that was never written to is a parameter, and so is how a number is read.
-/
namespace VRJuggler.Io.TextStream

/-- `operator>>` of a number. Where there is nothing but white space, the variable keeps its
value. -/
def extract (nt : NumberText) (k : Kind) (var : k.Carrier) (s : TextStream) :
    k.Carrier × TextStream :=
  if s.good then
    match s.rest.dropWhile isSpace with
    | [] => (var, { s with rest := [], eof := true, fail := true })
    | c :: text =>
      let found := nt.get k (c :: text)
      (found.1, { s with rest := found.2.1, eof := found.2.1.isEmpty, fail := found.2.2 })
  else (var, { s with fail := true })

/-- `operator>>` of a `std::string`: a word. -/
def extractWord (var : Text) (s : TextStream) : Text × TextStream :=
  if s.good then
    match s.rest.dropWhile isSpace with
    | [] => (var, { s with rest := [], eof := true, fail := true })
    | c :: text =>
      let rest := (c :: text).dropWhile (!isSpace ·)
      ((c :: text).takeWhile (!isSpace ·), { s with rest, eof := rest.isEmpty })
  else (var, { s with fail := true })

end VRJuggler.Io.TextStream

namespace VRJuggler.Sim.GraphFile

open Io

/-! ## Nodes and lines -/

/-- `std::atoi`, of which a `char` keeps the last eight bits. -/
def atoi (text : Text) : UInt8 :=
  match text.dropWhile isSpace with
  | [] => 0
  | c :: text =>
    if c = 45 then 0 - UInt8.ofNat (numeral (text.takeWhile isDigit))
    else if c = 43 then UInt8.ofNat (numeral (text.takeWhile isDigit))
    else UInt8.ofNat (numeral ((c :: text).takeWhile isDigit))

/-- The `i` values that are still to be read of an address, from `cur_pos` on. Behind the last
dot `next_dot` is `npos`, and `npos + 1` is the front again: `substr` is never asked for more
than there is. -/
def addressBytes (ip_str : Text) : Nat → Nat → List UInt8
  | 0, _ => []
  | i + 1, cur_pos =>
    let cur_val := (ip_str.drop cur_pos).takeWhile (· ≠ 46)
    let next_dot := cur_pos + cur_val.length
    atoi cur_val ::
      addressBytes ip_str i (if next_dot < ip_str.length then next_dot + 1 else 0)

structure NetworkNode where
  mIndex : UInt32
  mType : UInt8
  mIpStr : Text
  mIpAddr : UInt32
  deriving DecidableEq

/-- The constructor. `Ntohl` puts the byte that was read first in front. -/
def NetworkNode.ofStr (index : UInt32) (type : UInt8) (ip_str : Text) : NetworkNode where
  mIndex := index
  mType := type
  mIpStr := ip_str
  mIpAddr := (addressBytes ip_str 4 0).foldl (fun addr byte => addr * 256 + byte.toUInt32) 0

inductive NetworkType where
  | lan | man | wan | loopback
  deriving DecidableEq

/-- The names are compared as they stand in the file. -/
def NetworkType.ofName (netType : Text) : NetworkType :=
  if netType = [87, 65, 78] then .wan
  else if netType = [77, 65, 78] then .man
  else if netType = [76, 65, 78] then .lan
  else .loopback

/-- A `double` is given by its bit pattern. -/
structure NetworkLine where
  mLength : UInt64
  mCapacity : UInt64
  mDelay : UInt64
  mNetworkType : NetworkType
  mNetworkID : UInt8
  mNetworkIPStr : Text
  deriving DecidableEq

/-- The graph: its vertices are numbered in the order in which they are added. -/
structure NetworkGraph where
  vertices : List NetworkNode
  edges : List (Nat × Nat × NetworkLine)
  mGraphValid : Bool
  deriving DecidableEq

inductive ReturnStatus where
  | succeed | fail
  deriving DecidableEq

/-! ## `construct` -/

def newline : UInt8 := 10

/-- `skipToEOL`; `none` when `fuel` rounds are not enough. -/
def skipToEOL : Nat → TextStream → Option TextStream
  | 0, _ => none
  | fuel + 1, stream =>
    let read := stream.getChar endOfFile
    if read.1 = newline then some read.2 else skipToEOL fuel read.2

/-- The variables of a round of the second loop that numbers are read into. -/
structure EdgeFields where
  from_node : UInt32
  to_node : UInt32
  length : UInt64
  delay : UInt64
  bw : UInt64

/-- What the variables hold before they are written to; those of the second loop are new in
every round. -/
structure Uninitialized where
  node_count : UInt32
  full_edge_count : UInt32
  index : UInt32
  node_type : UInt16
  net_id : UInt16
  fields : Nat → EdgeFields

/-- What the loops change. The entries of `vertex_map` that were made last stand first. -/
structure Loading where
  input_file : TextStream
  mGraph : NetworkGraph
  vertex_map : List (UInt32 × Nat)
  index : UInt32
  node_type : UInt16
  net_id : UInt16

namespace Loading

/-- `vertex_map[index] = boost::add_vertex(…)`. -/
def addVertex (l : Loading) (index : UInt32) (ip_str : Text) : Loading :=
  { l with
    mGraph := { l.mGraph with
      vertices := l.mGraph.vertices ++ [.ofStr index l.node_type.toUInt8 ip_str] }
    vertex_map := (index, l.mGraph.vertices.length) :: l.vertex_map }

/-- `vertex_map[index]`: a new entry is a zero. -/
def vertex (l : Loading) (index : UInt32) : Nat := (l.vertex_map.lookup index).getD 0

def addEdge (l : Loading) (from_node to_node : UInt32) (line : NetworkLine) : Loading :=
  { l with mGraph := { l.mGraph with
      edges := l.mGraph.edges ++ [(l.vertex from_node, l.vertex to_node, line)] } }

end Loading

variable (nt : NumberText) (u : Uninitialized)

/-- A round of the first loop. -/
def readNode (fuel : Nat) (l : Loading) : Option Loading :=
  let index := l.input_file.extract nt .uint32 l.index
  let node_type := index.2.extract nt .uint16 l.node_type
  let node_ip := node_type.2.extractWord []
  (skipToEOL fuel node_ip.2).map fun input_file =>
    { l with input_file, index := index.1, node_type := node_type.1 }.addVertex index.1 node_ip.1

/-- The first loop, with so many nodes still to come. -/
def readNodes (fuel : Nat) : Nat → Loading → Option Loading
  | 0, l => some l
  | left + 1, l => (readNode nt fuel l).bind (readNodes fuel left)

/-- A round of the second loop, up to the sanity check. -/
def readEdge (held : EdgeFields) (l : Loading) : Loading :=
  let from_node := l.input_file.extract nt .uint32 held.from_node
  let to_node := from_node.2.extract nt .uint32 held.to_node
  let length := to_node.2.extract nt .double held.length
  let delay := length.2.extract nt .double held.delay
  let bw := delay.2.extract nt .double held.bw
  let net_type := bw.2.extractWord []
  let net_id := net_type.2.extract nt .uint16 l.net_id
  let net_ip := net_id.2.extractWord []
  let line : NetworkLine :=
    { mLength := length.1
      mCapacity := bw.1
      mDelay := delay.1
      mNetworkType := .ofName net_type.1
      mNetworkID := net_id.1.toUInt8
      mNetworkIPStr := net_ip.1 }
  { l with input_file := net_ip.2, net_id := net_id.1 }.addEdge from_node.1 to_node.1 line

/-- The second loop, with so many edges still to come. At the end of the file, or when the
stream has failed, `peek` gives `EOF`. -/
def readEdges : Nat → Loading → Loading
  | 0, l => l
  | left + 1, l =>
    let l := readEdge nt (u.fields left) l
    -- "so that we do not get stuck trying to read bytes that aren't there"
    let next := l.input_file.peek
    if next.1 = none ∧ 0 < left then { l with input_file := next.2 }
    else readEdges left { l with input_file := next.2 }

/-- `"127.0.0.1"`. -/
def localhost : Text := [49, 50, 55, 46, 48, 46, 48, 46, 49]

/-- The line for the loopback. Its length and delay are `0.0000001f`. -/
def loopback (net_id : UInt16) : NetworkLine where
  mLength := 4502148214576644096
  mCapacity := 4681608360884174848
  mDelay := 4502148214576644096
  mNetworkType := .loopback
  mNetworkID := net_id.toUInt8
  mNetworkIPStr := [49, 50, 55, 46, 48, 46, 48, 46, 48]

/-- What follows the first loop. The assertions are nothing unless `VPR_DEBUG` is defined. -/
def finish (l : Loading) : NetworkGraph :=
  -- `index` has the value of the last vertex that was added, if there was one
  let last_index := l.index
  let localhost_index := last_index + 1
  let l := l.addVertex localhost_index localhost
  let full_edge_count := l.input_file.extract nt .uint32 u.full_edge_count
  let l := readEdges nt u full_edge_count.1.toNat { l with input_file := full_edge_count.2 }
  { (l.addEdge localhost_index last_index (loopback l.net_id)).mGraph with mGraphValid := true }

/-- `construct`, with the loops of `skipToEOL` cut off after `fuel` rounds. `none` is a file
that cannot be opened. -/
def construct (file : Option Text) (mGraph : NetworkGraph) (fuel : Nat) :
    Option (ReturnStatus × NetworkGraph) :=
  match file with
  | none => some (.fail, mGraph)
  | some content =>
    let node_count := (TextStream.ofStr content).extract nt .uint32 u.node_count
    let l : Loading :=
      { input_file := node_count.2
        mGraph
        vertex_map := []
        index := u.index
        node_type := u.node_type
        net_id := u.net_id }
    (readNodes nt fuel node_count.1.toNat l).map fun l => (.succeed, finish nt u l)

/-! ## What a file has to hold -/

/-- What stands behind the number at the front of a text. There is none where the number
cannot be read, or where the text ends with it. -/
def numberBehind (k : Kind) (text : Text) : Option Text :=
  match text.dropWhile isSpace with
  | [] => none
  | c :: text =>
    let found := nt.get k (c :: text)
    if found.2.2 ∨ found.2.1 = [] then none else some found.2.1

def wordBehind (text : Text) : Option Text :=
  match (text.dropWhile isSpace).dropWhile (!isSpace ·) with
  | [] => none
  | c :: rest => some (c :: rest)

def lineBehind (text : Text) : Option Text :=
  match text.dropWhile (· ≠ newline) with
  | [] => none
  | _ :: rest => some rest

/-- What stands behind the line of a node: two numbers, a word, and anything else up to the
end of the line, which has to be there. -/
def nodeBehind (text : Text) : Option Text :=
  (numberBehind nt .uint32 text).bind fun text =>
    (numberBehind nt .uint16 text).bind fun text => (wordBehind text).bind lineBehind

/-- So many lines of nodes stand at the front of a text. -/
def NodeLines : Nat → Text → Prop
  | 0, _ => True
  | n + 1, text => ∃ rest, nodeBehind nt text = some rest ∧ NodeLines n rest

/-- The number of nodes comes first, and as many lines of nodes; without a number that can
be read there must happen to be no nodes. -/
def NodesComplete (content : Text) : Prop :=
  match content.dropWhile isSpace with
  | [] => u.node_count = 0
  | c :: text =>
    let found := nt.get .uint32 (c :: text)
    if found.2.2 then found.1 = (0 : UInt32) else NodeLines nt found.1.toNat found.2.1

/-! ## The loops -/

variable {nt u} {s : TextStream}

theorem extract_behind {k : Kind} (var : k.Carrier) (good : s.good = true) {rest : Text}
    (behind : numberBehind nt k s.rest = some rest) :
    (s.extract nt k var).2 = { s with rest } := by
  have flags := TextStream.good_iff.mp good
  unfold numberBehind at behind
  cases text : s.rest.dropWhile isSpace with
  | nil => simp [text] at behind
  | cons c more =>
    simp only [text, Option.ite_none_left_eq_some, not_or, Bool.not_eq_true,
      Option.some.injEq] at behind
    obtain ⟨⟨read, left⟩, rfl⟩ := behind
    simp [TextStream.extract, good, text, read, left, flags]

/-- Where the number is missing or ends the text, or the stream has failed, it is not good
afterwards. -/
theorem extract_not_good {k : Kind} {var : k.Carrier}
    (none' : s.good = true → numberBehind nt k s.rest = none) :
    (s.extract nt k var).2.good = false := by
  unfold TextStream.extract
  by_cases good : s.good = true
  · have behind := none' good
    unfold numberBehind at behind
    rw [if_pos good]
    cases text : s.rest.dropWhile isSpace with
    | nil => simp [TextStream.good]
    | cons c more =>
      simp only [text, ite_eq_left_iff, not_or, reduceCtorEq] at behind
      by_cases ended : (nt.get k (c :: more)).2.1 = []
      · simp [TextStream.good, ended]
      · have failed : (nt.get k (c :: more)).2.2 = true := by
          by_contra read
          exact behind ⟨read, ended⟩
        simp [TextStream.good, failed]
  · rw [if_neg good]
    simp [TextStream.good]

theorem extractWord_behind (var : Text) (good : s.good = true) {rest : Text}
    (behind : wordBehind s.rest = some rest) :
    (s.extractWord var).2 = { s with rest } := by
  have flags := TextStream.good_iff.mp good
  unfold wordBehind at behind
  cases text : s.rest.dropWhile isSpace with
  | nil => simp [text] at behind
  | cons c more =>
    rw [text] at behind
    cases word : (c :: more).dropWhile (!isSpace ·) with
    | nil => simp [word] at behind
    | cons d later =>
      simp only [word, Option.some.injEq] at behind
      subst behind
      simp [TextStream.extractWord, good, text, word, flags]

theorem extractWord_not_good {var : Text} (none' : s.good = true → wordBehind s.rest = none) :
    (s.extractWord var).2.good = false := by
  unfold TextStream.extractWord
  by_cases good : s.good = true
  · have behind := none' good
    unfold wordBehind at behind
    rw [if_pos good]
    cases text : s.rest.dropWhile isSpace with
    | nil => simp [TextStream.good]
    | cons c more =>
      rw [text] at behind
      cases word : (c :: more).dropWhile (!isSpace ·) with
      | nil => simp [TextStream.good, word]
      | cons d later => simp [word] at behind
  · rw [if_neg good]
    simp [TextStream.good]

/-- Up to the end of a line there is a round for each character. -/
theorem returns_skipToEOL (good : s.good = true) {rest : Text}
    (behind : lineBehind s.rest = some rest) :
    Returns (skipToEOL · s) { s with rest } := by
  induction text : s.rest generalizing s with
  | nil => simp [lineBehind, text] at behind
  | cons c more ih =>
    have read := TextStream.getChar_of_cons endOfFile good text
    by_cases here : c = newline
    · have same : more = rest := by simpa [lineBehind, text, here] using behind
      refine Returns.congr (fun depth => ?_) (Returns.of_some { s with rest })
      simp [skipToEOL, read, here, same]
    · refine Returns.congr (fun depth => ?_)
        (?_ : Returns (skipToEOL · { s with rest := more }) { s with rest })
      · simp [skipToEOL, read, here]
      · exact ih (s := { s with rest := more }) good
          (by simpa [lineBehind, text, here] using behind) rfl

/-- Without the end of a line, or on a stream that is not good, `get` gives `EOF` forever. -/
theorem skipToEOL_none (fuel : Nat) (none' : s.good = true → lineBehind s.rest = none) :
    skipToEOL fuel s = none := by
  have other : endOfFile ≠ newline := by decide
  induction fuel generalizing s with
  | zero => simp [skipToEOL]
  | succ fuel ih =>
    by_cases good : s.good = true
    · cases text : s.rest with
      | nil =>
        have read : s.getChar endOfFile = (endOfFile, { s with eof := true, fail := true }) := by
          simp [TextStream.getChar, good, text]
        rw [skipToEOL, read, if_neg other]
        exact ih (by simp [TextStream.good])
      | cons c more =>
        have read := TextStream.getChar_of_cons endOfFile good text
        have behind := none' good
        by_cases here : c = newline
        · simp [lineBehind, text, here] at behind
        · rw [skipToEOL, read, if_neg here]
          exact ih fun _ => by simpa [lineBehind, text, here] using behind
    · have read : s.getChar endOfFile = (endOfFile, { s with fail := true }) := by
        simp [TextStream.getChar, good]
      rw [skipToEOL, read, if_neg other]
      exact ih (by simp [TextStream.good])

/-! ## The nodes of a file -/

/-- Either the number is missing, or what should follow it is. -/
theorem extract_bind {β : Type} {k : Kind} (var : k.Carrier) {next : Text → Option β}
    (none' : s.good = true → (numberBehind nt k s.rest).bind next = none) :
    (s.extract nt k var).2.good = true → next (s.extract nt k var).2.rest = none := by
  intro after
  have good : s.good = true := by
    by_contra bad
    rw [extract_not_good fun good => absurd good bad] at after
    exact absurd after (by simp)
  cases behind : numberBehind nt k s.rest with
  | none =>
    rw [extract_not_good fun _ => behind] at after
    exact absurd after (by simp)
  | some rest =>
    rw [extract_behind var good behind]
    simpa [behind] using none' good

theorem extractWord_bind {β : Type} (var : Text) {next : Text → Option β}
    (none' : s.good = true → (wordBehind s.rest).bind next = none) :
    (s.extractWord var).2.good = true → next (s.extractWord var).2.rest = none := by
  intro after
  have good : s.good = true := by
    by_contra bad
    rw [extractWord_not_good fun good => absurd good bad] at after
    exact absurd after (by simp)
  cases behind : wordBehind s.rest with
  | none =>
    rw [extractWord_not_good fun _ => behind] at after
    exact absurd after (by simp)
  | some rest =>
    rw [extractWord_behind var good behind]
    simpa [behind] using none' good

variable {l : Loading}

theorem readNode_none (fuel : Nat)
    (none' : l.input_file.good = true → nodeBehind nt l.input_file.rest = none) :
    readNode nt fuel l = none := by
  have line := skipToEOL_none fuel
    (extractWord_bind [] (extract_bind l.node_type (extract_bind l.index none')))
  simp only [readNode, line, Option.map_none]

theorem returns_readNode (good : l.input_file.good = true) {rest : Text}
    (behind : nodeBehind nt l.input_file.rest = some rest) :
    ∃ l', Returns (readNode nt · l) l' ∧ l'.input_file = { l.input_file with rest } := by
  simp only [nodeBehind, Option.bind_eq_some_iff] at behind
  obtain ⟨first, here, second, there, third, word, line⟩ := behind
  have index := extract_behind l.index good here
  have node_type := extract_behind l.node_type (s := { l.input_file with rest := first }) good
    there
  have node_ip := extractWord_behind [] (s := { l.input_file with rest := second }) good word
  have ended := returns_skipToEOL (s := { l.input_file with rest := third }) good line
  let index' := l.input_file.extract nt .uint32 l.index
  let node_type' := index'.2.extract nt .uint16 l.node_type
  let node_ip' := node_type'.2.extractWord []
  let f (input_file : TextStream) : Loading :=
    { l with input_file, index := index'.1, node_type := node_type'.1 }.addVertex
      index'.1 node_ip'.1
  have stream : node_ip'.2 = { l.input_file with rest := third } := by
    simp only [node_ip', node_type', index', index, node_type, node_ip]
  refine ⟨f { l.input_file with rest }, ?_, rfl⟩
  have same : (readNode nt · l) = fun fuel =>
      (skipToEOL fuel { l.input_file with rest := third }).map f := by
    funext fuel
    rw [← stream]
    rfl
  rw [same]
  exact ended.map f

variable (nt) in
theorem terminates_readNodes_iff {n : Nat} :
    Terminates (readNodes nt · n l) ↔
      if l.input_file.good then NodeLines nt n l.input_file.rest else n = 0 := by
  induction n generalizing l with
  | zero =>
    have ends : Terminates (readNodes nt · 0 l) := ⟨l, Returns.of_some l⟩
    simp [ends, NodeLines]
  | succ n ih =>
    by_cases complete :
        l.input_file.good = true ∧ ∃ rest, nodeBehind nt l.input_file.rest = some rest
    · obtain ⟨good, rest, behind⟩ := complete
      obtain ⟨l', first, file⟩ := returns_readNode good behind
      have later : Terminates (readNodes nt · n l') ↔ NodeLines nt n rest := by
        have good' : l'.input_file.good = true := by rw [file]; exact good
        rw [ih, if_pos good', file]
      rw [if_pos good]
      constructor
      · rintro ⟨b, both⟩
        exact ⟨rest, behind, later.mp ⟨b, first.of_bind both⟩⟩
      · rintro ⟨rest', behind', lines⟩
        obtain rfl : rest = rest' := Option.some.inj (behind.symm.trans behind')
        obtain ⟨b, others⟩ := later.mpr lines
        exact ⟨b, first.bind others⟩
    · -- this node's line is not complete
      have never (fuel : Nat) : readNodes nt fuel (n + 1) l = none := by
        have stuck : readNode nt fuel l = none := readNode_none fuel fun good => by
          by_contra some'
          exact complete ⟨good, Option.ne_none_iff_exists'.mp some'⟩
        rw [readNodes, stuck, Option.bind_none]
      have not := not_terminates_of_none never
      split
      · next good => exact ⟨fun ends => absurd ends not,
          fun lines => absurd ⟨good, lines.choose, lines.choose_spec.1⟩ complete⟩
      · exact ⟨fun ends => absurd ends not, fun zero => by omega⟩

/-! ## The whole file -/

theorem nodeLines_nil {n : Nat} : NodeLines nt n [] ↔ n = 0 := by
  cases n with
  | zero => simp [NodeLines]
  | succ n => simp [NodeLines, nodeBehind, numberBehind]

/-- After the number of nodes, either there is something left to read or the stream is not
good. -/
theorem nodesComplete_iff (nt : NumberText) (u : Uninitialized) (content : Text) :
    NodesComplete nt u content ↔
      if ((TextStream.ofStr content).extract nt .uint32 u.node_count).2.good then
        NodeLines nt ((TextStream.ofStr content).extract nt .uint32 u.node_count).1.toNat
          ((TextStream.ofStr content).extract nt .uint32 u.node_count).2.rest
      else ((TextStream.ofStr content).extract nt .uint32 u.node_count).1.toNat = 0 := by
  have zero (n : UInt32) : n.toNat = 0 ↔ n = 0 := UInt32.toNat_inj (b := 0)
  have fresh : (TextStream.ofStr content).good = true := by
    simp [TextStream.ofStr, TextStream.good]
  have whole : (TextStream.ofStr content).rest = content := by simp [TextStream.ofStr]
  simp only [NodesComplete, TextStream.extract, fresh, whole, if_true]
  cases text : content.dropWhile isSpace with
  | nil => simp [TextStream.good, zero]
  | cons c more =>
    simp only [TextStream.good]
    by_cases failed : (nt.get .uint32 (c :: more)).2.2 = true
    · simp [failed, zero]
    · by_cases ended : (nt.get .uint32 (c :: more)).2.1 = []
      · simp [failed, ended, nodeLines_nil]
      · simp [failed, ended]

/-- More rounds do not change what was read. -/
theorem skipToEOL_succ {fuel : Nat} {t : TextStream} (ended : skipToEOL fuel s = some t) :
    skipToEOL (fuel + 1) s = some t := by
  induction fuel generalizing s with
  | zero => simp [skipToEOL] at ended
  | succ fuel ih =>
    rw [skipToEOL] at ended ⊢
    split at ended
    · next here => rw [if_pos here, ended]
    · next here => rw [if_neg here, ih ended]

theorem readNodes_succ {fuel n : Nat} {l' : Loading} (ended : readNodes nt fuel n l = some l') :
    readNodes nt (fuel + 1) n l = some l' := by
  induction n generalizing l with
  | zero => exact ended
  | succ n ih =>
    obtain ⟨next, first, others⟩ := Option.bind_eq_some_iff.mp ended
    obtain ⟨stream, line, rfl⟩ := Option.map_eq_some_iff.mp first
    refine Option.bind_eq_some_iff.mpr ⟨_, ?_, ih others⟩
    exact Option.map_eq_some_iff.mpr ⟨stream, skipToEOL_succ line, rfl⟩

theorem terminates_construct_iff (nt : NumberText) (u : Uninitialized) (content : Text)
    (mGraph : NetworkGraph) :
    Terminates (construct nt u (some content) mGraph) ↔ NodesComplete nt u content := by
  let node_count := (TextStream.ofStr content).extract nt .uint32 u.node_count
  let l : Loading := ⟨node_count.2, mGraph, [], u.index, u.node_type, u.net_id⟩
  rw [nodesComplete_iff]
  refine Iff.trans ?_ (terminates_readNodes_iff nt (n := node_count.1.toNat) (l := l))
  constructor
  · rintro ⟨result, returns⟩
    obtain ⟨fuel, here⟩ := returns.exists_some
    obtain ⟨l', read, -⟩ := Option.map_eq_some_iff.mp here
    exact ⟨l', Returns.of_mono (fun depth _ => readNodes_succ) fuel read⟩
  · rintro ⟨l', ended⟩
    exact ⟨_, ended.map fun l => (ReturnStatus.succeed, finish nt u l)⟩

/-- A file that was opened is never answered with a failure. -/
theorem succeed_of_returns {content : Text} {mGraph : NetworkGraph}
    {result : ReturnStatus × NetworkGraph}
    (returns : Returns (construct nt u (some content) mGraph) result) :
    result.1 = .succeed ∧ result.2.mGraphValid = true := by
  obtain ⟨fuel, here⟩ := returns.exists_some
  obtain ⟨l, -, rfl⟩ := Option.map_eq_some_iff.mp here
  simp [finish]

/-- `construct` ends, with a graph that is valid, just when the lines of the nodes are
complete. Where the file ends among the edges does not matter. -/
theorem construct_ends_iff (nt : NumberText) (u : Uninitialized) (content : Text)
    (mGraph : NetworkGraph) :
    (∃ graph, Returns (construct nt u (some content) mGraph) (.succeed, graph) ∧
      graph.mGraphValid = true) ↔ NodesComplete nt u content := by
  rw [← terminates_construct_iff nt u content mGraph]
  constructor
  · rintro ⟨graph, returns, -⟩
    exact ⟨_, returns⟩
  · rintro ⟨⟨status, graph⟩, returns⟩
    have ended := succeed_of_returns returns
    simp only at ended
    rw [ended.1] at returns
    exact ⟨graph, returns, ended.2⟩

/-- One node, and the file ends with its address: `1`, and `0 0 10.0.0.1` without the end of
the line. -/
def unendedLine : Text := [49, 10, 48, 32, 48, 32, 49, 48, 46, 48, 46, 48, 46, 49]

theorem construct_unendedLine :
    ¬ ∀ (u : Uninitialized) (content : Text) (mGraph : NetworkGraph),
      ∃ graph, Returns (construct decimalText u (some content) mGraph) (.succeed, graph) := by
  intro all
  let u : Uninitialized :=
    { node_count := 0, full_edge_count := 0, index := 0, node_type := 0, net_id := 0
      fields := fun _ => ⟨0, 0, 0, 0, 0⟩ }
  obtain ⟨graph, returns⟩ := all u unendedLine ⟨[], [], false⟩
  have complete := (terminates_construct_iff _ _ _ _).mp ⟨_, returns⟩
  have front : unendedLine.dropWhile isSpace = 49 :: unendedLine.drop 1 := by decide +kernel
  have number : (decimalText.get .uint32 (49 :: unendedLine.drop 1)).1.toNat = 1 ∧
      (decimalText.get .uint32 (49 :: unendedLine.drop 1)).2 = (unendedLine.drop 1, false) := by
    decide +kernel
  have missing : nodeBehind decimalText (unendedLine.drop 1) = none := by decide +kernel
  simp only [NodesComplete, front, number, Bool.false_eq_true, if_false] at complete
  obtain ⟨rest, behind, -⟩ := complete
  rw [missing] at behind
  cases behind

end VRJuggler.Sim.GraphFile
