import VRJuggler.Base.Run
import VRJuggler.Io.TextStream

/-!
# XML object streams

`vpr::XMLObjectWriter` and `vpr::XMLObjectReader`. Of `cppdom` a node has a name,
attributes, its character data, and child elements; a document that is saved and loaded
is the same tree. The `std::vector` of the reader copies its elements when it grows:
`grow` is the capacity that it asks for.
-/
namespace VRJuggler.Io

/-- `cppdom::Node`. -/
inductive XmlNode where
  | mk (name : String) (attributes : List (String × Text)) (cdata : Text)
      (children : List XmlNode)

namespace XmlNode

def name : XmlNode → String
  | mk name _ _ _ => name

def attributes : XmlNode → List (String × Text)
  | mk _ attributes _ _ => attributes

/-- `getFullCdata`. -/
def cdata : XmlNode → Text
  | mk _ _ cdata _ => cdata

def children : XmlNode → List XmlNode
  | mk _ _ _ children => children

/-- `getAttribute`: an attribute that does not exist is empty. -/
def getAttribute (node : XmlNode) (attributeName : String) : Text :=
  (node.attributes.lookup attributeName).getD []

end XmlNode

/-- `setAttribute` changes the attribute of that name, or adds one. -/
def setAttribute (attributes : List (String × Text)) (attributeName : String) (value : Text) :
    List (String × Text) :=
  (attributeName, value) :: attributes.filter fun a => a.1 ≠ attributeName

/-! ## Writing -/

inductive Target where
  | attrib
  | cdata
  deriving DecidableEq

/-- The nodes that are open, the current one first; a node joins the children of the one
around it when it is closed. `mRootNode` is the document once its root is closed. -/
structure XMLObjectWriter where
  mRootNode : Option XmlNode
  mCurNode : List XmlNode
  mCurCData : Text
  mCurAttribName : String
  mCurAttribData : Text
  mCurTarget : Target

namespace XMLObjectWriter

def empty : XMLObjectWriter where
  mRootNode := none
  mCurNode := []
  mCurCData := []
  mCurAttribName := ""
  mCurAttribData := []
  mCurTarget := .cdata

/-- `setCdata` of the pending character data, if there is some. -/
def flushCdata (mCurCData : Text) : XmlNode → XmlNode
  | .mk name attributes cdata children =>
    .mk name attributes (if mCurCData = [] then cdata else mCurCData) children

def addChild (child : XmlNode) : XmlNode → XmlNode
  | .mk name attributes cdata children => .mk name attributes cdata (children ++ [child])

variable (w : XMLObjectWriter)

/-- `none` stands for an `IOException`, here for a second root. -/
def beginTag (tagName : String) : Option XMLObjectWriter :=
  match w.mCurNode with
  | [] =>
    match w.mRootNode with
    | some _ => none
    | none => some { w with mCurNode := [.mk tagName [] [] []] }
  | node :: parents =>
    some { w with
      mCurNode := .mk tagName [] [] [] :: flushCdata w.mCurCData node :: parents
      mCurCData := [] }

/-- The character data of the node around the closed one is taken up again. -/
def endTag : Option XMLObjectWriter :=
  match w.mCurNode with
  | [] => none
  | [node] => some { w with
      mRootNode := some (flushCdata w.mCurCData node)
      mCurNode := []
      mCurCData := [] }
  | node :: parent :: parents => some { w with
      mCurNode := addChild (flushCdata w.mCurCData node) parent :: parents
      mCurCData := parent.cdata }

def beginAttribute (attributeName : String) : Option XMLObjectWriter :=
  if w.mCurAttribName ≠ "" then none
  else if w.mCurAttribData ≠ [] then none
  else some { w with mCurAttribName := attributeName, mCurTarget := .attrib }

/-- Outside of a node there is none to give the attribute to. -/
def endAttribute : Option XMLObjectWriter :=
  if w.mCurTarget ≠ .attrib then none
  else
    match w.mCurNode with
    | [] => none
    | .mk name attributes cdata children :: parents => some { w with
        mCurNode := .mk name (setAttribute attributes w.mCurAttribName w.mCurAttribData)
          cdata children :: parents
        mCurAttribName := ""
        mCurAttribData := []
        mCurTarget := .cdata }

/-- A value is set apart from what stands before it. -/
def append (data value : Text) : Text := if data = [] then value else data ++ blank :: value

def writeValueStringRep (rep : Text) : XMLObjectWriter :=
  match w.mCurTarget with
  | .attrib => { w with mCurAttribData := append w.mCurAttribData rep }
  | .cdata => { w with mCurCData := append w.mCurCData rep }

def writeString (val : Text) : Option XMLObjectWriter :=
  match w.mCurTarget with
  | .attrib =>
    if w.mCurAttribData ≠ [] then none else some { w with mCurAttribData := val }
  | .cdata => some { w with mCurCData := append w.mCurCData (quote :: (val ++ [quote])) }

variable (nt : NumberText)

/-- A byte is written as a `Uint16`, so that it is not taken for a character. -/
def write : (k : Kind) → k.Carrier → Option XMLObjectWriter
  | .uint8, val => some (w.writeValueStringRep (nt.put .uint16 val.toUInt16))
  | .uint16, val => some (w.writeValueStringRep (nt.put .uint16 val))
  | .uint32, val => some (w.writeValueStringRep (nt.put .uint32 val))
  | .uint64, val => some (w.writeValueStringRep (nt.put .uint64 val))
  | .float, val => some (w.writeValueStringRep (nt.put .float val))
  | .double, val => some (w.writeValueStringRep (nt.put .double val))
  | .bool, val => some (w.writeValueStringRep (nt.put .bool val))
  | .string, val => w.writeString val

def perform (nt : NumberText) (w : XMLObjectWriter) : Call → Option XMLObjectWriter
  | .beginTag tagName => w.beginTag tagName
  | .endTag => w.endTag
  | .beginAttribute attributeName => w.beginAttribute attributeName
  | .endAttribute => w.endAttribute
  | .write k val => w.write nt k val

end XMLObjectWriter

/-! ## Reading -/

/-- `nextChild` holds the child elements from `nextChild_i` on. -/
structure NodeState where
  node : XmlNode
  nextChild : List XmlNode
  cdataSource : TextStream

namespace NodeState

def ofNode (node : XmlNode) : NodeState where
  node := node
  nextChild := node.children
  cdataSource := .ofStr node.cdata

/-- The copy constructor makes a new stream of the content. -/
def copy (rhs : NodeState) : NodeState where
  node := rhs.node
  nextChild := rhs.nextChild
  cdataSource := .ofStr rhs.cdataSource.str

/-- The assignment gives the content to the stream that is there. -/
def assign (lhs rhs : NodeState) : NodeState where
  node := rhs.node
  nextChild := rhs.nextChild
  cdataSource := lhs.cdataSource.setStr rhs.cdataSource.str

end NodeState

/-- `std::vector<NodeState>` used as a stack: the last element stands first. -/
structure NodeStack where
  items : List NodeState
  capacity : Nat

namespace NodeStack

def empty : NodeStack where
  items := []
  capacity := 0

/-- A full vector moves to a larger place, by copies. -/
def pushBack (grow : Nat → Nat) (stack : NodeStack) (state : NodeState) : NodeStack :=
  if stack.items.length < stack.capacity then
    { stack with items := state.copy :: stack.items }
  else
    { items := state.copy :: stack.items.map NodeState.copy
      capacity := max (stack.items.length + 1) (grow stack.capacity) }

/-- The copy of a vector has copies of its elements. -/
def copy (stack : NodeStack) : NodeStack where
  items := stack.items.map NodeState.copy
  capacity := stack.items.length

/-- The assignment of a vector: a new place when the old one is too small, otherwise
assignments to the elements that are there, and copies for the others. Both lists begin
with the last element. -/
def assign (lhs rhs : NodeStack) : NodeStack :=
  if lhs.capacity < rhs.items.length then rhs.copy
  else
    let shared := min lhs.items.length rhs.items.length
    let old := lhs.items.drop (lhs.items.length - shared)
    let new := rhs.items.drop (rhs.items.length - shared)
    { items := (rhs.items.take (rhs.items.length - shared)).map NodeState.copy ++
        List.zipWith NodeState.assign old new
      capacity := lhs.capacity }

end NodeStack

structure XMLObjectReader where
  mRootNode : XmlNode
  mCurNodeStack : NodeStack
  mAttribSource : TextStream
  mCurSource : Target
  mReadStateStack : List NodeStack

namespace XMLObjectReader

def ofRoot (mRootNode : XmlNode) : XMLObjectReader where
  mRootNode := mRootNode
  mCurNodeStack := .empty
  mAttribSource := .ofStr []
  mCurSource := .cdata
  mReadStateStack := []

variable (grow : Nat → Nat) (nt : NumberText)

/-- The name of the tag is only asserted. -/
def beginTag (_tagName : String) : Reading XMLObjectReader Unit := fun s =>
  match s.mCurNodeStack.items with
  | [] =>
    (.ok (), { s with mCurNodeStack := s.mCurNodeStack.pushBack grow (.ofNode s.mRootNode) })
  | back :: below =>
    match back.nextChild with
    | [] => (.error .ioException, s)
    | tag_node :: rest =>
      let stack := { s.mCurNodeStack with items := { back with nextChild := rest } :: below }
      (.ok (), { s with mCurNodeStack := stack.pushBack grow (.ofNode tag_node) })

def endTag : Reading XMLObjectReader Unit := fun s =>
  match s.mCurNodeStack.items with
  | [] => (.error .ioException, s)
  | _ :: below => (.ok (), { s with mCurNodeStack := { s.mCurNodeStack with items := below } })

def beginAttribute (attributeName : String) : Reading XMLObjectReader Unit := fun s =>
  match s.mCurNodeStack.items with
  | [] => (.error .undefined, s)
  | back :: _ =>
    (.ok (), { s with
      mAttribSource :=
        (s.mAttribSource.clear.setStr (back.node.getAttribute attributeName)).seekBeg
      mCurSource := .attrib })

def endAttribute : Reading XMLObjectReader Unit := fun s =>
  (.ok (), { s with
    mAttribSource := s.mAttribSource.clear.seekBeg.setStr []
    mCurSource := .cdata })

/-- `readValueStringRep` on `getCurSource`, or on the character data. -/
def onSource {α : Type} (source : Target) (m : Reading TextStream α) :
    Reading XMLObjectReader α := fun s =>
  match source with
  | .attrib => ((m s.mAttribSource).1, { s with mAttribSource := (m s.mAttribSource).2 })
  | .cdata =>
    match s.mCurNodeStack.items with
    | [] => (.error .undefined, s)
    | back :: below =>
      let ended := m back.cdataSource
      (ended.1, { s with
        mCurNodeStack := { s.mCurNodeStack with
          items := { back with cdataSource := ended.2 } :: below } })

def readNumber (k : Kind) : Reading XMLObjectReader k.Carrier := do
  let s ← Reading.get
  onSource s.mCurSource (TextStream.readValueStringRep nt k)

/-- An attribute is taken as a whole. -/
def readString : Reading XMLObjectReader Text := do
  let s ← Reading.get
  match s.mCurSource with
  | .attrib => pure s.mAttribSource.str
  | .cdata => onSource .cdata TextStream.readQuoted

def read : (k : Kind) → Reading XMLObjectReader k.Carrier
  | .uint8 => do
    let temp_data ← readNumber nt .uint16
    pure temp_data.toUInt8
  | .uint16 => readNumber nt .uint16
  | .uint32 => readNumber nt .uint32
  | .uint64 => readNumber nt .uint64
  | .float => readNumber nt .float
  | .double => readNumber nt .double
  | .bool => readNumber nt .bool
  | .string => readString

def reader : ObjectReader XMLObjectReader where
  beginTag := beginTag grow
  endTag := endTag
  beginAttribute := beginAttribute
  endAttribute := endAttribute
  read := read nt

def resetReading (s : XMLObjectReader) : XMLObjectReader :=
  { s with mCurSource := .cdata, mCurNodeStack := { s.mCurNodeStack with items := [] } }

/-- The saved state is copied twice: into the `ReadState`, and with it into the vector. -/
def pushState (s : XMLObjectReader) : XMLObjectReader :=
  { s with mReadStateStack := s.mCurNodeStack.copy :: s.mReadStateStack }

/-- `none` when no state was pushed. -/
def popState (s : XMLObjectReader) : Option XMLObjectReader :=
  match s.mReadStateStack with
  | [] => none
  | new_state :: rest =>
    some { s with
      mReadStateStack := rest
      mCurNodeStack := s.mCurNodeStack.assign new_state.copy }

end XMLObjectReader

end VRJuggler.Io
