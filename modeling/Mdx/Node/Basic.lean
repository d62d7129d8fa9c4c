import Mdx.Json.Basic
import Mdx.Source.Basic


/-!
# Syntax trees

One type of node serves every stage. A node has a kind, an optional value, an optional position and
properties of its kind; a branch has children too, which may be none, and a leaf has not. The kinds
that a stage admits are in `Mdx.Node.Vocabulary`.

`Node.flatten` lists the nodes of a tree in document order, a node before its children, from a stack
of trees still to be listed.
-/

namespace Mdx

/-- A node without its children. -/
structure NodeHead where
  kind : String
  value : Option String := none
  position : Option Position := none
  props : Json.Members := []
deriving Inhabited, BEq

/-- A value that is neither a text nor empty and stands among the properties under the key of a node's
value, which it would be. -/
def NodeHead.misfit? (h : NodeHead) : Option Json :=
  match h.value with
  | some _ => none
  | none => (h.props.lookup "value").filter fun v => !v.isEmpty

/-- A syntax tree. -/
inductive Node where
  | leaf (head : NodeHead)
  | branch (head : NodeHead) (children : List Node)
deriving Inhabited, BEq

namespace Node

/-- The node without its children. -/
def head : Node → NodeHead
  | .leaf h => h
  | .branch h _ => h

/-- The children; a leaf has none to speak of. -/
def children? : Node → Option (List Node)
  | .leaf _ => none
  | .branch _ cs => some cs

/-- The children, an empty list for a leaf. -/
def children : Node → List Node
  | .leaf _ => []
  | .branch _ cs => cs

/-- The kind of a node. -/
def kind (n : Node) : String :=
  n.head.kind

/-- The value of a node. -/
def value (n : Node) : Option String :=
  n.head.value

/-- The value of a node, an empty one if there is none. -/
def text (n : Node) : String :=
  n.head.value.getD ""

/-- The position of a node. -/
def position (n : Node) : Option Position :=
  n.head.position

/-- The properties of a node. -/
def props (n : Node) : Json.Members :=
  n.head.props

/-- A property of a node. -/
def prop? (n : Node) (key : String) : Option Json :=
  n.head.props.lookup key

/-- Whether a node is a leaf. -/
def isLeaf : Node → Bool
  | .leaf _ => true
  | .branch _ _ => false

/-- The node with another head. -/
def withHead (h : NodeHead) : Node → Node
  | .leaf _ => .leaf h
  | .branch _ cs => .branch h cs

/-- A node with a head and optional children. -/
def ofParts (h : NodeHead) : Option (List Node) → Node
  | none => .leaf h
  | some cs => .branch h cs

/-- A text leaf. -/
def ofText (value : String) (position : Option Position) : Node :=
  .leaf { kind := "text", value := some value, position := position }

/-- A root without a position. -/
def ofChildren (children : List Node) : Node :=
  .branch { kind := "root" } children

/-- An element of a markup tree. -/
def element (tag : String) (properties : Json.Members) (position : Option Position)
    (children : List Node) : Node :=
  .branch
    { kind := "element"
      position := position
      props := [("tagName", .str tag), ("properties", .obj properties)] }
    children

mutual

/-- The number of nodes of a tree. -/
def size : Node → Nat
  | .leaf _ => 1
  | .branch _ cs => 1 + sizeOfList cs

/-- The number of nodes of a list of trees. -/
def sizeOfList : List Node → Nat
  | [] => 0
  | n :: rest => size n + sizeOfList rest

end

@[simp] theorem sizeOfList_append (xs ys : List Node) :
    sizeOfList (xs ++ ys) = sizeOfList xs + sizeOfList ys := by
  induction xs with
  | nil => simp [sizeOfList]
  | cons n rest ih => simp [sizeOfList, ih, Nat.add_assoc]

theorem size_eq (n : Node) : n.size = 1 + sizeOfList n.children := by
  cases n <;> simp [size, children, sizeOfList]

mutual

/-- The texts of a tree, joined: a leaf gives its value, a branch the texts of its children, and a
line break a line feed. -/
def literalText : Node → String
  | .leaf h => if h.kind = "break" then "\n" else h.value.getD ""
  | .branch h cs => if h.kind = "break" then "\n" else literalTexts cs

/-- The texts of a list of trees, joined. -/
def literalTexts : List Node → String
  | [] => ""
  | n :: rest => literalText n ++ literalTexts rest

end

mutual

/-- The tree with every head changed. -/
def mapHeads (f : NodeHead → NodeHead) : Node → Node
  | .leaf h => .leaf (f h)
  | .branch h cs => .branch (f h) (mapHeadsList f cs)

/-- The trees with every head changed. -/
def mapHeadsList (f : NodeHead → NodeHead) : List Node → List Node
  | [] => []
  | n :: rest => mapHeads f n :: mapHeadsList f rest

end

end Node

namespace Node

/-- The nodes of the trees on a stack in document order. -/
def flattenStack (stack : List Node) : List Node :=
  match stack with
  | [] => []
  | n :: rest => n :: flattenStack (n.children ++ rest)
termination_by sizeOfList stack
decreasing_by
  simp only [sizeOfList, sizeOfList_append, size_eq]
  omega

/-- The nodes of a tree in document order. -/
def flatten (tree : Node) : List Node :=
  flattenStack [tree]

/-- The nodes of the given kinds in document order. -/
def findAll (tree : Node) (kinds : List String) : List Node :=
  tree.flatten.filter fun n => kinds.contains n.kind

end Node

end Mdx
