import Mdx.Fault.Structure
import Mdx.Json.Display
import Mdx.Node.Basic

/-!
# Vocabularies

Each stage admits nodes of certain kinds only. `Draft.validate` checks a tree in document order and
reports the first node whose kind is not admitted. A draft is a tree as a transform leaves it: values
that are no nodes may have got among the children of its root.
-/

namespace Mdx

namespace Vocabulary

/-- The kinds of a parsed Markdown document. -/
def generic : List String :=
  ["root", "paragraph", "heading", "thematicBreak", "blockquote", "list", "listItem", "code", "html",
   "table", "tableRow", "tableCell", "text", "emphasis", "strong", "delete", "inlineCode", "break",
   "link", "image"]

/-- The kinds of embedded markup and module statements. -/
def special : List String :=
  ["jsx", "import", "export"]

/-- The kinds after the first stage, which turns all raw markup into elements. -/
def extended : List String :=
  generic.filter (· != "html") ++ special

/-- The kinds after the second stage. -/
def markup : List String :=
  ["root", "element", "text", "inlineCode"] ++ special

end Vocabulary

/-- A child of a draft's root: a node, or a value that is none. -/
inductive DraftItem where
  | node (tree : Node)
  | stray (value : Json)
deriving Inhabited

/-- A tree whose root may have values among its children that are no nodes. -/
structure Draft where
  head : NodeHead
  items : Option (List DraftItem)
deriving Inhabited

namespace Draft

/-- A tree as a draft. -/
def ofNode (tree : Node) : Draft where
  head := tree.head
  items := tree.children?.map (·.map .node)

/-- The children of the root that are nodes. -/
def nodes (items : List DraftItem) : List Node :=
  items.filterMap fun
    | .node n => some n
    | .stray _ => none

/-- The tree without its stray values. -/
def toNode (d : Draft) : Node :=
  Node.ofParts d.head (d.items.map nodes)

/-- The values in the tree that are no nodes. -/
def strays (d : Draft) : List Json :=
  (d.items.getD []).filterMap fun
    | .node _ => none
    | .stray v => some v

/-- The draft with items added at the end of the root's children. -/
def append (d : Draft) (more : List DraftItem) : Draft :=
  { d with items := some (d.items.getD [] ++ more) }

/-- The draft with items added at the start of the root's children. -/
def prepend (d : Draft) (more : List DraftItem) : Draft :=
  { d with items := some (more ++ d.items.getD []) }

/-- The draft with every node changed, the root too. -/
def mapHeads (f : NodeHead → NodeHead) (d : Draft) : Draft where
  head := f d.head
  items := d.items.map (·.map fun
    | .node n => .node (n.mapHeads f)
    | .stray v => .stray v)

end Draft

/-- Checks the kind of one node. -/
def checkKind (vocabulary : List String) (stage : String) (h : NodeHead) :
    Except StructureError Unit :=
  if vocabulary.contains h.kind then .ok ()
  else .error ⟨.unknownKind stage h.kind, h.position⟩

/-- Checks nodes one after another. -/
def checkKinds (vocabulary : List String) (stage : String) : List Node → Except StructureError Unit
  | [] => .ok ()
  | n :: rest =>
      match checkKind vocabulary stage n.head with
      | .ok _ => checkKinds vocabulary stage rest
      | .error e => .error e

/-- Checks the children of a draft's root one after another. -/
def checkItems (vocabulary : List String) (stage : String) :
    List DraftItem → Except StructureError Unit
  | [] => .ok ()
  | .stray v :: _ => .error ⟨.strayValue stage v.display, none⟩
  | .node n :: rest =>
      match checkKinds vocabulary stage n.flatten with
      | .ok _ => checkItems vocabulary stage rest
      | .error e => .error e

/-- Checks that a tree has a root at its top and nodes of the vocabulary only. -/
def Node.validate (tree : Node) (vocabulary : List String) (stage : String) :
    Except StructureError Unit :=
  if tree.kind = "root" then checkKinds vocabulary stage tree.flatten
  else .error ⟨.notRooted stage tree.kind, none⟩

/-- Checks that a draft is a tree that has a root at its top and nodes of the vocabulary only. -/
def Draft.validate (d : Draft) (vocabulary : List String) (stage : String) :
    Except StructureError Unit :=
  if d.head.kind = "root" then
    match checkKind vocabulary stage d.head with
    | .ok _ => checkItems vocabulary stage (d.items.getD [])
    | .error e => .error e
  else .error ⟨.notRooted stage d.head.kind, none⟩

/-- The error of a value that stands in a tree's place. -/
def notATree (value : Json) (stage : String) : StructureError :=
  ⟨.notRooted stage value.kindName, none⟩

end Mdx
