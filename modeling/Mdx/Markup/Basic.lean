import Mdx.Fault.Failure
import Mdx.Node.Vocabulary

/-!
# Markup trees

A markup tree has elements, with a tag name and properties, in place of the kinds of a document. The
paragraphs of a tight list's items give way to their contents; the rows of a table are divided into a
head, of one row, and a body. Embedded elements and module statements stay as they are.
-/

namespace Mdx.Markup

/-- The tags of the kinds whose children and position are all there is to them. -/
def simpleTag? (kind : String) : Option String :=
  match kind with
  | "paragraph" => some "p"
  | "blockquote" => some "blockquote"
  | "thematicBreak" => some "hr"
  | "emphasis" => some "em"
  | "strong" => some "strong"
  | "delete" => some "del"
  | "break" => some "br"
  | _ => none

/-- An element in place of a node. -/
def elementFor (h : NodeHead) (tag : String) (properties : Json.Members) (children : List Node) :
    Node :=
  Node.element tag properties h.position children

/-- The tag of a heading. -/
def headingTag (h : NodeHead) : Except Failure String :=
  match ((h.props.lookup "depth").getD (.int 1)).toInteger with
  | .error fault => .error (.ofInteger fault)
  | .ok depth =>
      if 1 ≤ depth ∧ depth ≤ 6 then .ok ("h" ++ toString depth)
      else .error (.structural ⟨.headingDepth depth, h.position⟩)

/-- Whether a property counts as set. -/
def isSet (h : NodeHead) (key : String) : Bool :=
  (h.props.lookup key).any (!·.isEmpty)

/-- The tag of a list. -/
def listTag (h : NodeHead) : String :=
  if isSet h "ordered" then "ol" else "ul"

/-- The properties of a list: where an ordered one starts, unless at one. -/
def listProperties (h : NodeHead) : Json.Members :=
  match h.props.lookup "start" with
  | none => []
  | some .null => []
  | some start => if isSet h "ordered" && !start.isOne then [("start", start)] else []

/-- Whether a list or an item is tight. -/
def isTight (h : NodeHead) : Bool :=
  !isSet h "spread"

/-- The properties of a piece of code: its language and what else its first line says. -/
def codeProperties (h : NodeHead) : Json.Members :=
  let language := match h.props.lookup "lang" with
    | some lang => if lang.isEmpty then [] else
        [("className", Json.arr [.str ("language-" ++ lang.plain)])]
    | none => []
  let rest := match h.props.lookup "meta" with
    | some extra => if extra.isEmpty then [] else [("metastring", extra)]
    | none => []
  language ++ rest

/-- A leaf of some kind with the text of a node. A misfit in place of the text stays one. -/
def textLeaf (kind : String) (position : Option Position) (h : NodeHead) : Node :=
  match h.misfit? with
  | none => .leaf { kind := kind, value := some (h.value.getD ""), position := position }
  | some v => .leaf { kind := kind, position := position, props := [("value", v)] }

/-- The element for a piece of code. -/
def codeNode (h : NodeHead) : Node :=
  elementFor h "pre" [] [Node.element "code" (codeProperties h) none [textLeaf "text" none h]]

/-- The title among the properties of a link or an image. -/
def titleProperty (h : NodeHead) : Json.Members :=
  match h.props.lookup "title" with
  | none => []
  | some .null => []
  | some title => [("title", title)]

/-- The properties of a link. -/
def linkProperties (h : NodeHead) : Json.Members :=
  ("href", (h.props.lookup "url").getD (.str "")) :: titleProperty h

/-- The properties of an image. -/
def imageProperties (h : NodeHead) : Json.Members :=
  ("src", (h.props.lookup "url").getD (.str "")) ::
    ("alt", (h.props.lookup "alt").getD (.str "")) :: titleProperty h

/-- The alignments of a table's columns. -/
def alignments (h : NodeHead) : Except Failure (List Json) :=
  match h.props.lookup "align" with
  | none => .ok []
  | some v =>
      if v.isEmpty then .ok []
      else match v with
        | .arr items => .ok items
        | .str s => .ok (s.toList.map fun c => .str c.toString)
        | .obj members => .ok (members.map fun m => .str m.1)
        | other => .error (.badKind ("'" ++ other.kindName ++ "' object is not iterable"))

/-- The properties of a cell in the column whose alignment comes first. -/
def cellProperties : List Json → Json.Members
  | [] => []
  | align :: _ => if align.isEmpty then [] else [("align", align)]

/-- The rows of a table in a head and a body. -/
def tableSections : List Node → List Node
  | [] => []
  | [first] => [Node.element "thead" [] none [first]]
  | first :: rest => [Node.element "thead" [] none [first], Node.element "tbody" [] none rest]

/-- What becomes of a node: it stays, it becomes a leaf, or an element with certain contents. -/
inductive Shape where
  /-- The node stays as it is. -/
  | kept
  /-- A leaf with the node's text. -/
  | text
  /-- A piece of code. -/
  | code
  /-- An image, whatever the node holds. -/
  | image
  /-- An element with the node's children. -/
  | wrapped (tag : String) (properties : Json.Members)
  /-- A list of items. -/
  | list (tag : String) (properties : Json.Members) (tight : Bool)
  /-- An item of a list. -/
  | item (tight : Bool)
  /-- A table with these alignments of its columns. -/
  | table (aligns : List Json)
  /-- A row outside a table. -/
  | row
deriving Inhabited

/-- What becomes of a node of a document. -/
def shapeOf (h : NodeHead) : Except Failure Shape :=
  if Vocabulary.special.contains h.kind then .ok .kept
  else match simpleTag? h.kind with
    | some tag => .ok (.wrapped tag [])
    | none =>
        match h.kind with
        | "text" => .ok .text
        | "inlineCode" => .ok .text
        | "heading" => (headingTag h).map fun tag => .wrapped tag []
        | "list" => .ok (.list (listTag h) (listProperties h) (isTight h))
        | "listItem" => .ok (.item (isTight h))
        | "code" => .ok .code
        | "link" => .ok (.wrapped "a" (linkProperties h))
        | "image" => .ok .image
        | "table" => (alignments h).map .table
        | "tableRow" => .ok .row
        | "tableCell" => .ok (.wrapped "td" [])
        | kind => .error (.structural ⟨.unmappedKind kind, h.position⟩)

/-- The markup of a node that does not stay, from the markup of its children. -/
def assemble (h : NodeHead) (children : List Node) : Shape → Node
  | .kept => .leaf h
  | .text => textLeaf h.kind h.position h
  | .code => codeNode h
  | .image => elementFor h "img" (imageProperties h) []
  | .wrapped tag properties => elementFor h tag properties children
  | .list tag properties _ => elementFor h tag properties children
  | .item _ => elementFor h "li" [] children
  | .table _ => elementFor h "table" [] (tableSections children)
  | .row => elementFor h "tr" [] children

/-- Two lists of results as one; the first failure counts. -/
def joined (first rest : Except Failure (List Node)) : Except Failure (List Node) :=
  match first with
  | .error e => .error e
  | .ok xs =>
      match rest with
      | .error e => .error e
      | .ok ys => .ok (xs ++ ys)

mutual

/-- The markup of a node. -/
def ofNode : Node → Except Failure Node
  | .leaf h => (shapeOf h).map (assemble h [])
  | .branch h cs =>
      match shapeOf h with
      | .error e => .error e
      | .ok .kept => .ok (.branch h cs)
      | .ok (.wrapped tag properties) => (ofNodes cs).map (elementFor h tag properties)
      | .ok (.list tag properties tight) => (ofItems tight cs).map (elementFor h tag properties)
      | .ok (.item tight) => (ofContents tight cs).map (elementFor h "li" [])
      | .ok (.table aligns) =>
          (ofRows "th" aligns cs).map fun rows => elementFor h "table" [] (tableSections rows)
      | .ok .row => (ofCells "td" [] cs).map (elementFor h "tr" [])
      | .ok shape => .ok (assemble h [] shape)

/-- The markup of nodes. -/
def ofNodes : List Node → Except Failure (List Node)
  | [] => .ok []
  | n :: rest => joined ((ofNode n).map ([·])) (ofNodes rest)

/-- The markup of a list's children. The list, and not the item, says whether an item is tight. -/
def ofItems (tight : Bool) : List Node → Except Failure (List Node)
  | [] => .ok []
  | .leaf h :: rest =>
      joined (if h.kind = "listItem" then .ok [elementFor h "li" [] []]
          else (ofNode (.leaf h)).map ([·]))
        (ofItems tight rest)
  | .branch h cs :: rest =>
      joined (if h.kind = "listItem" then (ofContents tight cs).map fun cs => [elementFor h "li" [] cs]
          else (ofNode (.branch h cs)).map ([·]))
        (ofItems tight rest)

/-- The markup of an item's children; in a tight item, that of a paragraph's children stands for the
paragraph. -/
def ofContents (tight : Bool) : List Node → Except Failure (List Node)
  | [] => .ok []
  | .leaf h :: rest =>
      joined (if tight && h.kind = "paragraph" then .ok [] else (ofNode (.leaf h)).map ([·]))
        (ofContents tight rest)
  | .branch h cs :: rest =>
      joined (if tight && h.kind = "paragraph" then ofNodes cs else (ofNode (.branch h cs)).map ([·]))
        (ofContents tight rest)

/-- The markup of a table's rows, the first of which has cells with the given tag. -/
def ofRows (tag : String) (aligns : List Json) : List Node → Except Failure (List Node)
  | [] => .ok []
  | n :: rest => joined ((ofRow tag aligns n).map ([·])) (ofRows "td" aligns rest)

/-- The markup of a table's row. -/
def ofRow (tag : String) (aligns : List Json) : Node → Except Failure Node
  | .leaf h =>
      if h.kind = "tableRow" then .ok (elementFor h "tr" [] [])
      else .error (.structural ⟨.rowExpected h.kind, h.position⟩)
  | .branch h cs =>
      if h.kind = "tableRow" then (ofCells tag aligns cs).map (elementFor h "tr" [])
      else .error (.structural ⟨.rowExpected h.kind, h.position⟩)

/-- The markup of a row's cells. -/
def ofCells (tag : String) (aligns : List Json) : List Node → Except Failure (List Node)
  | [] => .ok []
  | n :: rest => joined ((ofCell tag aligns n).map ([·])) (ofCells tag aligns.tail rest)

/-- The markup of a cell in the column whose alignment comes first. -/
def ofCell (tag : String) (aligns : List Json) : Node → Except Failure Node
  | .leaf h =>
      if h.kind = "tableCell" then .ok (elementFor h tag (cellProperties aligns) [])
      else .error (.structural ⟨.cellExpected h.kind, h.position⟩)
  | .branch h cs =>
      if h.kind = "tableCell" then (ofNodes cs).map (elementFor h tag (cellProperties aligns))
      else .error (.structural ⟨.cellExpected h.kind, h.position⟩)

end

/-- A structural check as a step that may fail. -/
def checked : Except StructureError Unit → Except Failure Unit
  | .ok _ => .ok ()
  | .error e => .error (.structural e)

/-- The markup tree of an extended tree. -/
def ofExtended (tree : Node) : Except Failure Node := do
  checked (tree.validate Vocabulary.extended "stage2")
  let children ← ofNodes tree.children
  let result : Node :=
    .branch { kind := "root", position := tree.position, props := tree.props } children
  checked (result.validate Vocabulary.markup "stage2")
  return result

end Mdx.Markup
