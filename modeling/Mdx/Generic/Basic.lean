import Mdx.Generic.Inline
import Mdx.Source.Basic

/-!
# Generic trees

The tree of a Markdown document. Blocks have positions, which reach from the start of their first
line to the end of their last one; running text has none.
-/

namespace Mdx.Generic

open Mdx.Markdown

/-- The position of a block that has these lines. Lines past the end of the text stand for its last
line, and negative lines are counted back from its end. -/
def linesPosition? (ix : LineIndex) (first next : Int) : Option Position := do
  let start ← ix.lineStartAt? first
  let stop ← ix.lineEndAt? (max first (next - 1))
  return ix.span start stop

/-- The position of a block. -/
def blockPosition (ix : LineIndex) (h : SyntaxHead) : Except Failure (Option Position) :=
  match h.lines with
  | none => .ok none
  | some lines =>
      match linesPosition? ix lines.1 lines.2 with
      | some position => .ok (some position)
      | none => .error (.outOfRange "list index out of range")

/-- Text without a line feed at its end. -/
def withoutFinalBreak (s : List Char) : List Char :=
  match s.getLast? with
  | some '\n' => s.dropLast
  | _ => s

/-- A text as a property; an empty one is none. -/
def textProperty (s : List Char) : Json :=
  if s.isEmpty then .null else .str (String.ofList s)

/-- A block of code, in a language and with a remark. -/
def codeNode (position : Option Position) (h : SyntaxHead) (lang extra : List Char) : Node :=
  .leaf
    { kind := "code"
      value := some (String.ofList (withoutFinalBreak h.content.toList))
      position := position
      props := [("lang", textProperty lang), ("meta", textProperty extra)] }

/-- A block of code between fences: the first word after the fence names the language, and the rest
is a remark. -/
def fenceNode (position : Option Position) (h : SyntaxHead) : Node :=
  let info := Text.trim h.info.toList
  codeNode position h (info.takeWhile (· != ' ')) (Text.trim ((info.dropWhile (· != ' ')).drop 1))

/-- A block of raw markup. -/
def htmlNode (position : Option Position) (h : SyntaxHead) : Node :=
  .leaf
    { kind := "html"
      value := some (String.ofList (Text.dropEndWhile (· == '\n') h.content.toList))
      position := position }

/-- The depth of a heading, from its tag. -/
def headingDepth (tag : String) : Except Failure Int :=
  match (Json.str (String.ofList (tag.toList.drop 1))).toInteger with
  | .ok depth => .ok depth
  | .error fault => .error (.ofInteger fault)

/-- The number that an ordered list starts with. -/
def listStart (h : SyntaxHead) : Except Failure Json :=
  if h.kind = "ordered_list" then
    match ((h.attrs.lookup "start").getD (.int 1)).toInteger with
    | .ok start => .ok (.int start)
    | .error fault => .error (.ofInteger fault)
  else .ok .null

/-- A list is tight if the paragraphs of one of its items are hidden. -/
def isTightList (items : List Syntax) : Bool :=
  items.any fun item => item.children.any fun s => s.kind = "paragraph" && s.head.hidden

/-- The words that name an alignment. -/
def alignmentWords : List String :=
  ["left", "right", "center"]

/-- The alignment that a style gives. -/
def alignmentOf : List Char → Json
  | [] => .null
  | c :: rest =>
      let key := "text-align:".toList
      if key.isPrefixOf (c :: rest) then
        let value := ((c :: rest).drop key.length).dropWhile Text.isBlank
        match alignmentWords.find? fun word => word.toList.isPrefixOf value with
        | some word => .str word
        | none => alignmentOf rest
      else alignmentOf rest

/-- The alignment of a cell. -/
def cellAlignment (cell : Syntax) : Json :=
  alignmentOf ((cell.head.attrs.lookup "style").getD (.str "")).plain.toList

/-- The alignments of a table's columns, which its first row gives. -/
def tableAlignments (sections : List Syntax) : List Json :=
  match (sections.flatMap Syntax.children).head? with
  | some row => row.children.map cellAlignment
  | none => []

/-- The cells of a row. -/
def cellNodes : List Syntax → Except Failure (List Node)
  | [] => .ok []
  | s :: rest => do
      let children ← inlineContent s.children
      let others ← cellNodes rest
      return .branch { kind := "tableCell" } children :: others

/-- The rows of a table. -/
def rowNodes (ix : LineIndex) : List Syntax → Except Failure (List Node)
  | [] => .ok []
  | s :: rest => do
      let cells ← cellNodes s.children
      let position ← blockPosition ix s.head
      let others ← rowNodes ix rest
      return .branch { kind := "tableRow", position := position } cells :: others

/-- A list. -/
def listNode (position : Option Position) (h : SyntaxHead) (tight : Bool) (items : List Node) :
    Except Failure Node := do
  let start ← listStart h
  return .branch
    { kind := "list"
      position := position
      props := [("ordered", .bool (h.kind = "ordered_list")), ("start", start),
        ("spread", .bool !tight)] }
    items

/-- A block that contains no other blocks. -/
def leafBlock (ix : LineIndex) (position : Option Position) (h : SyntaxHead) (cs : List Syntax) :
    Except Failure Node :=
  match h.kind with
  | "paragraph" => do
      let children ← inlineContent cs
      return .branch { kind := "paragraph", position := position } children
  | "heading" => do
      let children ← inlineContent cs
      let depth ← headingDepth h.tag
      return .branch { kind := "heading", position := position, props := [("depth", .int depth)] }
        children
  | "fence" => .ok (fenceNode position h)
  | "code_block" => .ok (codeNode position h [] [])
  | "hr" => .ok (.leaf { kind := "thematicBreak", position := position })
  | "html_block" => .ok (htmlNode position h)
  | "table" => do
      let rows ← rowNodes ix (cs.flatMap Syntax.children)
      return .branch
        { kind := "table", position := position, props := [("align", .arr (tableAlignments cs))] }
        rows
  | kind => .error (.structural ⟨.unsupportedBlock kind, position⟩)

/-- Whether a block is a list. -/
def isList (kind : String) : Bool :=
  kind = "bullet_list" || kind = "ordered_list"

mutual

/-- The node of a block. -/
def block (ix : LineIndex) : Syntax → Except Failure Node
  | .node h cs =>
      match blockPosition ix h with
      | .error e => .error e
      | .ok position =>
          if h.kind = "blockquote" then
            match blocks ix cs with
            | .error e => .error e
            | .ok children => .ok (.branch { kind := "blockquote", position := position } children)
          else if isList h.kind then
            match items ix (isTightList cs) cs with
            | .error e => .error e
            | .ok children => listNode position h (isTightList cs) children
          else leafBlock ix position h cs

/-- The nodes of blocks. -/
def blocks (ix : LineIndex) : List Syntax → Except Failure (List Node)
  | [] => .ok []
  | s :: rest =>
      match block ix s with
      | .error e => .error e
      | .ok n =>
          match blocks ix rest with
          | .error e => .error e
          | .ok ns => .ok (n :: ns)

/-- The nodes of a list's items. -/
def items (ix : LineIndex) (tight : Bool) : List Syntax → Except Failure (List Node)
  | [] => .ok []
  | .node h cs :: rest =>
      match blocks ix cs with
      | .error e => .error e
      | .ok children =>
          match blockPosition ix h with
          | .error e => .error e
          | .ok position =>
              match items ix tight rest with
              | .error e => .error e
              | .ok ns =>
                  .ok (.branch
                    { kind := "listItem"
                      position := position
                      props := [("spread", .bool !tight)] }
                    children :: ns)

end

/-- The tree of a document with the given text, whose blocks are these. -/
def ofSyntax (text : List Char) (pieces : List Syntax) : Except Failure Node := do
  let ix := LineIndex.ofText text
  let children ← blocks ix pieces
  return .branch { kind := "root", position := some (ix.span 0 (text.length : Nat)) } children

end Mdx.Generic
