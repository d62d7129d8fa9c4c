import Mdx.Markdown.Block.Interrupt
import Mdx.Markdown.Syntax

/-!
# Blocks that contain no blocks

Code, raw markup, thematic breaks, headings, paragraphs and tables. Each rule looks at the lines from
`start` up to `stop` and gives the block that starts there, with the number of the line after it.
-/

namespace Mdx.Markdown

/-- A block and the number of the line after it. A block that asks for more text than there is, where
the text ends in a quotation without a line feed, overruns it. -/
structure FoundBlock where
  piece : Syntax
  next : Nat
  overrun : Bool := false

/-- The lines from one number up to another. -/
def linesFrom (lines : Array Line) (start stop : Nat) : List Line :=
  (lines.extract start stop).toList

/-- Running text on the lines from one number up to another, still to be read. -/
def inlineText (content : List Char) (start stop : Nat) : Syntax :=
  .node { kind := "inline", content := String.ofList content, lines := some (start, stop) } []

/-- The number of the line after the last one that is indented as code is, blank lines between such
lines included; `last` is the number so far. -/
def codeEnd (lines : Array Line) (scope : Scope) (stop : Nat) : (room next last : Nat) → Nat
  | 0, _, last => last
  | room + 1, next, last =>
      let l := lineAt lines next
      if stop ≤ next then last
      else if l.isEmpty then codeEnd lines scope stop room (next + 1) last
      else if isCodeLine scope l then codeEnd lines scope stop room (next + 1) (next + 1)
      else last

/-- A block of indented code. -/
def codeBlock? (lines : Array Line) (scope : Scope) (start stop : Nat) : Option FoundBlock :=
  if isCodeLine scope (lineAt lines start) then
    let next := codeEnd lines scope stop (stop - start) (start + 1) (start + 1)
    let content := joinBodies (4 + scope.indent) (linesFrom lines start next) ++ ['\n']
    let head : SyntaxHead :=
      { kind := "code_block", tag := "code", content := String.ofList content
        lines := some (start, next) }
    some { piece := .node head [], next := next }
  else none

/-- The number of the line that closes a fence, or at which the block ends without one, and whether
it is closed. A line of the document's last container that is empty and has no line feed ends it. -/
def fenceEnd (lines : Array Line) (scope : Scope) (f : FenceOpening) (stop : Nat) :
    (room next : Nat) → Nat × Bool
  | 0, next => (next, false)
  | room + 1, next =>
      let l := lineAt lines next
      if stop ≤ next || (!l.isEmpty && isOutdented scope l) || (l.isEmpty && !l.ended) then
        (next, false)
      else if !isCodeLine scope l && closesFence f l.content then (next, true)
      else fenceEnd lines scope f stop room (next + 1)

/-- A block of code between fences. -/
def fence? (lines : Array Line) (scope : Scope) (start stop : Nat) : Option FoundBlock :=
  let l := lineAt lines start
  match (startText? scope l).bind fenceOpening? with
  | none => none
  | some f =>
      match fenceEnd lines scope f stop (stop - start) (start + 1) with
      | (next, closed) =>
          let content := joinWholeBodies l.indent.toNat (linesFrom lines (start + 1) next)
          let after := if closed then next + 1 else next
          let head : SyntaxHead :=
            { kind := "fence", tag := "code", content := String.ofList content
              info := String.ofList f.info, lines := some (start, after) }
          some { piece := .node head [], next := after }

/-- A thematic break. -/
def thematicBreak? (lines : Array Line) (scope : Scope) (start : Nat) : Option FoundBlock :=
  match startText? scope (lineAt lines start) with
  | some s =>
      if isThematicBreak s then
        let head : SyntaxHead := { kind := "hr", tag := "hr", lines := some (start, start + 1) }
        some { piece := .node head [], next := start + 1 }
      else none
  | none => none

/-- A block of raw markup from one line up to another. -/
def rawBlock (lines : Array Line) (scope : Scope) (start next : Nat) : FoundBlock :=
  let content := joinWholeBodies scope.indent (linesFrom lines start next)
  let head : SyntaxHead :=
    { kind := "html_block", content := String.ofList content, lines := some (start, next) }
  { piece := .node head [], next := next }

/-- The number of the first line from `next` on that is blank, or `stop`. -/
def blankLine (lines : Array Line) (stop : Nat) : (room next : Nat) → Nat
  | 0, next => next
  | room + 1, next =>
      if stop ≤ next || (lineAt lines next).isEmpty then next
      else blankLine lines stop room (next + 1)

/-- A block of embedded elements, which goes on to the next blank line. -/
def elementBlock? (lines : Array Line) (scope : Scope) (start stop : Nat) : Option FoundBlock :=
  match startText? scope (lineAt lines start) with
  | some s =>
      if Element.startsHere s then
        some (rawBlock lines scope start (blankLine lines stop (stop - start) (start + 1)))
      else none
  | none => none

/-- What a rule changes: the number of the line to go on with, and the pieces found so far. -/
structure RuleState where
  line : Nat := 0
  found : List Syntax := []

/-- A call of the rule for blocks of embedded elements: whether one starts on the line `start`, and the
state after the call. A silent call asks without taking the block. -/
def elementRule (lines : Array Line) (scope : Scope) (start stop : Nat) (silent : Bool)
    (state : RuleState) : Bool × RuleState :=
  match startText? scope (lineAt lines start) with
  | none => (false, state)
  | some s =>
      if !Element.startsHere s then (false, state)
      else if silent then (true, state)
      else
        let b := rawBlock lines scope start (blankLine lines stop (stop - start) (start + 1))
        (true, { line := b.next, found := state.found ++ [b.piece] })

/-- The number of the line after the one with the end of a block of raw text. Blank lines belong to
it, however far they are indented. -/
def rawTextEndLine (lines : Array Line) (scope : Scope) (closer : List Char) (stop : Nat) :
    (room next : Nat) → Nat
  | 0, next => next
  | room + 1, next =>
      let l := lineAt lines next
      if stop ≤ next || (!l.isEmpty && isOutdented scope l) then next
      else if hasInfix closer l.content then next + 1
      else rawTextEndLine lines scope closer stop room (next + 1)

/-- A block of raw text that is no element. -/
def rawTextBlock? (lines : Array Line) (scope : Scope) (start stop : Nat) : Option FoundBlock :=
  let l := lineAt lines start
  match (startText? scope l).bind rawTextEnd? with
  | none => none
  | some closer =>
      let next :=
        if hasInfix closer l.content then start + 1
        else rawTextEndLine lines scope closer stop (stop - start) (start + 1)
      some { rawBlock lines scope start next with
        overrun := (lineAt lines (next - 1)).endsBefore scope.indent }

/-- A heading of a depth. -/
def headingBlock (depth : Nat) (text : List Char) (start textEnd next : Nat) : FoundBlock :=
  let head : SyntaxHead :=
    { kind := "heading", tag := "h" ++ toString depth, lines := some (start, next) }
  { piece := .node head [inlineText text start textEnd], next := next }

/-- A heading that starts with number signs. -/
def signHeading? (lines : Array Line) (scope : Scope) (start : Nat) : Option FoundBlock :=
  match (startText? scope (lineAt lines start)).bind heading? with
  | none => none
  | some (depth, text) => some (headingBlock depth text start (start + 1) (start + 1))

/-- A heading that is underlined. -/
def underlinedHeading? (lines : Array Line) (scope : Scope) (start stop : Nat) :
    Option FoundBlock :=
  if isCodeLine scope (lineAt lines start) then none
  else
    match underlineFrom? lines scope stop (stop - start) (start + 1) with
    | none => none
    | some (line, depth) =>
        let text := trim (joinBodies scope.indent (linesFrom lines start line))
        some (headingBlock depth text start line (line + 1))

/-- A paragraph. -/
def paragraph (lines : Array Line) (scope : Scope) (start : Nat) : FoundBlock :=
  let next := paragraphEnd lines scope (scope.last - start) (start + 1)
  let text := trim (joinBodies scope.indent (linesFrom lines start next))
  let head : SyntaxHead := { kind := "paragraph", tag := "p", lines := some (start, next) }
  { piece := .node head [inlineText text start next], next := next }

/-- A cell of a table. -/
def cell (tag : String) (align : String) (text : List Char) (line : Nat) : Syntax :=
  let attrs := if align.isEmpty then [] else [("style", Json.str ("text-align:" ++ align))]
  .node { kind := tag, tag := tag, attrs := attrs } [inlineText text line (line + 1)]

/-- The cells of a row, one for each alignment. -/
def rowOf (tag : String) (line : Nat) : (aligns : List String) → (cells : List (List Char)) → List Syntax
  | [], _ => []
  | align :: aligns, [] => cell tag align [] line :: rowOf tag line aligns []
  | align :: aligns, text :: cells => cell tag align text line :: rowOf tag line aligns cells

/-- A row of a table. -/
def tableRow (tag : String) (line : Nat) (aligns : List String) (cells : List (List Char)) : Syntax :=
  .node { kind := "tr", tag := "tr", lines := some (line, line + 1) } (rowOf tag line aligns cells)

/-- How many cells may be missing from the rows of a table. -/
def missingCellLimit : Int := 65536

/-- Rows of a table, and the number of the line after them. -/
structure TableRows where
  rows : List Syntax := []
  next : Nat
  overrun : Bool := false

/-- The rows of a table from the line `next` on, of whose cells `missing` are missing so far. Whether
markup starts on a line is asked of a blank line too, so that a text must not end there. -/
def tableRows (lines : Array Line) (scope : Scope) (aligns : List String) (stop : Nat) :
    (room next : Nat) → (missing : Int) → TableRows
  | 0, next, _ => { next := next }
  | room + 1, next, missing =>
      let l := lineAt lines next
      if stop ≤ next || isOutdented scope l then { next := next }
      else if interruptsQuote scope l || isBlankText l.content || isCodeLine scope l then
        { next := next, overrun := l.isEmpty && !l.ended && !isCodeLine scope l }
      else
        let cells := rowCells l.content
        let missing := missing + ((aligns.length : Int) - cells.length)
        if missingCellLimit < missing then { next := next }
        else
          let more := tableRows lines scope aligns stop room (next + 1) missing
          { more with rows := tableRow "td" next aligns cells :: more.rows }

/-- A table. -/
def table? (lines : Array Line) (scope : Scope) (start stop : Nat) : Option FoundBlock :=
  match tableStart? lines scope start stop with
  | none => none
  | some (cells, aligns) =>
      let head : Syntax :=
        .node { kind := "thead", tag := "thead", lines := some (start, start + 1) }
          [tableRow "th" start aligns cells]
      let found := tableRows lines scope aligns stop (stop - start) (start + 2) 0
      let body : List Syntax :=
        if found.rows.isEmpty then []
        else
          [.node { kind := "tbody", tag := "tbody", lines := some (start + 2, found.next) }
            found.rows]
      let whole : SyntaxHead :=
        { kind := "table", tag := "table", lines := some (start, found.next) }
      some { piece := .node whole (head :: body), next := found.next, overrun := found.overrun }

end Mdx.Markdown
