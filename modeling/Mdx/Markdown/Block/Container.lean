import Mdx.Markdown.Block.Leaf
import Mdx.Markdown.Block.Definition

/-!
# Quotations and lists

The contents of a quotation are its lines without their marks, and those of a list item the lines
that are indented as far as its first one. What is read there in turn is up to a block parser for the
contents, which is an argument of the rules.
-/

namespace Mdx.Markdown

/-- What a block parser finds: the blocks, the number of the line after them, whether no blank line
comes before the last of them, the link definitions, and whether one of the blocks overruns the
text. -/
structure Blocks where
  found : List Syntax := []
  line : Nat
  tight : Bool := true
  definitions : List Definition := []
  overrun : Bool := false

/-- A parser for the blocks on the lines from a number up to another. -/
abbrev BlockParser := Array Line → Scope → (start stop : Nat) → Blocks

/-- A line of a quotation without its mark. One blank after the mark belongs to it; a tab that reaches
further than one column stays. -/
def quotedLine (l : Line) : Line :=
  let column := l.indent.toNat + 1
  let text := l.content.drop 1
  let spaced := text.head?.any Text.isIndent
  let wide := text.head? = some '\t' && (l.base + column) % 4 != 3
  let cut := spaced && !wide
  let text := if cut then text.drop 1 else text
  let start := if cut then column + 1 else column
  match Line.measure (l.base + if wide then 1 else 0) 0 start text with
  | (count, stop) =>
      { text := text
        ended := l.ended
        shift := count
        indent := (stop : Int) - start
        base := column + if spaced then 1 else 0 }

/-- The lines of a quotation, the lines after `next` being still unread, with the number of the line
after it. If another block ends the quotation, paragraphs in it end there too. -/
def quoteLines (scope : Scope) (stop : Nat) :
    (room next : Nat) → (blank : Bool) → Array Line → Array Line × Nat × Option Nat
  | 0, next, _, lines => (lines, next, none)
  | room + 1, next, blank, lines =>
      let l := lineAt lines next
      if stop ≤ next || l.isEmpty then (lines, next, none)
      else if startsQuote l.content && !isOutdented scope l then
        let inner := quotedLine l
        quoteLines scope stop room (next + 1) inner.isEmpty (lines.setIfInBounds next inner)
      else if blank then (lines, next, none)
      else if interruptsQuote scope l then
        (lines.setIfInBounds next { l with indent := l.indent - scope.indent }, next, some next)
      else quoteLines scope stop room (next + 1) blank (lines.setIfInBounds next { l with indent := -1 })

/-- A quotation. -/
def quote? (inner : BlockParser) (lines : Array Line) (scope : Scope) (start stop : Nat) :
    Option (Syntax × Blocks) :=
  let l := lineAt lines start
  match startText? scope l with
  | none => none
  | some s =>
      if startsQuote s then
        let first := quotedLine l
        match quoteLines scope stop (stop - start) (start + 1) first.isEmpty
            (lines.setIfInBounds start first) with
        | (quoted, next, last) =>
            let contents := inner quoted { scope with indent := 0, last := last.getD scope.last } start next
            some (.node
              { kind := "blockquote", tag := "blockquote", lines := some (start, contents.line) }
              contents.found, contents)
      else none

/-- The indent of an item's contents, and the item's first line, without its mark. If there is nothing
after the mark, or as much blank as before code, the contents start one column after the mark. -/
def itemLine (l : Line) (mark : ItemMark) : Nat × Line :=
  let start := l.indent.toNat + mark.width
  let text := l.content.drop mark.width
  match Line.measure l.base 0 start text with
  | (count, stop) =>
      let gap := if text.length ≤ count || start + 4 < stop then 1 else stop - start
      (start + gap, { l with shift := l.shift + mark.width + count, indent := stop })

/-- An item of a list, with what its contents are. -/
def listItem (inner : BlockParser) (lines : Array Line) (scope : Scope) (mark : ItemMark)
    (start stop : Nat) : Blocks :=
  match itemLine (lineAt lines start) mark with
  | (indent, first) =>
      if first.isEmpty && (lineAt lines (start + 1)).isEmpty then { line := min (start + 2) stop }
      else
        inner (lines.setIfInBounds start first)
          { scope with indent := indent, listIndent := some scope.indent } start stop

/-- Whether two marks belong to items of one list. -/
def sameList (a b : ItemMark) : Bool :=
  a.number.isSome == b.number.isSome && a.mark == b.mark

/-- The mark of the next item of a list, if it goes on with the line `next`. -/
def nextItem? (lines : Array Line) (scope : Scope) (mark : ItemMark) (next stop : Nat) :
    Option ItemMark :=
  let l := lineAt lines next
  if stop ≤ next || isOutdented scope l || isCodeLine scope l || interruptsItem scope l then none
  else
    let other := if mark.number.isSome then orderedMark? l.content else bulletMark? l.content
    match other with
    | some m => if sameList mark m then some m else none
    | none => none

/-- The items of a list from the line `start` on. A list is tight if no item is loose and no blank line
is between two items; `blank` says that one ends the item before. -/
def listItems (inner : BlockParser) (lines : Array Line) (scope : Scope) (stop : Nat) :
    (room : Nat) → (mark : ItemMark) → (start : Nat) → (blank : Bool) → Blocks
  | 0, _, start, _ => { line := start }
  | room + 1, mark, start, blank =>
      let contents := listItem inner lines scope mark start stop
      let next := contents.line
      let item : Syntax :=
        .node { kind := "list_item", tag := "li", lines := some (start, next) } contents.found
      let tight := contents.tight && !blank
      let ends := start + 1 < next && (lineAt lines (next - 1)).isEmpty
      match nextItem? lines scope mark next stop with
      | none =>
          { contents with found := [item], tight := tight }
      | some other =>
          let rest := listItems inner lines scope stop room other next ends
          { found := item :: rest.found
            line := rest.line
            tight := tight && rest.tight
            definitions := contents.definitions ++ rest.definitions
            overrun := contents.overrun || rest.overrun }

/-- A paragraph of a tight list, which is not shown as one. -/
def hideParagraph : Syntax → Syntax
  | .node h cs => .node (if h.kind = "paragraph" then { h with hidden := true } else h) cs

/-- An item of a tight list. -/
def hideParagraphs : Syntax → Syntax
  | .node h cs => .node h (cs.map hideParagraph)

/-- A list. -/
def list? (inner : BlockParser) (lines : Array Line) (scope : Scope) (start stop : Nat) :
    Option (Syntax × Blocks) :=
  match listMark? scope (lineAt lines start) with
  | none => none
  | some mark =>
      let items := listItems inner lines scope stop (stop - start) mark start false
      let children := if items.tight then items.found.map hideParagraphs else items.found
      let head : SyntaxHead :=
        match mark.number with
        | none => { kind := "bullet_list", tag := "ul" }
        | some n =>
            { kind := "ordered_list", tag := "ol"
              attrs := if n = 1 then [] else [("start", .int n)] }
      some (.node { head with lines := some (start, items.line) } children, items)

end Mdx.Markdown
