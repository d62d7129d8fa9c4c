import Mdx.Markdown.Block.Container

/-!
# Reading blocks

The blocks of a container are read one after another; the rules are tried in a fixed order, and a
paragraph is what no other rule wants. Containers nest twenty levels deep, where a quotation counts
for one level and a list, with its items, for two; what is deeper is left out.
-/

namespace Mdx.Markdown

/-- The number of the first line from `line` on that is not blank, or that of the container's end. -/
def skipBlankLines (lines : Array Line) (scope : Scope) : (room line : Nat) → Nat
  | 0, line => line
  | room + 1, line =>
      if scope.last ≤ line || !(lineAt lines line).isEmpty then line
      else skipBlankLines lines scope room (line + 1)

/-- A block as all that has been found. -/
def ofFound (b : FoundBlock) : Blocks :=
  { found := [b.piece], line := b.next, overrun := b.overrun }

/-- A container as all that has been found. -/
def ofContainer (c : Syntax × Blocks) : Blocks :=
  { c.2 with found := [c.1], tight := true }

/-- A link definition as all that has been found. -/
def ofDefinition (d : Definition × Nat) : Blocks :=
  { line := d.2, definitions := [d.1] }

/-- The block that starts on a line, with parsers for the contents of quotations and of items. -/
def blockAt (quoted item : BlockParser) : BlockParser := fun lines scope start stop =>
  ((table? lines scope start stop).map ofFound
    <|> (codeBlock? lines scope start stop).map ofFound
    <|> (fence? lines scope start stop).map ofFound
    <|> (quote? quoted lines scope start stop).map ofContainer
    <|> (thematicBreak? lines scope start).map ofFound
    <|> (list? item lines scope start stop).map ofContainer
    <|> (definition? lines scope start).map ofDefinition
    <|> (elementBlock? lines scope start stop).map ofFound
    <|> (rawTextBlock? lines scope start stop).map ofFound
    <|> (signHeading? lines scope start).map ofFound
    <|> (underlinedHeading? lines scope start stop).map ofFound).getD
    (ofFound (paragraph lines scope start))

/-- The blocks from the line `start` on, with a parser for a single block. `blank` says that there was
a blank line before, and `tight` that there was none before the last block. -/
def blocksFrom (block : BlockParser) (lines : Array Line) (scope : Scope) (stop : Nat) :
    (room start : Nat) → (blank tight : Bool) → Blocks
  | 0, start, _, tight => { line := start, tight := tight }
  | room + 1, start, blank, tight =>
      if stop ≤ start then { line := start, tight := tight }
      else
        let line := skipBlankLines lines scope (scope.last - start) start
        if stop ≤ line || isOutdented scope (lineAt lines line) then { line := line, tight := tight }
        else
          let first := block lines scope line stop
          let next := first.line
          let ends := (lineAt lines (next - 1)).isEmpty
          let follows := next < stop && (lineAt lines next).isEmpty
          let rest := blocksFrom block lines scope stop room (if follows then next + 1 else next)
            (blank || ends || follows) (!blank)
          { found := first.found ++ rest.found
            line := rest.line
            tight := rest.tight
            definitions := first.definitions ++ rest.definitions
            overrun := first.overrun || rest.overrun }

/-- Leaves out all that is deeper than the deepest level. -/
def omitted : BlockParser := fun lines scope start stop =>
  let line := skipBlankLines lines scope (scope.last - start) start
  if stop ≤ line || isOutdented scope (lineAt lines line) then { line := line } else { line := stop }

/-- The parser of a container's contents, which may nest so many levels deep. -/
def blockParser : (levels : Nat) → BlockParser
  | 0 => omitted
  | 1 => parserWith omitted omitted
  | levels + 2 => parserWith (blockParser (levels + 1)) (blockParser levels)
where
  /-- The parser with parsers for the contents of quotations and of items. -/
  parserWith (quoted item : BlockParser) : BlockParser := fun lines scope start stop =>
    blocksFrom (blockAt quoted item) lines scope stop (stop - start + 1) start false true

/-- The number of levels that containers may nest. -/
def blockLevels : Nat := 20

/-- The blocks of a normalized document. -/
def parseBlocks (text : List Char) : Blocks :=
  let lines := linesOf text
  blockParser blockLevels lines { last := lines.size } 0 lines.size

end Mdx.Markdown
