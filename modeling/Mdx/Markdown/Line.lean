
import Mdx.Text.Basic

/-!
# Lines of a Markdown document

The block grammar looks at a document line by line. A line has an indent, measured in columns with
tab stops every four columns. Inside a container the marker of the container is cut off a line, or
counts as part of its indent, and the columns that were cut off shift the tab stops.

`Line.body` is a line without a part of its indent; a tab that is only partly within that part leaves
spaces.

The blank characters of a document are the tab, the line and page separators and the spaces of all
widths. They are fewer than those of `Text.isBlank`: the information separators and the next-line
character U+0085 are text here.
-/

namespace Mdx.Markdown

/-! ### Blank characters -/

/-- A blank character beside a mark of emphasis. -/
def isFlankBlank (c : Char) : Bool :=
  let n := c.toNat
  (0x09 ≤ n && n ≤ 0x0d) || n == 0x20 || n == 0xa0 || n == 0x1680 ||
    (0x2000 ≤ n && n ≤ 0x200a) || n == 0x202f || n == 0x205f || n == 0x3000

/-- A blank character of a document; beside emphasis, the separators of lines and paragraphs do not
count. -/
def isBlank (c : Char) : Bool :=
  isFlankBlank c || c.toNat == 0x2028 || c.toNat == 0x2029

/-- The text without blank characters at its ends. -/
def trim (s : List Char) : List Char :=
  Text.dropEndWhile isBlank (s.dropWhile isBlank)

/-- Whether a text has blank characters only. -/
def isBlankText (s : List Char) : Bool :=
  s.all isBlank

/-! ### Lines -/

/-- A line: its characters, the first `shift` of which make its indent, and whether a line feed
follows. Its indent is in columns; a line that goes on a paragraph whatever it looks like has an
indent below zero. Tab stops are counted from `base` columns before the first character. -/
structure Line where
  text : List Char
  ended : Bool
  shift : Nat
  indent : Int
  base : Nat
deriving Inhabited

namespace Line

/-- The line after the last one of a document. -/
def absent : Line where
  text := []
  ended := false
  shift := 0
  indent := 0
  base := 0

/-- How far a tab goes from a column. -/
def tabWidth (column : Nat) : Nat :=
  4 - column % 4

/-- The number of spaces and tabs at the start of a text, and the column after them; the text starts
at a column whose distance from the tab stops is that of `column + extra`. -/
def measure (extra : Nat) : (count column : Nat) → List Char → Nat × Nat
  | count, column, c :: rest =>
      if c == '\t' then measure extra (count + 1) (column + tabWidth (column + extra)) rest
      else if c == ' ' then measure extra (count + 1) (column + 1) rest
      else (count, column)
  | count, column, [] => (count, column)

/-- A line as it stands in the document. -/
def ofChars (text : List Char) (ended : Bool) : Line :=
  match measure 0 0 0 text with
  | (count, column) =>
      { text := text, ended := ended, shift := count, indent := column, base := 0 }

/-- The characters after the indent. -/
def content (l : Line) : List Char :=
  l.text.drop l.shift

/-- Whether a line has nothing after its indent. -/
def isEmpty (l : Line) : Bool :=
  l.text.length ≤ l.shift

/-- Text without `width` columns of indent, from the character number `index` in the given column
on. Of the first `shift` characters each takes a column, whatever it is. -/
def strip (base shift width : Nat) : (column index : Nat) → List Char → List Char
  | column, index, c :: rest =>
      if column < width then
        if c == '\t' then strip base shift width (column + tabWidth (column + base)) (index + 1) rest
        else if c == ' ' || index < shift then strip base shift width (column + 1) (index + 1) rest
        else c :: rest
      else List.replicate (column - width) ' ' ++ c :: rest
  | column, _, [] => List.replicate (column - width) ' '

/-- The characters of a line without `width` columns of indent. -/
def body (width : Nat) (l : Line) : List Char :=
  strip l.base l.shift width 0 0 l.text

/-- Whether the text ends in the indent of a line, before so many columns. -/
def endsBefore (width : Nat) (l : Line) : Bool :=
  !l.ended && l.isEmpty && (measure l.base 0 0 l.text).2 < width

/-- The line feed after a line, if there is one. -/
def ending (l : Line) : List Char :=
  if l.ended then ['\n'] else []

end Line

/-- Lines without `width` columns of indent, with the line feeds between them. -/
def joinBodies (width : Nat) : List Line → List Char
  | [] => []
  | [l] => l.body width
  | l :: rest => l.body width ++ l.ending ++ joinBodies width rest

/-- Lines without `width` columns of indent, with the line feeds after them. -/
def joinWholeBodies (width : Nat) (lines : List Line) : List Char :=
  lines.flatMap fun l => l.body width ++ l.ending

/-- A document with line feeds as its only line breaks, and without the character U+0000. -/
def normalize : List Char → List Char
  | '\r' :: '\n' :: rest => '\n' :: normalize rest
  | '\r' :: rest => '\n' :: normalize rest
  | c :: rest => (if c.toNat = 0 then Char.ofNat 0xfffd else c) :: normalize rest
  | [] => []

/-- The lines of a text, the first of which starts with the characters before it, last first. After
the last line feed there is a line only if it has more than spaces and tabs in it. -/
def splitLines (before : List Char) : List Char → List Line
  | [] => if before.all Text.isIndent then [] else [Line.ofChars before.reverse false]
  | c :: rest =>
      if c = '\n' then Line.ofChars before.reverse true :: splitLines [] rest
      else splitLines (c :: before) rest

/-- The lines of a normalized document. -/
def linesOf (text : List Char) : Array Line :=
  (splitLines [] text).toArray

/-- The line with a number. -/
def lineAt (lines : Array Line) (i : Nat) : Line :=
  lines.getD i Line.absent

end Mdx.Markdown
