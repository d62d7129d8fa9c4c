import Mdx.Markdown.Block.Marker
import Mdx.Markdown.Entity

/-!
# Tables

A table is a row of headings, a row that gives the alignment of each column, and the rows after them.
Cells are divided by vertical bars; a bar with a backslash in front is part of a cell.
-/

namespace Mdx.Markdown

/-- The cells of a row; the characters of the cell that is being read come last first, and `escaped`
says that the last of them was a backslash. -/
def splitCells (escaped : Bool) (before : List Char) : List Char → List (List Char)
  | [] => [before.reverse]
  | c :: rest =>
      if c == '|' then
        if escaped then splitCells false ('|' :: before.tail) rest
        else before.reverse :: splitCells false [] rest
      else splitCells (c == '\\') (c :: before) rest

/-- The cells without an empty one at either end. -/
def dropEdges (cells : List (List Char)) : List (List Char) :=
  let cells := if cells.head? = some [] then cells.drop 1 else cells
  if cells.getLast? = some [] then cells.dropLast else cells

/-- The cells of a row, each without blanks at its ends. -/
def rowCells (row : List Char) : List (List Char) :=
  (dropEdges (splitCells false [] (trim row))).map trim

/-- A character of the row that gives the alignments. -/
def isAlignChar (c : Char) : Bool :=
  c == '|' || c == '-' || c == ':'

/-- The alignment of a column: hyphens with colons at its ends. -/
def alignment? (s : List Char) : Option String :=
  let left := s.head? = some ':'
  let hyphens := s.drop (if left then 1 else 0)
  let right := hyphens.getLast? = some ':'
  let hyphens := if right then hyphens.dropLast else hyphens
  if hyphens.isEmpty || !hyphens.all (· == '-') then none
  else some (if right then (if left then "center" else "right") else if left then "left" else "")

/-- Whether a line may be the row that gives the alignments. -/
def isAlignRow (s : List Char) : Bool :=
  match s with
  | a :: b :: rest =>
      isAlignChar a && (isAlignChar b || Text.isIndent b) && !(a == '-' && Text.isIndent b) &&
        rest.all fun c => isAlignChar c || Text.isIndent c
  | _ => false

/-- The alignments of a row that gives them. -/
def alignRow? (s : List Char) : Option (List String) :=
  if isAlignRow s then
    (dropEdges ((splitAt '|' [] s).map trim)).mapM alignment?
  else none

/-- The headings and alignments of a table that starts on a line. -/
def tableStart? (lines : Array Line) (scope : Scope) (start stop : Nat) :
    Option (List (List Char) × List String) :=
  let first := lineAt lines start
  let second := lineAt lines (start + 1)
  if stop < start + 2 || isOutdented scope second || isCodeLine scope second then none
  else
    match alignRow? second.content with
    | none => none
    | some aligns =>
        let cells := rowCells first.content
        if !first.content.contains '|' || isCodeLine scope first || cells.isEmpty ||
            cells.length != aligns.length then none
        else some (cells, aligns)

end Mdx.Markdown
