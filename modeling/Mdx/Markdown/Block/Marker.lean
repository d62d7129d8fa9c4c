import Mdx.Element.Span
import Mdx.Markdown.Line

/-!
# Marks that start blocks

Most blocks are told by how their first line starts. A line that is indented by four columns or more
starts none of them.
-/

namespace Mdx.Markdown

/-- The container that lines are read in: the indent of its contents, the indent of the list around
it, if there is one, and the number of the line at which paragraphs end at the latest. -/
structure Scope where
  indent : Nat := 0
  listIndent : Option Nat := none
  last : Nat

/-- Whether a line is indented as code is. -/
def isCodeLine (scope : Scope) (l : Line) : Bool :=
  (scope.indent : Int) + 4 ≤ l.indent

/-- Whether a line is indented less than the contents of the container. -/
def isOutdented (scope : Scope) (l : Line) : Bool :=
  l.indent < (scope.indent : Int)

/-- The contents of a line that may start a block. -/
def startText? (scope : Scope) (l : Line) : Option (List Char) :=
  if isCodeLine scope l then none else some l.content

/-- The opening of a code block between fences. -/
structure FenceOpening where
  mark : Char
  length : Nat
  info : List Char

/-- The fence that starts a text. What follows a fence of backticks has no backtick in it. -/
def fenceOpening? (s : List Char) : Option FenceOpening :=
  match s with
  | [] => none
  | c :: _ =>
      if c == '~' || c == '\x60' then
        let run := s.takeWhile (· == c)
        let info := s.drop run.length
        if run.length < 3 || (c == '\x60' && info.contains c) then none
        else some ⟨c, run.length, info⟩
      else none

/-- Whether a line closes a fence. -/
def closesFence (f : FenceOpening) (s : List Char) : Bool :=
  f.length ≤ (s.takeWhile (· == f.mark)).length && (s.dropWhile (· == f.mark)).all Text.isIndent

/-- Whether a text starts a quotation. -/
def startsQuote (s : List Char) : Bool :=
  s.head? = some '>'

/-- Whether a text is a thematic break: three or more equal marks with blanks between them. -/
def isThematicBreak (s : List Char) : Bool :=
  match s with
  | [] => false
  | c :: _ =>
      (c == '*' || c == '-' || c == '_') && s.all (fun d => d == c || Text.isIndent d) &&
        3 ≤ s.count c

/-- The mark of a list item: the number of an item of an ordered list, the character that ends the
mark, and the number of its characters. -/
structure ItemMark where
  number : Option Nat
  mark : Char
  width : Nat

/-- Whether a mark may end before a text. -/
def endsMark : List Char → Bool
  | [] => true
  | c :: _ => Text.isIndent c

/-- The mark of an item of an ordered list. -/
def orderedMark? (s : List Char) : Option ItemMark :=
  let digits := s.takeWhile Char.isDigit
  if 1 ≤ digits.length && digits.length ≤ 9 then
    match s.drop digits.length with
    | c :: rest =>
        if (c == '.' || c == ')') && endsMark rest then
          let number := digits.foldl (fun n d => n * 10 + (d.toNat - '0'.toNat)) 0
          some ⟨some number, c, digits.length + 1⟩
        else none
    | [] => none
  else none

/-- The mark of an item of a bullet list. -/
def bulletMark? (s : List Char) : Option ItemMark :=
  match s with
  | c :: rest =>
      if (c == '*' || c == '-' || c == '+') && endsMark rest then some ⟨none, c, 1⟩ else none
  | [] => none

/-- The mark of a list item that starts a text. -/
def itemMark? (s : List Char) : Option ItemMark :=
  (orderedMark? s).or (bulletMark? s)

/-- The mark of a list that starts on a line. An item of a deeper list that is indented too far is
none. -/
def listMark? (scope : Scope) (l : Line) : Option ItemMark :=
  match startText? scope l with
  | none => none
  | some s =>
      if scope.listIndent.any fun i => (i : Int) + 4 ≤ l.indent && isOutdented scope l then none
      else itemMark? s

/-- Whether a list may start on a line right after a line of a paragraph: it has to start with the
number one, if it is ordered, and its first item must not be empty. -/
def interruptsWithList (scope : Scope) (l : Line) : Bool :=
  match listMark? scope l with
  | none => false
  | some m =>
      isOutdented scope l ||
        ((m.number.all (· == 1)) && !(l.content.drop m.width).all Text.isIndent)

/-- What ends a block of raw text that is no element: an instruction, a declaration or a section of
character data. -/
def rawTextEnd? (s : List Char) : Option (List Char) :=
  match s with
  | '<' :: '?' :: _ => some ['?', '>']
  | '<' :: '!' :: c :: _ =>
      if c.isAlpha then some ['>']
      else if "<![CDATA[".toList.isPrefixOf s then some [']', ']', '>']
      else none
  | _ => none

/-- Whether one text stands somewhere in another. -/
def hasInfix (needle : List Char) : List Char → Bool
  | [] => needle.isEmpty
  | c :: rest => needle.isPrefixOf (c :: rest) || hasInfix needle rest

/-- The depth and the text of a heading. Number signs at the end are not part of the text if a blank
stands before them. -/
def heading? (s : List Char) : Option (Nat × List Char) :=
  let depth := (s.takeWhile (· == '#')).length
  let rest := s.drop depth
  if 1 ≤ depth && depth ≤ 6 && endsMark rest then
    let text := Text.dropEndWhile Text.isIndent rest
    let cut := Text.dropEndWhile (· == '#') text
    let text := if cut.getLast?.any Text.isIndent then cut else text
    some (depth, trim text)
  else none

/-- The depth of the heading that a line underlines. -/
def underlineDepth? (s : List Char) : Option Nat :=
  match s with
  | [] => none
  | c :: _ =>
      if (c == '=' || c == '-') && (s.dropWhile (· == c)).all Text.isIndent then
        some (if c == '=' then 1 else 2)
      else none

end Mdx.Markdown
