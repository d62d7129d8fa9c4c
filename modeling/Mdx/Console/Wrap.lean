import Mdx.Text.Basic
import Mdx.Text.Width

/-!
# Lines on a screen

A screen has a width, and a line that is longer is broken between its words. A word takes the blank
characters after it along, which do not count where the line ends, and the first word those before
it. A word that is longer than the screen is wide starts on a line of its own and is chopped.
-/

namespace Mdx.Console

/-- The control characters that a screen leaves out. -/
def isUnshown (c : Char) : Bool :=
  [7, 8, 11, 12, 13].contains c.toNat

/-- The lines of a text. -/
def splitLines (text : List Char) : List (List Char) :=
  text.foldr
    (fun c lines =>
      if c == '\n' then [] :: lines
      else match lines with
        | [] => [[c]]
        | line :: rest => (c :: line) :: rest)
    [[]]

/-- A line with blanks in place of its tabs, which go up to the next multiple of eight cells. -/
def expandTabs (column : Nat) : List Char → List Char
  | [] => []
  | '\t' :: rest =>
      let gap := 8 - column % 8
      List.replicate gap ' ' ++ expandTabs (column + gap) rest
  | c :: rest => c :: expandTabs (column + Text.cellCount c) rest

/-- The pieces of a line, each of which but the first starts with a word. -/
def words : List Char → List (List Char)
  | [] => []
  | c :: rest =>
      match words rest with
      | [] => [[c]]
      | word :: others =>
          match word with
          | d :: _ =>
              if Text.isBlank c && !Text.isBlank d then [c] :: word :: others
              else (c :: word) :: others
          | [] => [c] :: others

/-- The words of a line with the blank characters after them; the first has those before it too. -/
def lineWords (line : List Char) : List (List Char) :=
  match words line with
  | blank :: word :: others =>
      if blank.all Text.isBlank then (blank ++ word) :: others else blank :: word :: others
  | pieces => pieces

/-- The parts of a word, none of which has more than `limit` cells unless it is a single character;
the first part has `line` already, which takes `column` cells. -/
def chop (limit column : Nat) (line : List Char) : List Char → List (List Char)
  | [] => [line]
  | c :: rest =>
      if limit < column + Text.cellCount c then
        line :: chop limit (Text.cellCount c) [c] rest
      else chop limit (column + Text.cellCount c) (line ++ [c]) rest

/-- The lines of a text so far, the last of them apart. -/
structure Wrapped where
  lines : List (List Char) := []
  last : List Char := []

namespace Wrapped

/-- Starts a new line, unless the first one is still empty. -/
def startLine (w : Wrapped) (line : List Char) : Wrapped :=
  if w.lines.isEmpty && w.last.isEmpty then { w with last := line }
  else ⟨w.lines ++ [w.last], line⟩

/-- Adds a word. -/
def add (limit : Nat) (w : Wrapped) (word : List Char) : Wrapped :=
  let size := Text.width (Text.trimEnd word)
  if Text.width w.last + size ≤ limit then { w with last := w.last ++ word }
  else if limit < size then (chop limit 0 [] word).foldl startLine w
  else w.startLine word

/-- All lines. -/
def toLines (w : Wrapped) : List (List Char) :=
  w.lines ++ [w.last]

end Wrapped

/-- The lines that a line takes on a screen of the given width. -/
def wrapLine (limit : Nat) (line : List Char) : List (List Char) :=
  ((lineWords line).foldl (Wrapped.add limit) {}).toLines

/-- The lines that a text takes on a screen of the given width. -/
def wrap (limit : Nat) (text : List Char) : List (List Char) :=
  (splitLines (text.filter (!isUnshown ·))).flatMap fun line => wrapLine limit (expandTabs 0 line)

end Mdx.Console
