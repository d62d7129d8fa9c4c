/-!
# Places in a source text

A point is a line and a column, both counted from one, with the offset of a character, counted from
zero. A position is the span between two points. Positions are for diagnostics only: an error that
has one is reported with its line and column in front.

A piece of a text runs from one offset up to another. Offsets past the end of the text stand for its
end.

`LineIndex` holds the offsets at which the lines of a text start. Only the line feed ends a line.
The line of an offset is found by halving the list of starts; an offset outside the text is moved
to its nearer end first.
-/

namespace Mdx

/-! ### Positions -/

/-- A place in a source text. -/
structure Point where
  line : Int
  column : Int
  offset : Int
deriving DecidableEq, Repr, Inhabited

/-- The span of a construct in a source text. -/
structure Position where
  start : Point
  stop : Point
deriving DecidableEq, Repr, Inhabited

/-- A reason with the line and column of its position, if there is one, in front. -/
def located (reason : String) : Option Position → String
  | none => reason
  | some p => toString p.start.line ++ ":" ++ toString p.start.column ++ ": " ++ reason

/-! ### Pieces -/

/-- The characters from one offset up to another. -/
def slice (src : List Char) (start stop : Nat) : List Char :=
  (src.drop start).take (stop - start)

/-- An offset in a text of `length` characters, where one below zero counts from the end. -/
def resolveOffset (length : Nat) (offset : Int) : Nat :=
  if offset < 0 then (offset + length).toNat else offset.toNat

/-- The characters from one offset up to another, offsets below zero counting from the end. -/
def signedSlice (src : List Char) (start stop : Int) : List Char :=
  slice src (resolveOffset src.length start) (resolveOffset src.length stop)

/-! ### Lines -/

/-- The offsets after each line feed of a text that starts at `offset`. -/
def lineStartsFrom (offset : Nat) : List Char → List Nat
  | [] => []
  | c :: rest =>
      if c = '\n' then (offset + 1) :: lineStartsFrom (offset + 1) rest
      else lineStartsFrom (offset + 1) rest

/-- The starts of a text's lines, with the text's length. -/
structure LineIndex where
  length : Nat
  starts : Array Nat
deriving Repr

namespace LineIndex

/-- The index of a text. -/
def ofText (s : List Char) : LineIndex where
  length := s.length
  starts := (0 :: lineStartsFrom 0 s).toArray

/-- The last of the lines `lo` to `hi` that starts at or before `offset`, the line `lo` failing any
other. -/
def search (starts : Array Nat) (offset lo hi : Nat) : Nat :=
  if lo < hi then
    let mid := (lo + hi + 1) / 2
    if starts.getD mid 0 ≤ offset then search starts offset mid hi
    else search starts offset lo (mid - 1)
  else lo
termination_by hi - lo

/-- The offset moved into the text. -/
def clamp (ix : LineIndex) (offset : Int) : Nat :=
  min offset.toNat ix.length

/-- The line and column of an offset. -/
def point (ix : LineIndex) (offset : Int) : Point :=
  let o := ix.clamp offset
  let line := search ix.starts o 0 (ix.starts.size - 1)
  { line := (line : Int) + 1
    column := (o : Int) - (ix.starts.getD line 0 : Int) + 1
    offset := o }

/-- The span between two offsets. -/
def span (ix : LineIndex) (start stop : Int) : Position :=
  ⟨ix.point start, ix.point stop⟩

/-- The offset at which a line ends, its line feed apart; the lines are counted from zero, and a
line after the last one ends where the text does. -/
def lineEnd (ix : LineIndex) (line : Nat) : Nat :=
  if line + 1 < ix.starts.size then ix.starts.getD (line + 1) 0 - 1 else ix.length

/-- The start of a line whose number may be negative: such lines are counted back from the end, and
a line after the last one stands for it. There is none for a line too far back. -/
def lineStartAt? (ix : LineIndex) (line : Int) : Option Int :=
  let near := min line ((ix.starts.size : Int) - 1)
  let found := if near < 0 then near + (ix.starts.size : Int) else near
  if found < 0 then none else some (ix.starts.getD found.toNat 0 : Int)

/-- The end of a line whose number may be negative: the successors of such lines are counted back
from the last line. There is none for a line too far back. -/
def lineEndAt? (ix : LineIndex) (line : Int) : Option Int :=
  if line + 1 < (ix.starts.size : Int) then
    let next := if line + 1 < 0 then line + 1 + (ix.starts.size : Int) else line + 1
    if next < 0 then none else some ((ix.starts.getD next.toNat 0 : Int) - 1)
  else some ix.length

end LineIndex

end Mdx
