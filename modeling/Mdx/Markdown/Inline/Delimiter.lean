import Mdx.Markdown.Line
import Mdx.Markdown.Syntax
import Mdx.Text.Punctuation

/-!
# Emphasis

Rows of asterisks, low lines and tildes may open emphasis, close it, or both, depending on the
characters around them. `pairUp` finds for each mark that closes the nearest mark before it that it
can close; `markStrikes` and `markEmphasis` then make tags of the text tokens of the pairs.
-/

namespace Mdx.Markdown

/-- A mark that may open or close emphasis. -/
structure Delimiter where
  mark : Char
  /-- The length of the row that it stands in; zero if the length does not matter. -/
  length : Nat
  /-- The number of its token. -/
  token : Nat
  opens : Bool
  closes : Bool
  /-- The number of the mark that closes it. -/
  closer : Option Nat := none
deriving Inhabited

/-- Whether a row of marks between two characters may open emphasis, and whether it may close some.
Inside a word, only marks that may split it count. -/
def flanking (before after : Char) (splitsWords : Bool) : Bool × Bool :=
  let punctBefore := Text.isPunctuation before
  let punctAfter := Text.isPunctuation after
  let blankBefore := isFlankBlank before
  let blankAfter := isFlankBlank after
  let left := !(blankAfter || (punctAfter && !(blankBefore || punctBefore)))
  let right := !(blankBefore || (punctBefore && !(blankAfter || punctAfter)))
  (left && (splitsWords || !right || punctBefore), right && (splitsWords || !left || punctAfter))

/-- The state of the search for pairs: the marks, how many marks before each one need not be looked
at again, the first mark of the current row, the token of the last mark, and for each kind of mark
the place below which no opener is left. -/
structure Pairing where
  marks : Array Delimiter
  jumps : Array Nat := #[]
  row : Nat := 0
  last : Option Nat := none
  bottoms : List ((Char × Nat) × Int) := []

/-- A mark that may both open and close does not go together with another one if their rows' lengths
add up to a multiple of three, unless both lengths are multiples of three. -/
def isOddMatch (opener closer : Delimiter) : Bool :=
  (opener.closes || closer.opens) && (opener.length + closer.length) % 3 == 0 &&
    (opener.length % 3 != 0 || closer.length % 3 != 0)

/-- The number of the mark that a closer closes, from `i` downwards and above `bottom`. -/
def openerFor? (p : Pairing) (closer : Delimiter) (bottom : Int) : (room : Nat) → (i : Int) → Option Nat
  | 0, _ => none
  | room + 1, i =>
      if i ≤ bottom || i < 0 then none
      else
        let n := i.toNat
        let opener := p.marks.getD n default
        if opener.mark == closer.mark && opener.opens && opener.closer.isNone &&
            !isOddMatch opener closer then some n
        else openerFor? p closer bottom room (i - ((p.jumps.getD n 0 : Int) + 1))

/-- Joins an opener and a closer. -/
def Pairing.join (p : Pairing) (opener closer : Nat) : Pairing :=
  let jump :=
    if 0 < opener && !(p.marks.getD (opener - 1) default).opens then
      p.jumps.getD (opener - 1) 0 + 1
    else 0
  let marks := p.marks.modify closer fun d => { d with opens := false }
  let marks := marks.modify opener fun d => { d with closer := some closer, closes := false }
  let jumps := (p.jumps.setIfInBounds closer (closer - opener + jump)).setIfInBounds opener jump
  { p with marks := marks, jumps := jumps, last := none }

/-- Looks for the mark that mark number `i` closes. -/
def Pairing.step (p : Pairing) (i : Nat) : Pairing :=
  let closer := p.marks.getD i default
  let goesOn :=
    (p.marks.getD p.row default).mark == closer.mark && p.last.any (· + 1 == closer.token)
  let p :=
    { p with
      jumps := p.jumps.push 0
      row := if goesOn then p.row else i
      last := some closer.token }
  if closer.closes then
    let key := (closer.mark, (if closer.opens then 3 else 0) + closer.length % 3)
    let bottom := (p.bottoms.lookup key).getD (-1)
    let first := (p.row : Int) - p.jumps.getD p.row 0 - 1
    match openerFor? p closer bottom (i + 1) first with
    | some opener => p.join opener i
    | none => if first = -1 then p else { p with bottoms := (key, first) :: p.bottoms }
  else p

/-- The marks with the closer of each opener. -/
def pairUp (marks : Array Delimiter) : Array Delimiter :=
  ((List.range marks.size).foldl Pairing.step { marks := marks }).marks

/-- The tokens with the one of a number made a tag. -/
def setTag (kind tag : String) (nesting : Nesting) (i : Nat) (tokens : Array Token) : Array Token :=
  tokens.setIfInBounds i (.mk { kind := kind, tag := tag } nesting [])

/-- The tokens with the one of a number emptied. -/
def clearText (i : Nat) (tokens : Array Token) : Array Token :=
  tokens.modify i fun
    | .mk h nesting inner => .mk { h with content := "" } nesting inner

/-- Whether a token is a text of a single tilde. -/
def isLoneTilde (t : Token) : Bool :=
  t.head.kind = "text" && t.head.content = "~"

/-- Makes tags of the tildes that are paired, and lists the numbers of tokens with a single tilde that
come right before a closing tag, last first. -/
def tagStrikes (marks : Array Delimiter) :
    List Delimiter → Array Token × List Nat → Array Token × List Nat
  | [], acc => acc
  | d :: rest, (tokens, lone) =>
      match d.mark == '~', d.closer with
      | true, some closer =>
          let stop := (marks.getD closer default).token
          let tokens := setTag "s_open" "s" .opening d.token tokens
          let tokens := setTag "s_close" "s" .closing stop tokens
          let lone :=
            if isLoneTilde (tokens.getD (stop - 1) default) then (stop - 1) :: lone else lone
          tagStrikes marks rest (tokens, lone)
      | _, _ => tagStrikes marks rest (tokens, lone)

/-- The number of the last of the closing tags that follow each other from `i` on. -/
def lastStrikeClose (tokens : Array Token) : (room i : Nat) → Nat
  | 0, i => i
  | room + 1, i =>
      if (tokens[i + 1]?).any (·.head.kind = "s_close") then lastStrikeClose tokens room (i + 1)
      else i

/-- Moves a single tilde behind the closing tags that follow it. -/
def moveTilde (tokens : Array Token) (i : Nat) : Array Token :=
  let j := lastStrikeClose tokens tokens.size i
  let moved := tokens.getD i default
  (tokens.setIfInBounds i (tokens.getD j default)).setIfInBounds j moved

/-- Makes tags of the tildes that are paired. -/
def markStrikes (tokens : Array Token) (marks : Array Delimiter) : Array Token :=
  match tagStrikes marks marks.toList (tokens, []) with
  | (tokens, lone) => lone.foldl moveTilde tokens

/-- Whether the pair of a mark and that of the mark before it make strong emphasis together. -/
def isStrong (marks : Array Delimiter) (i closer : Nat) : Bool :=
  let d := marks.getD i default
  let e := marks.getD (i - 1) default
  0 < i && e.closer == some (closer + 1) && e.mark == d.mark && e.token + 1 == d.token &&
    (marks.getD (closer + 1) default).token == (marks.getD closer default).token + 1

/-- Makes tags of a pair of marks. -/
def tagPair (marks : Array Delimiter) (strong : Bool) (i closer : Nat) (tokens : Array Token) :
    Array Token :=
  let name := if strong then "strong" else "em"
  let tokens := setTag (name ++ "_open") name .opening (marks.getD i default).token tokens
  let tokens := setTag (name ++ "_close") name .closing (marks.getD closer default).token tokens
  if strong then
    clearText (marks.getD (closer + 1) default).token
      (clearText (marks.getD (i - 1) default).token tokens)
  else tokens

/-- The closer of a mark of emphasis. -/
def emphasisCloser? (marks : Array Delimiter) (i : Nat) : Option Nat :=
  let d := marks.getD i default
  if d.mark == '*' || d.mark == '_' then d.closer else none

/-- Makes tags of the paired marks among the first `count`, from the last one down. -/
def markEmphasisFrom (marks : Array Delimiter) : (count : Nat) → Array Token → Array Token
  | 0, tokens => tokens
  | 1, tokens =>
      match emphasisCloser? marks 0 with
      | some closer => tagPair marks false 0 closer tokens
      | none => tokens
  | count + 2, tokens =>
      match emphasisCloser? marks (count + 1) with
      | some closer =>
          if isStrong marks (count + 1) closer then
            markEmphasisFrom marks count (tagPair marks true (count + 1) closer tokens)
          else markEmphasisFrom marks (count + 1) (tagPair marks false (count + 1) closer tokens)
      | none => markEmphasisFrom marks (count + 1) tokens

/-- Makes tags of the marks of emphasis that are paired. -/
def markEmphasis (tokens : Array Token) (marks : Array Delimiter) : Array Token :=
  markEmphasisFrom marks marks.size tokens

end Mdx.Markdown
