import Mdx.Element.Span
import Mdx.Markdown.Block.Definition
import Mdx.Markdown.Inline.Raw

/-!
# Finding the ends of things in running text

A link's label ends at the closing bracket that matches, but code, other links, elements and escapes
inside the label bind tighter. So to find the end, the text is read with the same rules as later on,
without making tokens. `Memo` keeps what has been found on the way, so that no place is read twice.
-/

namespace Mdx.Markdown

/-- Running text, and the definitions of the links in it. -/
structure InlineText where
  src : Array Char
  definitions : List Definition

namespace InlineText

/-- The characters from one offset up to another. -/
def slice (t : InlineText) (start stop : Nat) : List Char :=
  (t.src.extract start stop).toList

/-- The characters from an offset on. -/
def suffix (t : InlineText) (start : Nat) : List Char :=
  t.slice start t.src.size

end InlineText

/-- What has been found out about a text: where the piece that starts at an offset ends. -/
structure Memo where
  ends : Array (Option Nat)

namespace Memo

/-- Nothing is known about a text of so many characters. -/
def empty (size : Nat) : Memo where
  ends := Array.replicate (size + 1) none

/-- The end of the piece that starts at an offset, if it is known. -/
def end? (m : Memo) (pos : Nat) : Option Nat :=
  m.ends.getD pos none

/-- Remembers the end of the piece that starts at an offset. -/
def remember (m : Memo) (pos stop : Nat) : Memo :=
  { m with ends := m.ends.setIfInBounds pos (some stop) }

end Memo

/-- The deepest level at which running text is looked into. -/
def inlineLevels : Nat := 20

/-- A character that may start something other than plain text. -/
def isSpecial (c : Char) : Bool :=
  "\n!#$%&*+-:<=>@[\\]^_\x60\x7b\x7d~".toList.contains c

/-- The offset after the characters of a class from an offset on, before `stop`. -/
def runEnd (src : Array Char) (p : Char → Bool) (stop : Nat) : (room pos : Nat) → Nat
  | 0, pos => pos
  | room + 1, pos =>
      if pos < stop && (src[pos]?).any p then runEnd src p stop room (pos + 1) else pos

/-- The offset after the characters of a class from an offset on, before `stop`. -/
def skipWhile (t : InlineText) (p : Char → Bool) (pos stop : Nat) : Nat :=
  runEnd t.src p stop (stop - pos) pos

/-- The next backtick from an offset on. -/
def nextBacktick? (src : Array Char) : (room pos : Nat) → Option Nat
  | 0, _ => none
  | room + 1, pos =>
      match src[pos]? with
      | none => none
      | some c => if c == '\x60' then some pos else nextBacktick? src room (pos + 1)

/-- The next row of backticks of a length from an offset on: where it starts and ends. -/
def backtickCloser? (t : InlineText) (length : Nat) : (room pos : Nat) → Option (Nat × Nat)
  | 0, _ => none
  | room + 1, pos =>
      match nextBacktick? t.src (t.src.size - pos) pos with
      | none => none
      | some start =>
          let after := skipWhile t (· == '\x60') start t.src.size
          if after - start = length then some (start, after)
          else backtickCloser? t length room after

/-- What a row of backticks at an offset is: its end, and the start and end of the row that closes it if
it starts code. -/
def backticksAt (t : InlineText) (stop pos : Nat) : Nat × Option (Nat × Nat) :=
  let after := skipWhile t (· == '\x60') (pos + 1) stop
  (after, backtickCloser? t (after - pos) (t.src.size + 1) after)

/-- The offset after a line break and the blanks after it. -/
def lineBreakEnd (t : InlineText) (stop pos : Nat) : Nat :=
  skipWhile t Text.isIndent (pos + 1) stop

/-- A blank or a line break between the parts of a link. -/
def isGap (c : Char) : Bool :=
  c == '\n' || Text.isIndent c

/-- What a text in parentheses after a label, whose opening parenthesis has been read, gives: the
destination, the title, and the text from where a closing parenthesis is due. Nothing if the text
ends before. -/
def parenthesized? (s : List Char) : Option (List Char × List Char × List Char) :=
  match s.dropWhile isGap with
  | [] => none
  | c :: rest =>
      let s := c :: rest
      match destination? s with
      | none => some ([], [], s)
      | some (destination, after) =>
          let address := Url.normalize destination
          let safe := Url.isSafe address
          let href := if safe then address else []
          let after := if safe then after else s
          let next := after.dropWhile isGap
          match (if next.length < after.length then title? next else none) with
          | some (title, rest) => some (href, title, rest.dropWhile isGap)
          | none => some (href, [], next)

/-- A link or an image: where its label starts and ends, its destination, its title, and where it
ends. -/
structure LinkSpan where
  labelStart : Nat
  labelEnd : Nat
  href : List Char
  title : List Char
  stop : Nat

/-- The offset after the element or comment at an offset. -/
def elementEnd? (t : InlineText) (stop pos : Nat) : Option Nat :=
  if t.src[pos]? = some '<' then Element.spanEnd? t.src.toList pos stop else none

/-- The offset after the single tag, comment or declaration at an offset. -/
def rawEnd? (t : InlineText) (stop pos : Nat) : Option Nat :=
  if stop ≤ pos + 2 then none
  else (rawInlineRest? (t.suffix pos)).map fun rest => t.src.size - rest.length

/-- The offset after the element, link, tag or address in angle brackets at an offset. -/
def angleEnd? (t : InlineText) (stop pos : Nat) : Option Nat :=
  let window := t.slice pos stop
  match (angled? [] (window.drop 1)).bind fun url => (autolinkAddress? url).map fun _ => url with
  | some url => some (pos + url.length + 2)
  | none => (elementEnd? t stop pos).or (rawEnd? t stop pos)

mutual

/-- The offset after the piece of text at an offset, which is inside so many levels. -/
def pieceEnd (t : InlineText) (stop : Nat) :
    (room level pos : Nat) → Memo → Nat × Memo
  | 0, _, pos, memo => (pos + 1, memo)
  | room + 1, level, pos, memo =>
      match memo.end? pos with
      | some after => (after, memo)
      | none =>
          if level < inlineLevels then
            match specialEnd? t stop room (level + 1) pos memo with
            | (after, memo) =>
                let after := after.getD (pos + 1)
                (after, memo.remember pos after)
          else (stop + 1, memo.remember pos (stop + 1))

/-- The offset after the piece of text at an offset, if it is more than a single character. -/
def specialEnd? (t : InlineText) (stop : Nat) :
    (room level pos : Nat) → Memo → Option Nat × Memo
  | 0, _, _, memo => (none, memo)
  | room + 1, level, pos, memo =>
      match t.src[pos]? with
      | none => (none, memo)
      | some c =>
          if !isSpecial c then (some (skipWhile t (!isSpecial ·) pos stop), memo)
          else
            match c with
            | '\n' => (some (lineBreakEnd t stop pos), memo)
            | '\\' =>
                if stop ≤ pos + 1 then (none, memo)
                else if t.src[pos + 1]? = some '\n' then (some (lineBreakEnd t stop (pos + 1)), memo)
                else (some (pos + 2), memo)
            | '\x60' =>
                match backticksAt t stop pos with
                | (after, closer) => (some ((closer.map (·.2)).getD after), memo)
            | '[' =>
                match linkAt? t stop room level pos memo with
                | (found, memo) => (found.map (·.stop), memo)
            | '!' =>
                match imageAt? t stop room level pos memo with
                | (found, memo) => (found.map (·.stop), memo)
            | '<' => (angleEnd? t stop pos, memo)
            | '&' =>
                if stop ≤ pos + 1 then (none, memo)
                else ((entityHere? (t.suffix (pos + 1))).map fun e => pos + 1 + e.2, memo)
            | _ => (none, memo)

/-- The offset of the bracket that closes a label, from an offset in it on; `depth` brackets are open.
A label that must not nest has no link in it. -/
def labelEnd? (t : InlineText) (stop : Nat) (nests : Bool) :
    (room level depth pos : Nat) → Memo → Option Nat × Memo
  | 0, _, _, _, memo => (none, memo)
  | room + 1, level, depth, pos, memo =>
      if stop ≤ pos then (none, memo)
      else
        let c := t.src.getD pos ' '
        if c == ']' && depth ≤ 1 then (some pos, memo)
        else
          let depth := if c == ']' then depth - 1 else depth
          match pieceEnd t stop room level pos memo with
          | (after, memo) =>
              if c == '[' then
                if after = pos + 1 then labelEnd? t stop nests room level (depth + 1) after memo
                else if nests then labelEnd? t stop nests room level depth after memo
                else (none, memo)
              else labelEnd? t stop nests room level depth after memo

/-- The link to a defined label, which may follow the label of the link itself at an offset. -/
def definedLink? (t : InlineText) (stop : Nat) :
    (room level labelStart labelEnd pos : Nat) → Memo → Option LinkSpan × Memo
  | 0, _, _, _, _, memo => (none, memo)
  | room + 1, level, labelStart, labelEnd, pos, memo =>
      if t.definitions.isEmpty then (none, memo)
      else
        let own := t.slice labelStart labelEnd
        let span (label : List Char) (after : Nat) : Option LinkSpan :=
          (definitionOf? t.definitions label).map fun d =>
            ⟨labelStart, labelEnd, d.href, d.title, after⟩
        if pos < stop && t.src[pos]? = some '[' then
          match labelEnd? t stop true room level 1 (pos + 1) memo with
          | (some last, memo) =>
              let label := t.slice (pos + 1) last
              (span (if label.isEmpty then own else label) (last + 1), memo)
          | (none, memo) => (span own (labelEnd + 1), memo)
        else (span own (labelEnd + 1), memo)

/-- The link at an offset. If what follows its label in parentheses is no destination, the label may
still be a defined one. -/
def linkAt? (t : InlineText) (stop : Nat) :
    (room level pos : Nat) → Memo → Option LinkSpan × Memo
  | 0, _, _, memo => (none, memo)
  | room + 1, level, pos, memo =>
      match labelEnd? t stop false room level 1 (pos + 1) memo with
      | (none, memo) => (none, memo)
      | (some last, memo) =>
          if last + 1 < stop && t.src[last + 1]? = some '(' then
            match parenthesized? (t.slice (last + 2) stop) with
            | none => (none, memo)
            | some (href, title, rest) =>
                let after := stop - rest.length + 1
                if rest.head? = some ')' then
                  (some ⟨pos + 1, last, href, title, after⟩, memo)
                else definedLink? t stop room level (pos + 1) last after memo
          else definedLink? t stop room level (pos + 1) last (last + 1) memo

/-- The image at an offset. -/
def imageAt? (t : InlineText) (stop : Nat) :
    (room level pos : Nat) → Memo → Option LinkSpan × Memo
  | 0, _, _, memo => (none, memo)
  | room + 1, level, pos, memo =>
      if pos + 1 < stop && t.src[pos + 1]? ≠ some '[' then (none, memo)
      else
        match labelEnd? t stop true room level 1 (pos + 2) memo with
        | (none, memo) => (none, memo)
        | (some last, memo) =>
            if last + 1 < stop && t.src[last + 1]? = some '(' then
              match parenthesized? (t.slice (last + 2) stop) with
              | none => (none, memo)
              | some (href, title, rest) =>
                  if rest.head? = some ')' then
                    (some ⟨pos + 2, last, href, title, stop - rest.length + 1⟩, memo)
                  else (none, memo)
            else definedLink? t stop room level (pos + 2) last (last + 1) memo

end

/-- Enough room to find the end of anything in a text. -/
def scanRoom (t : InlineText) : Nat :=
  6 * (t.src.size + 4)

end Mdx.Markdown
