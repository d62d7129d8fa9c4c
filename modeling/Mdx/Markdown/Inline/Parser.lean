import Mdx.Markdown.Inline.Delimiter
import Mdx.Markdown.Inline.Scan

/-!
# Reading running text

Running text is made into tokens from left to right. Marks of emphasis become text tokens of their
own at first; when the end is reached, those that pair up are made into tags. The text of a link has
marks of its own, which do not pair up with those outside.
-/

namespace Mdx.Markdown

/-- What has been read: the tokens, the text after the last of them, last character first, the marks of
the current link and those of the links that have been read. -/
structure Reading where
  tokens : Array Token := #[]
  pending : List Char := []
  marks : Array Delimiter := #[]
  groups : List (Array Delimiter) := []
  memo : Memo

namespace Reading

/-- Adds plain text. -/
def addChars (r : Reading) (cs : List Char) : Reading :=
  { r with pending := cs.reverse ++ r.pending }

/-- Makes a token of the text after the last token. -/
def flush (r : Reading) : Reading :=
  if r.pending.isEmpty then r
  else
    let text := String.ofList r.pending.reverse
    { r with
      tokens := r.tokens.push (.mk { kind := "text", content := text } .single [])
      pending := [] }

/-- Adds a token. -/
def push (r : Reading) (t : Token) : Reading :=
  let r := r.flush
  { r with tokens := r.tokens.push t }

/-- Adds a text token of its own. -/
def pushText (r : Reading) (cs : List Char) : Reading :=
  r.push (.mk { kind := "text", content := String.ofList cs } .single [])

/-- Adds a text that an escape or a character reference stands for. -/
def pushSpecial (r : Reading) (cs : List Char) : Reading :=
  r.push (.mk { kind := "text_special", content := String.ofList cs } .single [])

/-- Adds a line break: a hard one if two spaces come before it, which are dropped. -/
def lineBreak (r : Reading) : Reading :=
  match r.pending with
  | ' ' :: ' ' :: rest =>
      { r with pending := rest.dropWhile (· == ' ') }.push
        (.mk { kind := "hardbreak", tag := "br" } .single [])
  | ' ' :: rest =>
      { r with pending := rest }.push (.mk { kind := "softbreak", tag := "br" } .single [])
  | _ => r.push (.mk { kind := "softbreak", tag := "br" } .single [])

/-- Adds marks of emphasis, each with its text token. -/
def addMarks (mark : Char) (text : List Char) (length : Nat) (opens closes : Bool) :
    (count : Nat) → Reading → Reading
  | 0, r => r
  | count + 1, r =>
      let r := r.pushText text
      let d : Delimiter :=
        { mark := mark, length := length, token := r.tokens.size - 1, opens := opens
          closes := closes }
      addMarks mark text length opens closes count { r with marks := r.marks.push d }

/-- The tokens, with tags in place of the marks that pair up. -/
def finish (r : Reading) : List Token :=
  let groups := (r.marks :: r.groups).map pairUp
  let tokens := groups.foldl markStrikes r.tokens
  (groups.foldl markEmphasis tokens).toList

end Reading

/-- A row of marks of emphasis at an offset: where it ends, and whether it may open and close. -/
def markRow (t : InlineText) (stop pos : Nat) (mark : Char) : Nat × Bool × Bool :=
  let after := skipWhile t (· == mark) pos stop
  let before := if pos = 0 then ' ' else t.src.getD (pos - 1) ' '
  let next := if after < stop then t.src.getD after ' ' else ' '
  (after, flanking before next (mark != '_'))

/-- The attributes of a link or an image. -/
def linkAttrs (key : String) (l : LinkSpan) : Json.Members :=
  (key, .str (String.ofList l.href)) ::
    if l.title.isEmpty then [] else [("title", .str (String.ofList l.title))]

/-- The contents of code: line breaks are spaces, and one space at each end is dropped if there is one at
both and there is more than spaces. Other blank characters are no spaces. -/
def codeContent (s : List Char) : List Char :=
  let s := s.map fun c => if c == '\n' then ' ' else c
  if s.head? = some ' ' && s.getLast? = some ' ' && s.any (· != ' ') then
    (s.drop 1).dropLast
  else s

/-- Adds code, or a row of backticks that starts none. -/
def readBackticks (t : InlineText) (stop pos : Nat) (r : Reading) : Nat × Reading :=
  match backticksAt t stop pos with
  | (after, some (start, last)) =>
      let content := String.ofList (codeContent (t.slice after start))
      (last, r.push (.mk { kind := "code_inline", tag := "code", content := content } .single []))
  | (after, none) => (after, r.addChars (t.slice pos after))

/-- Adds a row of tildes, two by two; a single one is left over at the start of a row of odd length. -/
def readTildes (t : InlineText) (stop pos : Nat) (r : Reading) : Nat × Reading :=
  match markRow t stop pos '~' with
  | (after, opens, closes) =>
      let length := after - pos
      if length < 2 then (pos + 1, r.addChars ['~'])
      else
        let r := if length % 2 = 1 then r.pushText ['~'] else r
        (after, r.addMarks '~' ['~', '~'] 0 opens closes (length / 2))

/-- Adds a row of asterisks or low lines. -/
def readMarks (t : InlineText) (stop pos : Nat) (mark : Char) (r : Reading) : Nat × Reading :=
  match markRow t stop pos mark with
  | (after, opens, closes) =>
      (after, r.addMarks mark [mark] (after - pos) opens closes (after - pos))

/-- What a rule for running text changes: the offset to go on with, and what has been read. -/
structure InlineState where
  pos : Nat
  reading : Reading

/-- Adds raw markup, which stands from one offset up to another. -/
def Reading.pushRaw (r : Reading) (t : InlineText) (pos after : Nat) : Reading :=
  let content := String.ofList (t.slice pos after)
  r.push (.mk { kind := "html_inline", content := content } .single [])

/-- A call of the rule for elements in running text: whether one stands at the offset, and the state after
the call. A silent call passes the element without reading it. -/
def inlineElementRule (t : InlineText) (stop : Nat) (silent : Bool) (state : InlineState) :
    Bool × InlineState :=
  match elementEnd? t stop state.pos with
  | none => (false, state)
  | some after =>
      let r := if silent then state.reading else state.reading.pushRaw t state.pos after
      (true, { pos := after, reading := r })

/-- Adds what an opening angle bracket starts. -/
def readAngle (t : InlineText) (stop pos : Nat) (r : Reading) : Nat × Reading :=
  let window := t.slice pos stop
  let link := (angled? [] (window.drop 1)).bind fun url =>
    (autolinkAddress? url).map fun href => (url, href)
  match link with
  | some (url, href) =>
      let head : SyntaxHead :=
        { kind := "link_open", tag := "a", attrs := [("href", .str (String.ofList href))] }
      let r := ((r.push (.mk head .opening [])).pushText (Url.display url)).push
        (.mk { kind := "link_close", tag := "a" } .closing [])
      (pos + url.length + 2, r)
  | none =>
      match inlineElementRule t stop false ⟨pos, r⟩ with
      | (true, state) => (state.pos, state.reading)
      | (false, _) =>
          match rawEnd? t stop pos with
          | some after => (after, r.pushRaw t pos after)
          | none => (pos + 1, r.addChars ['<'])

/-- Adds what a backslash starts: a hard line break, or the character after it, from which punctuation
has its meaning taken. -/
def readEscape (t : InlineText) (stop pos : Nat) (r : Reading) : Nat × Reading :=
  if stop ≤ pos + 1 then (pos + 1, r.addChars ['\\'])
  else
    let c := t.src.getD (pos + 1) ' '
    if c == '\n' then
      (lineBreakEnd t stop (pos + 1), r.push (.mk { kind := "hardbreak", tag := "br" } .single []))
    else (pos + 2, r.pushSpecial (if Text.isBasicPunctuation c then [c] else ['\\', c]))

/-- Adds a character reference. -/
def readEntity (t : InlineText) (stop pos : Nat) (r : Reading) : Nat × Reading :=
  match if stop ≤ pos + 1 then none else entityHere? (t.suffix (pos + 1)) with
  | some (value, length) => (pos + 1 + length, r.pushSpecial value)
  | none => (pos + 1, r.addChars ['&'])

/-- Adds a piece that has no other pieces in it. -/
def readPlain (t : InlineText) (stop pos : Nat) (c : Char) (r : Reading) : Nat × Reading :=
  if !isSpecial c then
    let after := skipWhile t (!isSpecial ·) pos stop
    (after, r.addChars (t.slice pos after))
  else
    match c with
    | '\n' => (lineBreakEnd t stop pos, r.lineBreak)
    | '\\' => readEscape t stop pos r
    | '\x60' => readBackticks t stop pos r
    | '~' => readTildes t stop pos r
    | '*' => readMarks t stop pos '*' r
    | '_' => readMarks t stop pos '_' r
    | '<' => readAngle t stop pos r
    | '&' => readEntity t stop pos r
    | _ => (pos + 1, r.addChars [c])

mutual

/-- Reads the text from an offset up to another, inside so many levels. -/
def readFrom (t : InlineText) : (room stop level pos : Nat) → Reading → Reading
  | 0, _, _, _, r => r.flush
  | room + 1, stop, level, pos, r =>
      if stop ≤ pos then r.flush
      else
        let c := t.src.getD pos ' '
        if inlineLevels ≤ level then readFrom t room stop level (pos + 1) (r.addChars [c])
        else if c == '[' then
          match linkAt? t stop (scanRoom t) level pos r.memo with
          | (none, memo) =>
              readFrom t room stop level (pos + 1) ({ r with memo := memo }.addChars [c])
          | (some l, memo) =>
              let head : SyntaxHead := { kind := "link_open", tag := "a", attrs := linkAttrs "href" l }
              let opened := { r with memo := memo }.push (.mk head .opening [])
              let inner := readFrom t room l.labelEnd (level + 1) l.labelStart
                { opened with marks := #[] }
              let closed :=
                { inner with marks := opened.marks, groups := inner.marks :: inner.groups }.push
                  (.mk { kind := "link_close", tag := "a" } .closing [])
              readFrom t room stop level l.stop closed
        else if c == '!' then
          match imageAt? t stop (scanRoom t) level pos r.memo with
          | (none, memo) =>
              readFrom t room stop level (pos + 1) ({ r with memo := memo }.addChars [c])
          | (some l, memo) =>
              let inner := readAll room t.definitions (t.slice l.labelStart l.labelEnd)
              let head : SyntaxHead := { kind := "image", tag := "img", attrs := linkAttrs "src" l }
              readFrom t room stop level l.stop
                ({ r with memo := memo }.push (.mk head .single inner))
        else
          match readPlain t stop pos c r with
          | (next, r) => readFrom t room stop level next r

/-- The tokens of a text. -/
def readAll (room : Nat) (definitions : List Definition) (text : List Char) : List Token :=
  match room with
  | 0 => []
  | room + 1 =>
      let t : InlineText := ⟨text.toArray, definitions⟩
      (readFrom t room text.length 0 0 { memo := Memo.empty text.length }).finish

end

/-- A token that is no longer special text, but text. -/
def plainToken : Token → Token
  | .mk h nesting inner =>
      .mk (if h.kind = "text_special" then { h with kind := "text" } else h) nesting inner

/-- Makes text of the special texts among tokens and in the descriptions of images. The descriptions
of images in those descriptions keep theirs. -/
def plainTokens (tokens : List Token) : List Token :=
  tokens.map fun
    | .mk h nesting inner => plainToken (.mk h nesting (inner.map plainToken))

/-- The pieces of syntax of running text. -/
def parseInline (definitions : List Definition) (text : List Char) : List Syntax :=
  Syntax.ofTokens (plainTokens (readAll (2 * text.length + 4) definitions text))

end Mdx.Markdown
