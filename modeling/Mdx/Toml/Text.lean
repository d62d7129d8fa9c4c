import Mdx.Json.Reader

/-!
# Texts and keys of TOML

A text stands between quotes, which are double if it may hold escapes and single if not; three quotes
open a text of several lines. A key is a list of parts divided by points, each a bare word or a text
of one line. A reader gives what it read and the rest, or nothing if the document is malformed.
-/

namespace Mdx.Toml

/-- A blank within a line. -/
def isGap (c : Char) : Bool :=
  c == ' ' || c == '\t'

/-- The rest after blanks within a line. -/
def skipGap (s : List Char) : List Char :=
  s.dropWhile isGap

/-- A control character, which stands nowhere; a tab and a line feed do not count. -/
def isControl (c : Char) : Bool :=
  (c.toNat < 32 || c.toNat == 127) && c != '\t' && c != '\n'

/-- A character of a bare word. -/
def isBare (c : Char) : Bool :=
  c.isAlphanum || c == '-' || c == '_'

/-- The rest after a comment, if there is one; a control character makes it malformed. -/
def skipComment? : List Char → Option (List Char)
  | '#' :: rest =>
      if (rest.takeWhile (· != '\n')).any isControl then none else some (rest.dropWhile (· != '\n'))
  | s => some s

/-- The value of hexadecimal digits. -/
def hexNumber? (digits : List Char) : Option Nat :=
  digits.foldl (fun n c => do return (← n) * 16 + (← Text.hexValue? c)) (some 0)

/-- The character that a code of so many hexadecimal digits stands for. -/
def coded? (count : Nat) (s : List Char) : Option (Char × List Char) := do
  let digits := s.take count
  let n ← if digits.length = count then hexNumber? digits else none
  if n.isValidChar then return (Char.ofNat n, s.drop count) else none

/-- The character that an escape stands for, given the text after its backslash. -/
def escaped? : List Char → Option (Char × List Char)
  | [] => none
  | c :: rest =>
      if c == 'b' then some (Char.ofNat 0x08, rest)
      else if c == 't' then some ('\t', rest)
      else if c == 'n' then some ('\n', rest)
      else if c == 'f' then some (Char.ofNat 0x0c, rest)
      else if c == 'r' then some ('\r', rest)
      else if c == '\x22' || c == '\\' then some (c, rest)
      else if c == 'u' then coded? 4 rest
      else if c == 'U' then coded? 8 rest
      else none

/-- The rest after a backslash at the end of a line, which joins it to the next word. -/
def joined? (s : List Char) : Option (List Char) :=
  match skipGap s with
  | '\n' :: rest => some (rest.dropWhile fun c => isGap c || c == '\n')
  | _ => none

/-- A text of one line with escapes, after its opening quote; `acc` is what was read, last first. -/
def basic : (fuel : Nat) → (acc : List Char) → List Char → Option (String × List Char)
  | 0, _, _ => none
  | _ + 1, _, [] => none
  | fuel + 1, acc, c :: rest =>
      if c == '\x22' then some (String.ofList acc.reverse, rest)
      else if c == '\\' then do
        let (ch, after) ← escaped? rest
        basic fuel (ch :: acc) after
      else if isControl c || c == '\n' then none
      else basic fuel (c :: acc) rest

/-- A text of several lines with escapes, after its opening quotes. -/
def longBasic : (fuel : Nat) → (acc : List Char) → List Char → Option (List Char × List Char)
  | 0, _, _ => none
  | _ + 1, _, [] => none
  | _ + 1, acc, '\x22' :: '\x22' :: '\x22' :: rest => some (acc.reverse, rest)
  | fuel + 1, acc, '\\' :: rest =>
      match joined? rest with
      | some after => longBasic fuel acc after
      | none => do
          let (ch, after) ← escaped? rest
          longBasic fuel (ch :: acc) after
  | fuel + 1, acc, c :: rest => if isControl c then none else longBasic fuel (c :: acc) rest

/-- A text of one line without escapes, after its opening quote. -/
def literal (s : List Char) : Option (String × List Char) :=
  let body := s.takeWhile (· != '\x27')
  match s.dropWhile (· != '\x27') with
  | _ :: rest =>
      if body.any fun c => isControl c || c == '\n' then none else some (String.ofList body, rest)
  | [] => none

/-- A text of several lines without escapes, after its opening quotes. -/
def longLiteral : (acc : List Char) → List Char → Option (List Char × List Char)
  | _, [] => none
  | acc, '\x27' :: '\x27' :: '\x27' :: rest => some (acc.reverse, rest)
  | acc, c :: rest => if isControl c then none else longLiteral (c :: acc) rest

/-- A text of several lines, with one or two quotes that stand right before its closing ones. -/
def closing (quote : Char) (body rest : List Char) : String × List Char :=
  match rest with
  | c :: d :: tail =>
      if c == quote && d == quote then (String.ofList (body ++ [quote, quote]), tail)
      else if c == quote then (String.ofList (body ++ [quote]), d :: tail)
      else (String.ofList body, rest)
  | [c] => if c == quote then (String.ofList (body ++ [quote]), []) else (String.ofList body, rest)
  | [] => (String.ofList body, [])

/-- The rest after a line feed, if there is one. -/
def skipLine : List Char → List Char
  | '\n' :: rest => rest
  | s => s

/-- A text. -/
def text? : List Char → Option (String × List Char)
  | '\x22' :: '\x22' :: '\x22' :: rest => do
      let (body, after) ← longBasic (rest.length + 1) [] (skipLine rest)
      return closing '\x22' body after
  | '\x22' :: rest => basic (rest.length + 1) [] rest
  | '\x27' :: '\x27' :: '\x27' :: rest => do
      let (body, after) ← longLiteral [] (skipLine rest)
      return closing '\x27' body after
  | '\x27' :: rest => literal rest
  | _ => none

/-- A part of a key. -/
def keyPart? : List Char → Option (String × List Char)
  | '\x22' :: rest => basic (rest.length + 1) [] rest
  | '\x27' :: rest => literal rest
  | s =>
      let word := s.takeWhile isBare
      if word.isEmpty then none else some (String.ofList word, s.dropWhile isBare)

/-- A key, with the blanks after it; `acc` holds the parts before, last first. -/
def key : (fuel : Nat) → (acc : List String) → List Char → Option (List String × List Char)
  | 0, _, _ => none
  | fuel + 1, acc, s => do
      let (part, rest) ← keyPart? s
      match skipGap rest with
      | '.' :: rest => key fuel (part :: acc) (skipGap rest)
      | rest => return ((part :: acc).reverse, rest)

/-- A key, with the blanks after it. -/
def key? (s : List Char) : Option (List String × List Char) :=
  key (s.length + 1) [] s

end Mdx.Toml
