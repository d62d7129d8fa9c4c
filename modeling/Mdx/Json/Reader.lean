import Mdx.Json.Basic
import Mdx.Text.Basic

/-!
# Reading JSON

`Json.parse?` reads one JSON text. A number with a point or an exponent is a float and any other
one a whole number. Of two members with one key the later value holds, at the place of the first.
-/

namespace Mdx.Json.Reader

/-- The blanks between the parts of a JSON text. -/
def isSpace (c : Char) : Bool :=
  c == ' ' || c == '\t' || c == '\n' || c == '\r'

/-- The text after blanks. -/
def skip (s : List Char) : List Char :=
  s.dropWhile isSpace

/-- The code unit that four hexadecimal digits stand for. -/
def unit? : List Char → Option (Nat × List Char)
  | a :: b :: c :: d :: rest => do
      let a ← Text.hexValue? a
      let b ← Text.hexValue? b
      let c ← Text.hexValue? c
      let d ← Text.hexValue? d
      return (((a * 16 + b) * 16 + c) * 16 + d, rest)
  | _ => none

/-- The character of a code unit and, if it is the first one of a pair, of the unit after it. -/
def pairedChar (high : Nat) (rest : List Char) : Char × List Char :=
  if 0xd800 ≤ high && high < 0xdc00 then
    match rest with
    | '\\' :: 'u' :: tail =>
        match unit? tail with
        | some (low, after) =>
            if 0xdc00 ≤ low && low < 0xe000 then
              (Char.ofNat (0x10000 + (high - 0xd800) * 0x400 + (low - 0xdc00)), after)
            else (Char.ofNat 0xfffd, rest)
        | none => (Char.ofNat 0xfffd, rest)
    | _ => (Char.ofNat 0xfffd, rest)
  else if 0xdc00 ≤ high && high < 0xe000 then (Char.ofNat 0xfffd, rest)
  else (Char.ofNat high, rest)

/-- The character that an escape with one letter stands for. -/
def simpleEscape? (c : Char) : Option Char :=
  if c == '\x22' || c == '\\' || c == '/' then some c
  else if c == 'n' then some '\n'
  else if c == 'r' then some '\r'
  else if c == 't' then some '\t'
  else if c == 'b' then some (Char.ofNat 0x08)
  else if c == 'f' then some (Char.ofNat 0x0c)
  else none

/-- The rest of a text after its opening quote; `acc` holds the characters so far, last first. -/
def text : (fuel : Nat) → (acc : List Char) → List Char → Option (String × List Char)
  | 0, _, _ => none
  | _ + 1, _, [] => none
  | fuel + 1, acc, c :: rest =>
      if c == '\x22' then some (String.ofList acc.reverse, rest)
      else if c == '\\' then
        match rest with
        | 'u' :: tail => do
            let (high, after) ← unit? tail
            let (ch, after) := pairedChar high after
            text fuel (ch :: acc) after
        | e :: tail => do
            let ch ← simpleEscape? e
            text fuel (ch :: acc) tail
        | [] => none
      else text fuel (c :: acc) rest

/-- The value of decimal digits. -/
def digitsValue (digits : List Char) : Nat :=
  digits.foldl (fun n c => n * 10 + (c.toNat - 0x30)) 0

/-- The decimal `mantissa · 10^exponent` as a float. -/
def toFloat (mantissa : Nat) (exponent : Int) : Float :=
  if exponent < 0 then Float.ofScientific mantissa true exponent.natAbs
  else Float.ofScientific mantissa false exponent.natAbs

/-- An optional exponent, and whether there is one. -/
def exponentPart : List Char → Int × Bool × List Char
  | c :: rest =>
      if c == 'e' || c == 'E' then
        match rest with
        | '-' :: tail =>
            (-(digitsValue (tail.takeWhile Char.isDigit) : Int), true, tail.dropWhile Char.isDigit)
        | '+' :: tail =>
            (digitsValue (tail.takeWhile Char.isDigit), true, tail.dropWhile Char.isDigit)
        | tail => (digitsValue (tail.takeWhile Char.isDigit), true, tail.dropWhile Char.isDigit)
      else (0, false, c :: rest)
  | [] => (0, false, [])

/-- A number without its sign. -/
def unsigned (negative : Bool) (s : List Char) : Option (Json × List Char) :=
  let whole := s.takeWhile Char.isDigit
  let rest := s.dropWhile Char.isDigit
  if whole.isEmpty then none
  else
    let (fraction, hasPoint, rest) :=
      match rest with
      | '.' :: tail => (tail.takeWhile Char.isDigit, true, tail.dropWhile Char.isDigit)
      | _ => ([], false, rest)
    let (power, hasExponent, rest) := exponentPart rest
    if hasPoint || hasExponent then
      let x := toFloat (digitsValue (whole ++ fraction)) (power - (fraction.length : Int))
      some (.float (if negative then -x else x), rest)
    else
      let n : Int := digitsValue whole
      some (.int (if negative then -n else n), rest)

/-- A number. -/
def number : List Char → Option (Json × List Char)
  | '-' :: rest => unsigned true rest
  | s => unsigned false s

mutual

/-- A value, with blanks before it. -/
def value : (fuel : Nat) → List Char → Option (Json × List Char)
  | 0, _ => none
  | fuel + 1, s =>
      match skip s with
      | '[' :: rest =>
          match skip rest with
          | ']' :: tail => some (.arr [], tail)
          | _ => items fuel [] rest
      | '\x7b' :: rest =>
          match skip rest with
          | '\x7d' :: tail => some (.obj [], tail)
          | _ => members fuel [] rest
      | '\x22' :: rest => (text (rest.length + 1) [] rest).map fun (t, tail) => (.str t, tail)
      | 'n' :: 'u' :: 'l' :: 'l' :: rest => some (.null, rest)
      | 't' :: 'r' :: 'u' :: 'e' :: rest => some (.bool true, rest)
      | 'f' :: 'a' :: 'l' :: 's' :: 'e' :: rest => some (.bool false, rest)
      | other => number other

/-- The items of an array after its bracket or a comma. -/
def items : (fuel : Nat) → (acc : List Json) → List Char → Option (Json × List Char)
  | 0, _, _ => none
  | fuel + 1, acc, s => do
      let (v, rest) ← value fuel s
      match skip rest with
      | ',' :: tail => items fuel (v :: acc) tail
      | ']' :: tail => some (.arr (v :: acc).reverse, tail)
      | _ => none

/-- The members of an object after its brace or a comma. -/
def members : (fuel : Nat) → (acc : Members) → List Char → Option (Json × List Char)
  | 0, _, _ => none
  | fuel + 1, acc, s =>
      match skip s with
      | '\x22' :: rest => do
          let (key, rest) ← text (rest.length + 1) [] rest
          match skip rest with
          | ':' :: rest =>
              let (v, rest) ← value fuel rest
              let acc := Members.insert key v acc
              match skip rest with
              | ',' :: tail => members fuel acc tail
              | '\x7d' :: tail => some (.obj acc, tail)
              | _ => none
          | _ => none
      | _ => none

end

end Mdx.Json.Reader

namespace Mdx.Json

/-- The value of a JSON text. -/
def parse? (s : String) : Option Json :=
  match Reader.value (2 * s.length + 2) s.toList with
  | some (v, rest) => if (Reader.skip rest).isEmpty then some v else none
  | none => none

end Mdx.Json
