import Mdx.Markdown.EntityTable
import Mdx.Text.Punctuation

/-!
# Escapes and character references

A backslash takes the meaning from an ASCII punctuation character. A character reference gives a
character by its number, decimal or hexadecimal, or by its name.
-/

namespace Mdx.Markdown

/-- The number that hexadecimal digits spell. -/
def hexNumber (digits : List Char) : Nat :=
  digits.foldl (fun n c => n * 16 + (Text.hexValue? c).getD 0) 0

/-- The number that decimal digits spell. -/
def decimalNumber (digits : List Char) : Nat :=
  digits.foldl (fun n c => n * 10 + (c.toNat - '0'.toNat)) 0

/-- Whether a number is that of a character that a reference may stand for. -/
def isReferable (n : Nat) : Bool :=
  !((0xd800 ≤ n && n ≤ 0xdfff) || (0xfdd0 ≤ n && n ≤ 0xfdef) || n % 0x10000 == 0xffff ||
    n % 0x10000 == 0xfffe || n ≤ 0x08 || n == 0x0b || (0x0e ≤ n && n ≤ 0x1f) ||
    (0x7f ≤ n && n ≤ 0x9f) || 0x10ffff < n)

/-- The words of a text, divided by a character. -/
def splitAt (divider : Char) (before : List Char) : List Char → List (List Char)
  | [] => [before.reverse]
  | c :: rest =>
      if c == divider then before.reverse :: splitAt divider [] rest
      else splitAt divider (c :: before) rest

/-- The characters of a table item with this name. -/
def itemFor? (name item : List Char) : Option (List Char) :=
  if (name ++ ['=']).isPrefixOf item then
    let codes := splitAt '+' [] (item.drop (name.length + 1))
    some (codes.map fun code => Char.ofNat (hexNumber code))
  else none

/-- The characters that a name stands for. -/
def namedEntity? (name : List Char) : Option (List Char) :=
  entityTable.findSome? fun line => (splitAt ' ' [] line.toList).findSome? (itemFor? name)

/-- A letter or digit of the name of a character reference. -/
def isEntityChar (c : Char) : Bool :=
  c.isAlphanum

/-- The name between an ampersand and a semicolon, which has one to 31 characters after its first
one, and the text after the semicolon. -/
def entityName? (isFirst : Char → Bool) (s : List Char) : Option (List Char × List Char) :=
  match s with
  | first :: tail =>
      let name := tail.takeWhile isEntityChar
      match tail.drop name.length with
      | ';' :: rest =>
          if isFirst first && 1 ≤ name.length && name.length ≤ 31 then some (first :: name, rest)
          else none
      | _ => none
  | [] => none

/-- The number in a reference, without its number sign, of at most so many hexadecimal or decimal
digits. -/
def referenceNumber? (mostHex mostDecimal : Nat) (s : List Char) : Option Nat :=
  match s with
  | c :: digits =>
      if c == 'x' || c == 'X' then
        if 1 ≤ digits.length && digits.length ≤ mostHex && digits.all (Text.hexValue? · |>.isSome) then
          some (hexNumber digits)
        else none
      else if s.length ≤ mostDecimal && s.all Char.isDigit then some (decimalNumber s)
      else none
  | [] => none

/-- The characters that a reference in a destination or a title stands for; its name may start with a
number sign. -/
def entityValue? (name : List Char) : Option (List Char) :=
  match name with
  | '#' :: number =>
      match referenceNumber? 8 8 number with
      | some n => if isReferable n then some [Char.ofNat n] else none
      | none => none
  | _ => namedEntity? name

/-- The text with escapes and character references resolved; `skip` characters at its start have been
used up. -/
def unescapeFrom : (skip : Nat) → List Char → List Char
  | _, [] => []
  | skip + 1, _ :: rest => unescapeFrom skip rest
  | 0, c :: rest =>
      if c == '\\' then
        match rest with
        | d :: _ => if Text.isBasicPunctuation d then d :: unescapeFrom 1 rest else c :: unescapeFrom 0 rest
        | [] => [c]
      else if c == '&' then
        match entityName? (fun d => d.isAlpha || d == '#') rest with
        | some (name, _) =>
            match entityValue? name with
            | some value => value ++ unescapeFrom (name.length + 1) rest
            | none => c :: unescapeFrom 0 rest
        | none => c :: unescapeFrom 0 rest
      else c :: unescapeFrom 0 rest

/-- The text with escapes and character references resolved. -/
def unescape (s : List Char) : List Char :=
  unescapeFrom 0 s

/-- The reference after an ampersand in running text: the characters that it stands for, and how many
characters it takes after the ampersand. -/
def entityHere? (s : List Char) : Option (List Char × Nat) :=
  match s with
  | '#' :: number =>
      let digits := number.takeWhile isEntityChar
      match number.drop digits.length with
      | ';' :: _ =>
          match referenceNumber? 6 7 digits with
          | some n =>
              some ([if isReferable n then Char.ofNat n else Char.ofNat 0xfffd], digits.length + 2)
          | none => none
      | _ => none
  | _ =>
      match entityName? Char.isAlpha s with
      | some (name, _) =>
          match namedEntity? name with
          | some value => some (value, name.length + 1)
          | none => none
      | none => none

end Mdx.Markdown
