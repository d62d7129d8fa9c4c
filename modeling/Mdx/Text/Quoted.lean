import Mdx.Text.Printable

/-!
# Quoted text in messages

A message shows a text between quotes: single ones, or double ones if the text has a single quote
and no double one. The quote, the backslash, the line break, the carriage return and the tab are
written with a backslash; every other character that is not printable is written by its code point
in two, four or eight hexadecimal digits.
-/

namespace Mdx.Text

/-- The hexadecimal digits of `n`, padded with zeros to the given width. -/
def hexDigits (width n : Nat) : List Char :=
  let digits := Nat.toDigits 16 n
  List.replicate (width - digits.length) '0' ++ digits

/-- The escape for a code point that is not printable. -/
def codePointEscape (n : Nat) : List Char :=
  if n < 0x100 then '\\' :: 'x' :: hexDigits 2 n
  else if n < 0x10000 then '\\' :: 'u' :: hexDigits 4 n
  else '\\' :: 'U' :: hexDigits 8 n

/-- One character of a quoted text. -/
def quotedChar (quote : Char) (c : Char) : List Char :=
  if c == quote || c == '\\' then ['\\', c]
  else if c == '\n' then ['\\', 'n']
  else if c == '\r' then ['\\', 'r']
  else if c == '\t' then ['\\', 't']
  else if isPrintable c then [c]
  else codePointEscape c.toNat

/-- The quote that goes around a text. -/
def quoteFor (s : List Char) : Char :=
  if s.contains '\x27' && !s.contains '\x22' then '\x22' else '\x27'

/-- A text between quotes, as messages show it. -/
def quoted (s : List Char) : List Char :=
  let quote := quoteFor s
  quote :: (s.flatMap (quotedChar quote) ++ [quote])

/-- A string between quotes, as messages show it. -/
def quotedString (s : String) : String :=
  String.ofList (quoted s.toList)

end Mdx.Text
