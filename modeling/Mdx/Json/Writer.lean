import Mdx.Decimal.Text
import Mdx.Json.Basic
import Mdx.Text.Quoted

/-!
# Writing JSON

A value as JSON text: a blank follows each comma and colon, and in a text only the double quote,
the backslash and the control characters below U+0020 are escaped.
-/

namespace Mdx.Json

/-- Floats are written positionally from `0.0001` up to below `10^16`. -/
def writeStyle : Decimal.Style where
  leastExponent := -4
  greatestExponent := 15
  notANumber := "NaN"
  infinity := "Infinity"

/-- One character of a JSON text. -/
def escapedChar (c : Char) : List Char :=
  if c == '\x22' || c == '\\' then ['\\', c]
  else if c == '\n' then ['\\', 'n']
  else if c == '\r' then ['\\', 'r']
  else if c == '\t' then ['\\', 't']
  else if c.toNat == 0x08 then ['\\', 'b']
  else if c.toNat == 0x0c then ['\\', 'f']
  else if c.toNat < 0x20 then '\\' :: 'u' :: Text.hexDigits 4 c.toNat
  else [c]

/-- A text between double quotes. -/
def writeString (s : String) : String :=
  String.ofList ('\x22' :: (s.toList.flatMap escapedChar ++ ['\x22']))

mutual

/-- A value as JSON text. -/
def write : Json → String
  | .null => "null"
  | .bool true => "true"
  | .bool false => "false"
  | .int n => toString n
  | .float x => Decimal.floatText writeStyle x
  | .str s => writeString s
  | .arr items => "[" ++ writeItems items ++ "]"
  | .obj members => "\x7b" ++ writeMembers members ++ "\x7d"

/-- Array items, divided by commas. -/
def writeItems : List Json → String
  | [] => ""
  | [item] => write item
  | item :: rest => write item ++ ", " ++ writeItems rest

/-- Object members, divided by commas. -/
def writeMembers : List (String × Json) → String
  | [] => ""
  | [(key, value)] => writeString key ++ ": " ++ write value
  | (key, value) :: rest => writeString key ++ ": " ++ write value ++ ", " ++ writeMembers rest

end

end Mdx.Json
