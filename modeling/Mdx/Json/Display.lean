import Mdx.Decimal.Text
import Mdx.Json.Basic
import Mdx.Text.Quoted

/-!
# Values in messages

The form in which a message shows a value: texts between quotes, the three constants as `None`,
`True` and `False`, lists in square brackets and objects in braces. The kind of a value has a short
name of its own.
-/

namespace Mdx.Json

/-- Floats are written positionally from `0.0001` up to below `10^16`. -/
def displayStyle : Decimal.Style where
  leastExponent := -4
  greatestExponent := 15
  notANumber := "nan"
  infinity := "inf"

mutual

/-- A value as messages show it. -/
def display : Json → String
  | .null => "None"
  | .bool true => "True"
  | .bool false => "False"
  | .int n => toString n
  | .float x => Decimal.floatText displayStyle x
  | .str s => Text.quotedString s
  | .arr items => "[" ++ displayItems items ++ "]"
  | .obj members => "\x7b" ++ displayMembers members ++ "\x7d"

/-- List items, divided by commas. -/
def displayItems : List Json → String
  | [] => ""
  | [item] => display item
  | item :: rest => display item ++ ", " ++ displayItems rest

/-- Object members, divided by commas. -/
def displayMembers : List (String × Json) → String
  | [] => ""
  | [(key, value)] => Text.quotedString key ++ ": " ++ display value
  | (key, value) :: rest =>
      Text.quotedString key ++ ": " ++ display value ++ ", " ++ displayMembers rest

end

/-- A value in running text: a text stands without quotes. -/
def plain : Json → String
  | .str s => s
  | other => display other

/-- The name that messages give to the kind of a value. -/
def kindName : Json → String
  | .null => "NoneType"
  | .bool _ => "bool"
  | .int _ => "int"
  | .float _ => "float"
  | .str _ => "str"
  | .arr _ => "list"
  | .obj _ => "dict"

end Mdx.Json
