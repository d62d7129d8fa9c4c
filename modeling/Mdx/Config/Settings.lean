
import Mdx.Fault.Failure
import Mdx.Json.Integer

/-!
# Fields and settings

A field of a configuration holds a value of its type, or a value of some other form that was laid over
it unchecked. What such a value is good for is decided where the field is read.

A transform states which settings it reads and of which type they are. `Schema.read` takes these out
of the settings of all transforms, fills in defaults, and refuses values of another type. A whole
number may also be given as a truth value, a float without a fraction that fits into 64 bits, or a
text of digits that is not too long.
-/

namespace Mdx.Config

/-! ### Fields -/

/-- A field of a configuration. -/
inductive Field (α : Type) where
  /-- A value of the field's type. -/
  | sound (value : α)
  /-- A value of another form. -/
  | raw (value : Json)
deriving Inhabited

namespace Field

/-- The members of a field that should hold an object; `need` is what is asked of it. -/
def members (need : String) : Field Json.Members → Except Failure Json.Members
  | .sound ms => .ok ms
  | .raw v => .error (.lacking ("'" ++ v.kindName ++ "' object has no attribute '" ++ need ++ "'"))

/-- A field that should hold a truth value; an empty value counts as false. -/
def truth : Field Bool → Bool
  | .sound b => b
  | .raw v => !v.isEmpty

end Field

/-! ### Settings -/

/-- The type of a setting. -/
inductive SettingType where
  | text
  | texts
  | integer
deriving DecidableEq, Repr

/-- A setting that a transform reads; without a default it has to be given. -/
structure Setting where
  name : String
  type : SettingType
  default? : Option Json

/-- The settings that a transform reads. -/
abbrev Schema := List Setting

/-- A list of texts. -/
def textList? : List Json → Option (List String)
  | [] => some []
  | .str s :: rest => (textList? rest).map (s :: ·)
  | _ :: _ => none

/-- A text of digits without the zeros of a fraction. -/
def withoutZeroFraction (s : List Char) : List Char :=
  match s.dropWhile (· != '.') with
  | '.' :: zeros =>
      if !zeros.isEmpty && zeros.all (· == '0') then s.takeWhile (· != '.') else s
  | _ => s

/-- A whole number in one of the forms that a setting may have. -/
def wholeNumber? : Json → Option Int
  | .int n => some n
  | .bool b => some (if b then 1 else 0)
  | .float x =>
      match (Json.float x).toInteger with
      | .ok n => if Float.floor x == x && n.natAbs < 1 <<< 63 then some n else none
      | .error _ => none
  | .str s =>
      let digits := withoutZeroFraction (Text.trimSpace s.toList)
      if s.utf8ByteSize ≤ Json.maxDigits && digits.all (·.toNat < 128) then
        (Json.integerText digits).toOption
      else none
  | _ => none

/-- A value in the form that a type asks for. -/
def SettingType.read? : SettingType → Json → Option Json
  | .text, .str s => some (.str s)
  | .texts, .arr items => (textList? items).map fun texts => .arr (texts.map .str)
  | .integer, v => (wholeNumber? v).map .int
  | _, _ => none

/-- The failure of settings that do not fit. -/
def settingsFailure : Failure :=
  .badValue "Plugin configuration validation failed"

/-- The value of one setting. -/
def Setting.read (s : Setting) (settings : Json.Members) : Except Failure Json :=
  match (settings.lookup s.name).elim s.default? s.type.read? with
  | some v => .ok v
  | none => .error settingsFailure

/-- The settings of a schema among all settings. -/
def Schema.read (schema : Schema) (settings : Json.Members) : Except Failure Json.Members :=
  match schema with
  | [] => .ok []
  | s :: rest => do
      let value ← s.read settings
      let others ← Schema.read rest settings
      return (s.name, value) :: others

end Mdx.Config
