import Mdx.Json.Display
import Mdx.Text.Basic

/-!
# Whole numbers from values

Line numbers, offsets, heading depths and list starts may be written as any value that has a whole
number in it: a whole number itself, a truth value, a float, whose fraction is dropped, or a text
with an optional sign and at most 4300 decimal digits of any script, single low lines between digits
and space characters around.
-/

namespace Mdx.Json

/-- Why a value has no whole number in it. -/
inductive IntegerFault where
  /-- The text is not a whole number. -/
  | badText (text : String)
  /-- The text has too many digits. -/
  | tooManyDigits (count : Nat)
  /-- The float is not a number. -/
  | notANumber
  /-- The float is infinite. -/
  | infinite
  /-- Values of this kind hold no number. -/
  | badKind (kind : String)
deriving Repr, DecidableEq

/-- The most digits that a text may have. -/
def maxDigits : Nat := 4300

/-- The values of the decimal digits at the start of a text, with single low lines between them, and
the text after them. -/
def digitRun? : (afterDigit : Bool) → List Char → Option (List Nat × List Char)
  | afterDigit, [] => if afterDigit then some ([], []) else none
  | afterDigit, c :: rest =>
      match Text.digitValue? c with
      | some d => (digitRun? true rest).map fun (ds, after) => (d :: ds, after)
      | none =>
          if !afterDigit then none
          else if c == '_' then digitRun? false rest
          else some ([], c :: rest)

/-- The number with the given digits, the first digit counting most. -/
def ofDigits (digits : List Nat) : Nat :=
  digits.foldl (fun n d => n * 10 + d) 0

/-- Whether a number text is negative, and the text after its sign. -/
def splitSign : List Char → Bool × List Char
  | '-' :: rest => (true, rest)
  | '+' :: rest => (false, rest)
  | s => (false, s)

/-- The whole number that a text spells. -/
def integerText (s : List Char) : Except IntegerFault Int :=
  let (negative, unsigned) := splitSign (Text.trimSpace s)
  match digitRun? false unsigned with
  | some (digits, after) =>
      if maxDigits < digits.length then .error (.tooManyDigits digits.length)
      else if !after.isEmpty then .error (.badText (String.ofList s))
      else .ok (if negative then -(ofDigits digits : Int) else ofDigits digits)
  | none => .error (.badText (String.ofList s))

/-- A finite float without its fraction. -/
def truncate (x : Float) : Int :=
  let b := Decimal.Binary.ofFloat x
  let size := if b.exponent < 0 then b.significand >>> b.exponent.natAbs
    else b.significand <<< b.exponent.natAbs
  if x < 0.0 then -(size : Int) else size

/-- The whole number in a value. -/
def toInteger : Json → Except IntegerFault Int
  | .int n => .ok n
  | .bool b => .ok (if b then 1 else 0)
  | .float x =>
      if x.isNaN then .error .notANumber
      else if x.isInf then .error .infinite
      else .ok (truncate x)
  | .str s => integerText s.toList
  | other => .error (.badKind other.kindName)

end Mdx.Json
