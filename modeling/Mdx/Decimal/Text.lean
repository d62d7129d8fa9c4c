import Mdx.Decimal.Shortest

/-!
# The text of floating-point numbers

A float is written with the fewest digits that are read back as it: positionally, with at least one
digit after the point, while the leading digit's exponent is from `-4` up to `15`, and otherwise
with an exponent of a sign and at least two digits.
-/

namespace Mdx.Decimal

/-- How numbers are written: the exponents of the leading digit that are written positionally, and
the texts of the numbers that have no digits. -/
structure Style where
  leastExponent : Int
  greatestExponent : Int
  notANumber : String
  infinity : String

/-- The digits of a decimal without zeros at the end, and the leading digit's exponent. -/
def Scientific.parts (s : Scientific) : List Char × Int :=
  let digits := Nat.toDigits 10 s.digits
  ((digits.reverse.dropWhile (· == '0')).reverse, (digits.length : Int) - 1 + s.exponent)

/-- The digits with a point after the digit of exponent 0. -/
def positional (digits : List Char) (lead : Int) : List Char :=
  if lead < 0 then
    '0' :: '.' :: (List.replicate ((-lead).toNat - 1) '0' ++ digits)
  else
    let whole := lead.toNat + 1
    let fraction := digits.drop whole
    digits.take whole ++ List.replicate (whole - digits.length) '0' ++ '.' ::
      (if fraction.isEmpty then ['0'] else fraction)

/-- The digits with a point after the first one, and the exponent. -/
def exponential (digits : List Char) (lead : Int) : List Char :=
  let power := Nat.toDigits 10 lead.natAbs
  let tail := digits.drop 1
  digits.take 1 ++ (if tail.isEmpty then [] else '.' :: tail) ++
    ['e', if lead < 0 then '-' else '+'] ++ List.replicate (2 - power.length) '0' ++ power

/-- The text of a float. -/
def floatText (style : Style) (x : Float) : String :=
  if x.isNaN then style.notANumber
  else
    let sign := if x.toBits.toNat < 1 <<< 63 then "" else "-"
    if x.isInf then sign ++ style.infinity
    else if x == 0.0 then sign ++ "0.0"
    else
      let (digits, lead) := (shortest (Binary.ofFloat x)).parts
      let body :=
        if style.leastExponent ≤ lead && lead ≤ style.greatestExponent then
          positional digits lead
        else exponential digits lead
      sign ++ String.ofList body

end Mdx.Decimal
