/-!
# Shortest decimals

Among the decimals that are read as a given binary fraction, `shortest` takes one with the fewest
digits, and among those the nearest. A positive number is `m · 2^q`; the decimals that are read as
it fill the interval between the middles towards its two neighbours, with both ends if `m` is even.

The numbers are kept as a fraction of natural numbers, so every comparison is exact.
-/

namespace Mdx.Decimal

/-- The number `significand · 2^exponent`, with the number's lower neighbour at half the distance
of the upper one if `atPower` holds. -/
structure Binary where
  significand : Nat
  exponent : Int
  atPower : Bool

/-- The decimal number `digits · 10^exponent`. -/
structure Scientific where
  digits : Nat
  exponent : Int
deriving DecidableEq, Repr

/-- The parts of a finite 64-bit float without its sign. -/
def Binary.ofFloat (x : Float) : Binary :=
  let bits := x.toBits.toNat
  let fraction : Nat := bits % (1 <<< 52)
  let power : Nat := (bits >>> 52) % (1 <<< 11)
  if power == 0 then ⟨fraction, -1074, false⟩
  else ⟨fraction + (1 <<< 52), (power : Int) - 1075, fraction == 0 && power > 1⟩

/-- A fraction of natural numbers. -/
structure Fraction where
  num : Nat
  den : Nat

/-- The number `n · 2^e` as a fraction. -/
def Fraction.scaled (n : Nat) (e : Int) : Fraction :=
  if e < 0 then ⟨n, 1 <<< (-e).toNat⟩ else ⟨n <<< e.toNat, 1⟩

/-- The fraction divided by `10^e`. -/
def Fraction.shift (f : Fraction) (e : Int) : Fraction :=
  if e < 0 then ⟨f.num * Nat.pow 10 (-e).toNat, f.den⟩ else ⟨f.num, f.den * Nat.pow 10 e.toNat⟩

/-- Whether the whole number `n` is below the fraction. -/
def Fraction.above (f : Fraction) (n : Nat) : Bool :=
  n * f.den < f.num

/-- Whether the whole number `n` is above the fraction. -/
def Fraction.below (f : Fraction) (n : Nat) : Bool :=
  f.num < n * f.den

/-- The least `j` with `num · 10^j ≥ den`, looked for from `j` on. -/
def leadingZeros : (fuel j num den : Nat) → Nat
  | 0, j, _, _ => j
  | fuel + 1, j, num, den => if den ≤ num then j else leadingZeros fuel (j + 1) (num * 10) den

/-- The exponent of the leading decimal digit of a positive fraction. -/
def leadingExponent (f : Fraction) : Int :=
  if f.den ≤ f.num then ((Nat.toDigits 10 (f.num / f.den)).length : Int) - 1
  else -(leadingZeros 400 0 f.num f.den : Int)

/-- The interval of numbers that are read as one binary number. -/
structure Interval where
  lo : Fraction
  hi : Fraction
  closed : Bool

/-- The numbers that are read as `b`. -/
def Binary.interval (b : Binary) : Interval where
  lo := .scaled (4 * b.significand - (if b.atPower then 1 else 2)) (b.exponent - 2)
  hi := .scaled (4 * b.significand + 2) (b.exponent - 2)
  closed := b.significand % 2 == 0

/-- Whether `n · 10^e` is in the interval. -/
def Interval.holds (i : Interval) (n : Nat) (e : Int) : Bool :=
  let lo := i.lo.shift e
  let hi := i.hi.shift e
  (lo.below n || (i.closed && !lo.above n)) && (hi.above n || (i.closed && !hi.below n))

/-- A decimal with `count` digits that is read as the number, the nearer one of two. -/
def withDigits? (value : Fraction) (i : Interval) (lead : Int) (count : Nat) :
    Option Scientific :=
  let e := lead - (count : Int) + 1
  let f := value.shift e
  let n := f.num / f.den
  let twice := 2 * (f.num % f.den)
  let upFirst := f.den < twice || (twice == f.den && n % 2 == 1)
  let near := if upFirst then n + 1 else n
  let far := if upFirst then n else n + 1
  if i.holds near e then some ⟨near, e⟩ else if i.holds far e then some ⟨far, e⟩ else none

/-- The shortest decimal that is read as a positive binary number. -/
def shortest (b : Binary) : Scientific :=
  let value := Fraction.scaled b.significand b.exponent
  let lead := leadingExponent value
  (((List.range 17).map (· + 1)).findSome? (withDigits? value b.interval lead)).getD
    ⟨b.significand, b.exponent⟩

end Mdx.Decimal
