/-!
# Internationalized host names

A label of a host name that is not plain ASCII is written in ASCII: its ASCII characters come first,
then, after a hyphen, the places and numbers of the others, as a row of numbers in base 36 with
digits whose ranges adapt to the numbers before.
-/

namespace Mdx.Markdown.Punycode

/-- The base of the digits. -/
def base : Nat := 36

/-- The digit for a value below the base. -/
def digitChar (d : Nat) : Char :=
  if d < 26 then Char.ofNat ('a'.toNat + d) else Char.ofNat ('0'.toNat + (d - 26))

/-- The value of a digit. -/
def digitValue? (c : Char) : Option Nat :=
  if 'a' ≤ c ∧ c ≤ 'z' then some (c.toNat - 'a'.toNat)
  else if 'A' ≤ c ∧ c ≤ 'Z' then some (c.toNat - 'A'.toNat)
  else if c.isDigit then some (c.toNat - '0'.toNat + 26)
  else none

/-- The threshold of the digit at a place, from one to 26. -/
def threshold (place bias : Nat) : Nat :=
  if place ≤ bias then 1 else if bias + 26 ≤ place then 26 else place - bias

theorem threshold_pos (place bias : Nat) : 0 < threshold place bias := by
  unfold threshold
  split
  · omega
  · split <;> omega

/-- Divides a number by 35 until it is small, and counts places. -/
def shrink (delta place : Nat) : Nat × Nat :=
  if 455 < delta then shrink (delta / 35) (place + base) else (delta, place)
termination_by delta

/-- The bias after a number has been written. -/
def adapt (delta points : Nat) (first : Bool) : Nat :=
  let delta := if first then delta / 700 else delta / 2
  match shrink (delta + delta / points) 0 with
  | (delta, place) => place + base * delta / (delta + 38)

/-- A number as digits, from a place on. -/
def writeNumber (bias place n : Nat) : List Char :=
  let t := threshold place bias
  if n < t then [digitChar n]
  else digitChar (t + (n - t) % (base - t)) :: writeNumber bias (place + base) ((n - t) / (base - t))
termination_by n
decreasing_by
  have ht := threshold_pos place bias
  have hle : (n - threshold place bias) / (base - threshold place bias) ≤ n - threshold place bias :=
    Nat.div_le_self _ _
  omega

/-- The state of writing: the digits so far, the distance from the last written place, the bias, and
how many characters have been dealt with. -/
structure Writing where
  out : List Char
  delta : Nat
  bias : Nat
  count : Nat

/-- Goes past one character while those with the number `point` are written. -/
def writeChar (plain point : Nat) (w : Writing) (c : Char) : Writing :=
  if c.toNat < point then { w with delta := w.delta + 1 }
  else if c.toNat = point then
    { out := w.out ++ writeNumber w.bias base w.delta
      delta := 0
      bias := adapt w.delta (w.count + 1) (w.count = plain)
      count := w.count + 1 }
  else w

/-- Writes the characters whose numbers are in the list, `low` being the least number left. -/
def writePoints (text : List Char) (plain : Nat) : (low : Nat) → List Nat → Writing → Writing
  | _, [], w => w
  | low, point :: rest, w =>
      let w := { w with delta := w.delta + (point - low) * (w.count + 1) }
      let w := text.foldl (writeChar plain point) w
      writePoints text plain (point + 1) rest { w with delta := w.delta + 1 }

/-- A number put into a list in increasing order, once. -/
def insertPoint (n : Nat) : List Nat → List Nat
  | [] => [n]
  | m :: rest => if n < m then n :: m :: rest else if n = m then m :: rest else m :: insertPoint n rest

/-- A label in ASCII. -/
def encode (text : List Char) : List Char :=
  let plain := text.filter (·.toNat < 128)
  let points := (text.filter (128 ≤ ·.toNat)).foldl (fun ps c => insertPoint c.toNat ps) []
  let w := writePoints text plain.length 128 points ⟨[], 0, 72, plain.length⟩
  if plain.isEmpty then w.out else plain ++ '-' :: w.out

/-- The number that digits from a place on spell, with the rest of the digits. -/
def readNumber (bias : Nat) : (place weight n : Nat) → List Char → Option (Nat × List Char)
  | _, _, _, [] => none
  | place, weight, n, c :: rest =>
      match digitValue? c with
      | none => none
      | some d =>
          let t := threshold place bias
          let n := n + d * weight
          if d < t then some (n, rest) else readNumber bias (place + base) (weight * (base - t)) n rest

/-- The characters of a label, from those that have been read and the digits for the others. -/
def readPoints : (room : Nat) → (out : List Char) → (point place bias : Nat) → (first : Bool) →
    List Char → Option (List Char)
  | _, out, _, _, _, _, [] => some out
  | 0, _, _, _, _, _, _ :: _ => none
  | room + 1, out, point, place, bias, first, digits =>
      match readNumber bias base 1 0 digits with
      | none => none
      | some (n, rest) =>
          let size := out.length + 1
          let total := place + n
          let point := point + total / size
          let place := total % size
          if 0x10ffff < point || (0xd800 ≤ point && point ≤ 0xdfff) then none
          else
            readPoints room (out.take place ++ Char.ofNat point :: out.drop place) point (place + 1)
              (adapt n size first) false rest

/-- The label that an ASCII form stands for. -/
def decode? (text : List Char) : Option (List Char) :=
  let tail := (text.reverse.takeWhile (· != '-')).reverse
  let plain := (text.take (text.length - tail.length)).dropLast
  if text.any (128 ≤ ·.toNat) then none
  else readPoints (tail.length + 1) plain 128 0 72 true tail

end Mdx.Markdown.Punycode
