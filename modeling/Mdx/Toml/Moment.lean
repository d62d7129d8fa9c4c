import Mdx.Toml.Text

/-!
# Dates and times of TOML

A date is a year, a month and a day of it, a time an hour, a minute and a second with an optional
fraction, and a date may be followed by a time, which may say how far the local clock is ahead.
-/

namespace Mdx.Toml

/-- A number of two digits in a range. -/
def twoDigits? (least most : Nat) : List Char → Option (Nat × List Char)
  | a :: b :: rest =>
      let n := (a.toNat - '0'.toNat) * 10 + (b.toNat - '0'.toNat)
      if a.isDigit && b.isDigit && least ≤ n && n ≤ most then some (n, rest) else none
  | _ => none

/-- The text after a mark. -/
def afterMark? (isMark : Char → Bool) : List Char → Option (List Char)
  | c :: rest => if isMark c then some rest else none
  | [] => none

/-- Whether a year has a day more. -/
def isLeapYear (year : Nat) : Bool :=
  year % 4 = 0 && (year % 100 != 0 || year % 400 = 0)

/-- The number of days in a month. -/
def daysInMonth (year month : Nat) : Nat :=
  if month = 2 then if isLeapYear year then 29 else 28
  else if [4, 6, 9, 11].contains month then 30
  else 31

/-- The text after a date. -/
def afterDate? (s : List Char) : Option (List Char) := do
  let (century, s) ← twoDigits? 0 99 s
  let (year, s) ← twoDigits? 0 99 s
  let s ← afterMark? (· == '-') s
  let (month, s) ← twoDigits? 1 12 s
  let s ← afterMark? (· == '-') s
  let year := century * 100 + year
  let (_, s) ← twoDigits? 1 (daysInMonth year month) s
  if year = 0 then none else return s

/-- The text after the fraction of a second, which may be missing. -/
def afterFraction : List Char → List Char
  | '.' :: c :: rest => if c.isDigit then rest.dropWhile Char.isDigit else '.' :: c :: rest
  | s => s

/-- The text after a time. -/
def afterTime? (s : List Char) : Option (List Char) := do
  let (_, s) ← twoDigits? 0 23 s
  let s ← afterMark? (· == ':') s
  let (_, s) ← twoDigits? 0 59 s
  let s ← afterMark? (· == ':') s
  let (_, s) ← twoDigits? 0 59 s
  return afterFraction s

/-- The text after the sign, hours and minutes by which a clock is ahead. -/
def afterShift? (s : List Char) : Option (List Char) := do
  let s ← afterMark? (fun c => c == '+' || c == '-') s
  let (_, s) ← twoDigits? 0 23 s
  let s ← afterMark? (· == ':') s
  let (_, s) ← twoDigits? 0 59 s
  return s

/-- The text after a zone, which may be missing. -/
def afterZone (s : List Char) : List Char :=
  match afterMark? (fun c => c == 'Z' || c == 'z') s with
  | some rest => rest
  | none => (afterShift? s).getD s

/-- The text after the time that may follow a date. -/
def afterTimeOfDay (s : List Char) : List Char :=
  let rest? := do afterTime? (← afterMark? (fun c => c == 'T' || c == 't' || c == ' ') s)
  (rest?.map afterZone).getD s

/-- A date, a time, or a date with a time, as it is written. -/
structure Moment where
  hasDate : Bool
  hasTime : Bool
  written : String

/-- The name that messages give to the kind of a moment. -/
def Moment.kindName (m : Moment) : String :=
  if !m.hasTime then "datetime.date" else if m.hasDate then "datetime.datetime" else "datetime.time"

/-- The text before one of its rests. -/
def writtenBefore (s rest : List Char) : String :=
  .ofList (s.take (s.length - rest.length))

/-- The date or time at the start of a text. -/
def moment? (s : List Char) : Option (Moment × List Char) :=
  match afterDate? s with
  | some rest =>
      let after := afterTimeOfDay rest
      some (⟨true, after.length != rest.length, writtenBefore s after⟩, after)
  | none => (afterTime? s).map fun after => (⟨false, true, writtenBefore s after⟩, after)

end Mdx.Toml
