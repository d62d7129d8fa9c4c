import Mdx.Json.Display
import Mdx.Toml.Moment

/-!
# Values of TOML

A value is a text, a number, a date or time, a truth value, a list, or a table on one line. Lists may
run over several lines and hold comments. Dates and times have no JSON form, so a value that holds one
has none.
-/

namespace Mdx.Toml

/-- A value. -/
inductive Value where
  /-- A text, a number or a truth value. -/
  | simple (value : Json)
  | moment (value : Moment)
  | list (items : List Value)
  | table (members : List (String × Value))
deriving Inhabited

/-- The members of a table, in order. -/
abbrev Table := List (String × Value)

namespace Value

mutual

/-- A value as a JSON value, if it holds no date or time. -/
def toJson? : Value → Option Json
  | .simple v => some v
  | .moment _ => none
  | .list items => (itemsToJson? items).map .arr
  | .table members => (membersToJson? members).map .obj

/-- The items of a list as JSON values. -/
def itemsToJson? : List Value → Option (List Json)
  | [] => some []
  | v :: rest => do return (← toJson? v) :: (← itemsToJson? rest)

/-- The members of a table as those of a JSON object. -/
def membersToJson? : List (String × Value) → Option Json.Members
  | [] => some []
  | (key, v) :: rest => do return (key, ← toJson? v) :: (← membersToJson? rest)

end

/-- The name that messages give to the kind of a value. -/
def kindName : Value → String
  | .simple v => v.kindName
  | .moment m => m.kindName
  | .list _ => "list"
  | .table _ => "dict"

/-- Whether a value is a table or a list. -/
def isCompound : Value → Bool
  | .list _ => true
  | .table _ => true
  | _ => false

end Value

/-- The table with another value of a member. -/
def Table.replace (key : String) (v : Value) (table : Table) : Table :=
  table.map fun m => if m.1 = key then (key, v) else m

/-! ### Numbers -/

/-- Digits of a number, single underscores between them being left out. -/
def digits (isDigit : Char → Bool) : List Char → List Char × List Char
  | [] => ([], [])
  | c :: '_' :: d :: tail =>
      if isDigit c && isDigit d then
        let (more, after) := digits isDigit (d :: tail)
        (c :: more, after)
      else if isDigit c then ([c], '_' :: d :: tail)
      else ([], c :: '_' :: d :: tail)
  | c :: rest =>
      if isDigit c then
        let (more, after) := digits isDigit rest
        (c :: more, after)
      else ([], c :: rest)

/-- The value of digits to a base. -/
def digitsValue (base : Nat) (ds : List Char) : Nat :=
  ds.foldl (fun n c => n * base + (Text.hexValue? c).getD 0) 0

/-- A whole number to a base other than ten, after its mark. -/
def based? (base : Nat) (s : List Char) : Option (Json × List Char) :=
  let (ds, rest) := digits (fun c => (Text.hexValue? c).any (· < base)) s
  if ds.isEmpty then none else some (.int (digitsValue base ds), rest)

/-- The whole part of a decimal number: a zero, or digits that do not start with one. -/
def wholePart : List Char → List Char × List Char
  | '0' :: rest => (['0'], rest)
  | s => digits Char.isDigit s

/-- The fraction of a decimal number, empty if there is none. -/
def fractionPart : List Char → List Char × List Char
  | '.' :: rest =>
      match digits Char.isDigit rest with
      | ([], _) => ([], '.' :: rest)
      | found => found
  | s => ([], s)

/-- The exponent of a decimal number. -/
def exponentPart (s : List Char) : Option (Int × List Char) :=
  match s with
  | c :: rest =>
      if c == 'e' || c == 'E' then
        let (negative, tail) := match rest with
          | '-' :: tail => (true, tail)
          | '+' :: tail => (false, tail)
          | tail => (false, tail)
        match digits Char.isDigit tail with
        | ([], _) => none
        | (ds, after) =>
            let n : Int := digitsValue 10 ds
            some (if negative then -n else n, after)
      else none
  | [] => none

/-- A decimal number after its sign. -/
def decimal? (negative : Bool) (s : List Char) : Option (Json × List Char) :=
  let (whole, rest) := wholePart s
  if whole.isEmpty then none
  else
    let (fraction, rest) := fractionPart rest
    let (power, isFloat, rest) := match exponentPart rest with
      | some (power, after) => (power, true, after)
      | none => (0, !fraction.isEmpty, rest)
    if isFloat then
      let x := Json.Reader.toFloat (digitsValue 10 (whole ++ fraction)) (power - fraction.length)
      some (.float (if negative then -x else x), rest)
    else
      let n : Int := digitsValue 10 whole
      some (.int (if negative then -n else n), rest)

/-- A number after its sign, which may also be infinite or none at all. -/
def signed? (negative : Bool) : List Char → Option (Json × List Char)
  | 'i' :: 'n' :: 'f' :: rest =>
      let infinity : Float := 1.0 / 0.0
      some (.float (if negative then -infinity else infinity), rest)
  | 'n' :: 'a' :: 'n' :: rest => some (.float (0.0 / 0.0), rest)
  | s => decimal? negative s

/-- A number. -/
def number? : List Char → Option (Json × List Char)
  | '0' :: 'x' :: rest => based? 16 rest
  | '0' :: 'b' :: rest => based? 2 rest
  | '0' :: 'o' :: rest => based? 8 rest
  | '-' :: rest => signed? true rest
  | '+' :: rest => signed? false rest
  | s => signed? false s

/-! ### Tables -/

/-- A value that holds no others. -/
def simple? : List Char → Option (Value × List Char)
  | 't' :: 'r' :: 'u' :: 'e' :: rest => some (.simple (.bool true), rest)
  | 'f' :: 'a' :: 'l' :: 's' :: 'e' :: rest => some (.simple (.bool false), rest)
  | c :: rest =>
      if c == '\x22' || c == '\x27' then
        (text? (c :: rest)).map fun (s, after) => (.simple (.str s), after)
      else
        match moment? (c :: rest) with
        | some (m, after) => some (.moment m, after)
        | none => (number? (c :: rest)).map fun (n, after) => (.simple n, after)
  | [] => none

/-- The rest after the blanks, line feeds and comments between the items of a list. -/
def skipSpace : (fuel : Nat) → List Char → Option (List Char)
  | 0, s => some s
  | fuel + 1, s =>
      match s.dropWhile fun c => isGap c || c == '\n' with
      | '#' :: rest => do skipSpace fuel (← skipComment? ('#' :: rest))
      | rest => some rest

/-- Sets a value below a key in a table, where nothing may stand yet; `onList` says whether a list on
the way stands for the last table in it. -/
def store (onList : Bool) (v : Value) : List String → Table → Option Table
  | [], _ => none
  | [last], table => if (table.lookup last).isSome then none else some (table ++ [(last, v)])
  | part :: rest, table =>
      match table.lookup part with
      | none => do
          let inner ← store onList v rest []
          return table ++ [(part, .table inner)]
      | some (.table inner) => do
          let inner ← store onList v rest inner
          return table.replace part (.table inner)
      | some (.list items) =>
          match onList, items.getLast? with
          | true, some (.table inner) => do
              let inner ← store onList v rest inner
              return table.replace part (.list (items.dropLast ++ [.table inner]))
          | _, _ => none
      | some _ => none

/-- Whether a key leads into one of the keys that are complete. -/
def isWithin (complete : List (List String)) (key : List String) : Bool :=
  complete.any fun k => k.isPrefixOf key

mutual

/-- A value. -/
def value : (fuel : Nat) → List Char → Option (Value × List Char)
  | 0, _ => none
  | fuel + 1, '[' :: rest => do
      match ← skipSpace rest.length rest with
      | ']' :: after => return (.list [], after)
      | rest => items fuel [] rest
  | fuel + 1, '\x7b' :: rest =>
      match skipGap rest with
      | '\x7d' :: after => some (.table [], after)
      | rest => pairs fuel [] [] rest
  | _ + 1, s => simple? s

/-- The items of a list; `acc` holds those before, last first. -/
def items : (fuel : Nat) → (acc : List Value) → List Char → Option (Value × List Char)
  | 0, _, _ => none
  | fuel + 1, acc, s => do
      let (v, rest) ← value fuel s
      match ← skipSpace rest.length rest with
      | ']' :: after => return (.list (v :: acc).reverse, after)
      | ',' :: rest =>
          match ← skipSpace rest.length rest with
          | ']' :: after => return (.list (v :: acc).reverse, after)
          | rest => items fuel (v :: acc) rest
      | _ => none

/-- A key and its value. -/
def pair : (fuel : Nat) → List Char → Option (List String × Value × List Char)
  | 0, _ => none
  | fuel + 1, s => do
      let (k, rest) ← key? s
      match rest with
      | '=' :: rest =>
          let (v, rest) ← value fuel (skipGap rest)
          return (k, v, rest)
      | _ => none

/-- The pairs of a table on one line; `complete` are the keys whose values are themselves compound. -/
def pairs : (fuel : Nat) → Table → (complete : List (List String)) → List Char →
    Option (Value × List Char)
  | 0, _, _, _ => none
  | fuel + 1, table, complete, s => do
      let (k, v, rest) ← pair fuel s
      let table ← if isWithin complete k then none else store false v k table
      match skipGap rest with
      | '\x7d' :: after => return (.table table, after)
      | ',' :: rest =>
          pairs fuel table (if v.isCompound then k :: complete else complete) (skipGap rest)
      | _ => none

end

end Mdx.Toml
