import Mdx.Toml.Value

/-!
# TOML documents

A document is a sequence of lines, each with a key and its value, with the header of a table, or with
neither. A table may be given one header only, keys that were set stay as they are, and what a list or
a table on one line holds cannot be added to later.
-/

namespace Mdx.Toml

/-- The state of reading a document. -/
structure Builder where
  table : Table := []
  /-- The key of the table that lines add to. -/
  header : List String := []
  /-- The keys of tables that no header may name any more. -/
  declared : List (List String) := []
  /-- The keys of tables that get declared at the next header. -/
  pending : List (List String) := []
  /-- The keys of lists and of tables on one line. -/
  complete : List (List String) := []

/-- Makes sure that there is a table below a key. -/
def openTable : List String → Table → Option Table
  | [], table => some table
  | part :: rest, table =>
      match table.lookup part with
      | none => do
          let inner ← openTable rest []
          return table ++ [(part, .table inner)]
      | some (.table inner) => do
          let inner ← openTable rest inner
          return table.replace part (.table inner)
      | some (.list items) =>
          match items.getLast? with
          | some (.table inner) => do
              let inner ← openTable rest inner
              return table.replace part (.list (items.dropLast ++ [.table inner]))
          | _ => none
      | some _ => none

/-- Adds an empty table to the list of tables below a key. -/
def appendTable : List String → Table → Option Table
  | [], _ => none
  | [last], table =>
      match table.lookup last with
      | none => some (table ++ [(last, .list [.table []])])
      | some (.list items) => some (table.replace last (.list (items ++ [.table []])))
      | some _ => none
  | part :: rest, table =>
      match table.lookup part with
      | none => do
          let inner ← appendTable rest []
          return table ++ [(part, .table inner)]
      | some (.table inner) => do
          let inner ← appendTable rest inner
          return table.replace part (.table inner)
      | some (.list items) =>
          match items.getLast? with
          | some (.table inner) => do
              let inner ← appendTable rest inner
              return table.replace part (.list (items.dropLast ++ [.table inner]))
          | _ => none
      | some _ => none

namespace Builder

/-- The state at a header: the pending tables are declared. -/
def atHeader (b : Builder) : Builder :=
  { b with declared := b.pending ++ b.declared, pending := [] }

/-- Takes the header of a table. -/
def tableHeader (b : Builder) (k : List String) : Option Builder :=
  if b.declared.contains k || isWithin b.complete k then none
  else do
    let table ← openTable k b.table
    return { b with table := table, header := k, declared := k :: b.declared }

/-- Takes the header of a table in a list of tables, below which all keys are free again. -/
def listHeader (b : Builder) (k : List String) : Option Builder :=
  if isWithin b.complete k then none
  else do
    let table ← appendTable k b.table
    return { b with
      table := table
      header := k
      declared := k :: b.declared.filter fun other => !k.isPrefixOf other
      complete := b.complete.filter fun other => !k.isPrefixOf other }

/-- The tables on the way to a key that has several parts, below a header. -/
def between (header : List String) : List String → List (List String)
  | [] => []
  | [_] => []
  | part :: rest => (header ++ [part]) :: between (header ++ [part]) rest

/-- Takes a key and its value. -/
def assign (b : Builder) (k : List String) (v : Value) : Option Builder :=
  let passed := between b.header k
  if passed.any b.declared.contains || isWithin b.complete (b.header ++ k.dropLast) then none
  else do
    let table ← store true v (b.header ++ k) b.table
    return { b with
      table := table
      pending := passed ++ b.pending
      complete := if v.isCompound then (b.header ++ k) :: b.complete else b.complete }

/-- Takes what stands at the start of a line, and gives the rest of the line. -/
def statement (b : Builder) : List Char → Option (Builder × List Char)
  | [] => some (b, [])
  | '\n' :: rest => some (b, '\n' :: rest)
  | '#' :: rest => some (b, '#' :: rest)
  | '[' :: '[' :: rest => do
      let (k, rest) ← key? (skipGap rest)
      let b ← b.atHeader.listHeader k
      match rest with
      | ']' :: ']' :: rest => return (b, rest)
      | _ => none
  | '[' :: rest => do
      let (k, rest) ← key? (skipGap rest)
      let b ← b.atHeader.tableHeader k
      match rest with
      | ']' :: rest => return (b, rest)
      | _ => none
  | s => do
      let (k, v, rest) ← pair (s.length + 1) s
      return (← b.assign k v, rest)

/-- Takes the lines of a document. -/
def lines : (fuel : Nat) → Builder → List Char → Option Builder
  | 0, b, _ => some b
  | fuel + 1, b, s => do
      let (b, rest) ← b.statement (skipGap s)
      match ← skipComment? (skipGap rest) with
      | [] => return b
      | '\n' :: rest => lines fuel b rest
      | _ => none

end Builder

/-- Line ends of two characters as one. -/
def singleEnds : List Char → List Char
  | '\r' :: '\n' :: rest => '\n' :: singleEnds rest
  | c :: rest => c :: singleEnds rest
  | [] => []

/-- The members of a document's outermost table, or nothing if it is malformed. -/
def parse? (text : List Char) : Option Table :=
  let s := singleEnds text
  (Builder.lines (s.length + 1) {} s).map (·.table)

end Mdx.Toml
