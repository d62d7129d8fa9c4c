/-!
# JSON values

The values that documents of the interchange format, node properties, plugin settings and
configuration files are made of. An object keeps its members in the order in which they were
written, and whole numbers, which have no bound, stay apart from floats: `2` and `2.0` are
different values.
-/

namespace Mdx

/-- A JSON value. -/
inductive Json where
  | null
  | bool (value : Bool)
  | int (value : Int)
  | float (value : Float)
  | str (value : String)
  | arr (items : List Json)
  | obj (members : List (String × Json))
deriving Inhabited, BEq

namespace Json

/-- The members of an object, in order. -/
abbrev Members := List (String × Json)

/-- The members with one set to a value: in place if the key is there, otherwise at the end. -/
def Members.insert (key : String) (value : Json) : Members → Members
  | [] => [(key, value)]
  | (k, v) :: rest => if k = key then (k, value) :: rest else (k, v) :: Members.insert key value rest

/-- The members of `upper` laid over those of `lower`, one by one. -/
def Members.merge (lower upper : Members) : Members :=
  upper.foldl (fun acc m => Members.insert m.1 m.2 acc) lower

/-- Whether there is a member with this key. -/
def Members.has (members : Members) (key : String) : Bool :=
  members.any (·.1 = key)

/-- The value of an object's member; none for other values. -/
def member? (key : String) : Json → Option Json
  | .obj members => members.lookup key
  | _ => none

/-- The number zero, an empty text, list or object, `false` and `null` count as empty. -/
def isEmpty : Json → Bool
  | .null => true
  | .bool b => !b
  | .int n => n == 0
  | .float x => x == 0.0
  | .str s => s.isEmpty
  | .arr items => items.isEmpty
  | .obj members => members.isEmpty

/-- Whether a value is the number one in any of its forms: whole, float or `true`. -/
def isOne : Json → Bool
  | .bool b => b
  | .int n => n == 1
  | .float x => x == 1.0
  | _ => false

end Json

end Mdx
