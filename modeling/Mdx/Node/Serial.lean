import Mdx.Json.Integer
import Mdx.Node.Basic

/-!
# The interchange format

A node is written as an object: its kind as `type`, its properties, and then, as far as there are
any, `value`, `children` and `position`. Reading takes these four keys out and keeps the other
members as properties, in order. A kind or a value that is no text is kept as a last property under
its own key, so that it is written again as it was. The numbers of a position may be written in any
form that `Json.toInteger` reads.
-/

namespace Mdx

/-- Why a value is no node. -/
inductive SerialFault where
  /-- An object has no kind. -/
  | missingType (shown : String)
  /-- A number of a position is malformed. -/
  | integer (fault : Json.IntegerFault)
  /-- A member of a position is missing. -/
  | missingMember (key : String)
  /-- A value of this kind stands where an object or a list belongs. -/
  | wrongKind (kind : String)
  /-- A value of this kind has no members. -/
  | noMembers (kind : String)
deriving DecidableEq, Repr

namespace Point

/-- A point as an object. -/
def toJson (p : Point) : Json :=
  .obj [("line", .int p.line), ("column", .int p.column), ("offset", .int p.offset)]

/-- A whole number of a position. -/
def coordinate (v : Json) : Except SerialFault Int :=
  match v.toInteger with
  | .ok n => .ok n
  | .error fault => .error (.integer fault)

/-- A member of a position, or of a point, that has to be there. -/
def required (key : String) : Json → Except SerialFault Json
  | .obj members =>
      match members.lookup key with
      | some v => .ok v
      | none => .error (.missingMember key)
  | other => .error (.wrongKind other.kindName)

/-- A point from an object; an offset that is missing is zero. -/
def ofJson (v : Json) : Except SerialFault Point := do
  let line ← coordinate (← required "line" v)
  let column ← coordinate (← required "column" v)
  let offset ← coordinate ((v.member? "offset").getD (.int 0))
  return ⟨line, column, offset⟩

end Point

namespace Position

/-- A position as an object. -/
def toJson (p : Position) : Json :=
  .obj [("start", p.start.toJson), ("end", p.stop.toJson)]

/-- A position from an object. -/
def ofJson (v : Json) : Except SerialFault Position := do
  let start ← Point.ofJson (← Point.required "start" v)
  let stop ← Point.ofJson (← Point.required "end" v)
  return ⟨start, stop⟩

/-- A position that may be left out: an empty value stands for none. -/
def ofJson? : Option Json → Except SerialFault (Option Position)
  | none => .ok none
  | some v => if v.isEmpty then .ok none else some <$> ofJson v

end Position

namespace Node

/-- The keys that are no properties. -/
def reservedKeys : List String :=
  ["type", "value", "children", "position"]

/-- A node's members up to its children. -/
def headMembers (h : NodeHead) : Json.Members :=
  let members := Json.Members.merge [("type", .str h.kind)] h.props
  match h.value with
  | none => members
  | some v => Json.Members.insert "value" (.str v) members

/-- A node's members with its position. -/
def addPosition (position : Option Position) (members : Json.Members) : Json.Members :=
  match position with
  | none => members
  | some p => Json.Members.insert "position" p.toJson members

mutual

/-- A tree in the interchange format. -/
def toJson : Node → Json
  | .leaf h => .obj (addPosition h.position (headMembers h))
  | .branch h cs =>
      .obj (addPosition h.position
        (Json.Members.insert "children" (.arr (toJsonList cs)) (headMembers h)))

/-- Trees in the interchange format. -/
def toJsonList : List Node → List Json
  | [] => []
  | n :: rest => toJson n :: toJsonList rest

end

/-- A text as a node's value; other values are none. -/
def valueOf : Option Json → Option String
  | some (.str s) => some s
  | _ => none

/-- A member that should be a text and is something else, as a property. -/
def misfit (key : String) : Option Json → Json.Members
  | none => []
  | some .null => if key = "type" then [(key, .null)] else []
  | some (.str _) => []
  | some v => [(key, v)]

/-- The head of the node that an object with these members stands for. -/
def headOf (kind : Json) (position : Option Position) (members : Json.Members) : NodeHead where
  kind := kind.plain
  value := valueOf (members.lookup "value")
  position := position
  props := members.filter (fun m => !reservedKeys.contains m.1) ++ misfit "type" (some kind) ++
    misfit "value" (members.lookup "value")

/-- Whether the characters of `needle` stand somewhere in the text. -/
def containsText (needle : List Char) : List Char → Bool
  | [] => needle.isEmpty
  | c :: rest => needle.isPrefixOf (c :: rest) || containsText needle rest

/-- The fault of a text that stands for a node. -/
def textFault (s : String) : SerialFault :=
  if containsText "type".toList s.toList then .noMembers "str"
  else .missingType (Text.quotedString s)

mutual

/-- A tree from the interchange format. -/
def ofJson : Json → Except SerialFault Node
  | .obj members =>
      match members.lookup "type" with
      | none => .error (.missingType (Json.obj members).display)
      | some kind =>
          match childrenOf members with
          | .error e => .error e
          | .ok children =>
              match Position.ofJson? (members.lookup "position") with
              | .error e => .error e
              | .ok position => .ok (ofParts (headOf kind position members) children)
  | .arr items =>
      if items.any (· == .str "type") then .error (.noMembers "list")
      else .error (.missingType (Json.arr items).display)
  | .str s => .error (textFault s)
  | other => .error (.wrongKind other.kindName)

/-- The children among an object's members. -/
def childrenOf : List (String × Json) → Except SerialFault (Option (List Node))
  | [] => .ok none
  | (key, v) :: rest => if key = "children" then childrenFrom v else childrenOf rest

/-- The children that a value stands for. -/
def childrenFrom : Json → Except SerialFault (Option (List Node))
  | .null => .ok none
  | .arr items =>
      match ofJsonList items with
      | .ok ns => .ok (some ns)
      | .error e => .error e
  | .str s =>
      match s.toList with
      | [] => .ok (some [])
      | c :: _ => .error (.missingType (Text.quotedString c.toString))
  | .obj members =>
      match members with
      | [] => .ok (some [])
      | (key, _) :: _ => .error (textFault key)
  | other => .error (.wrongKind other.kindName)

/-- Trees from the interchange format. -/
def ofJsonList : List Json → Except SerialFault (List Node)
  | [] => .ok []
  | v :: rest =>
      match ofJson v with
      | .error e => .error e
      | .ok n =>
          match ofJsonList rest with
          | .error e => .error e
          | .ok ns => .ok (n :: ns)

end

end Node

end Mdx
