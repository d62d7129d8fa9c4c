import Mdx.Config.Settings
import Mdx.Log.Basic
import Mdx.Trace.Basic

/-!
# Contexts

A context accompanies a document through the transforms of one compilation. They read the document
and the settings in it, leave notes for each other, and report messages. A message is recorded three
times: among the messages, as a warning of the trace, and in the log.
-/

namespace Mdx

/-- A remark of a transform about the document. -/
structure Message where
  reason : String
  stage : Option String
  transform : Option String
  line : Option Int
  column : Option Int
deriving DecidableEq, Repr, Inhabited

namespace Message

/-- An optional text as a JSON value. -/
def ofText? : Option String → Json
  | some s => .str s
  | none => .null

/-- An optional number as a JSON value. -/
def ofNumber? : Option Int → Json
  | some n => .int n
  | none => .null

/-- Where a message comes from: all but its reason. -/
def origin (m : Message) : Json.Members :=
  [("stage", ofText? m.stage), ("transform", ofText? m.transform), ("line", ofNumber? m.line),
   ("column", ofNumber? m.column)]

/-- A message as a JSON value. -/
def toJson (m : Message) : Json :=
  .obj (("reason", .str m.reason) :: m.origin)

end Message

/-- What transforms see besides the tree, and what they leave behind. -/
structure Context where
  settings : Config.Field Json.Members := .sound []
  source : String := ""
  path : Option String := none
  /-- The trace, if one is kept. -/
  trace : Option Trace := none
  stage : Option String := none
  /-- The name of the transform that is running. -/
  current : Option String := none
  /-- Notes that transforms leave for each other. -/
  metadata : Json.Members := []
  messages : List Message := []
  log : Log := {}
deriving Inhabited

namespace Context

/-- Changes the trace, if one is kept. -/
def mapTrace (f : Trace → Trace) (c : Context) : Context :=
  { c with trace := c.trace.map f }

/-- Adds a record to the log. -/
def logged (c : Context) (level : Level) (text : String) : Context :=
  { c with log := c.log.add level text }

/-- The message that a transform would report now about a place. -/
def newMessage (c : Context) (reason : String) (position : Option Position) : Message where
  reason := reason
  stage := c.stage
  transform := c.current
  line := position.map (·.start.line)
  column := position.map (·.start.column)

/-- Reports a message about a place. -/
def message (c : Context) (reason : String) (position : Option Position) : Context :=
  let m := c.newMessage reason position
  let c := { c with messages := c.messages ++ [m] }
  (c.mapTrace fun t => t.warning reason m.origin).logged .warning (located reason position)

/-- A setting as it was given. -/
def setting (c : Context) (key : String) (default : Json) : Except Failure Json := do
  return ((← c.settings.members "get").lookup key).getD default

/-- The settings of a schema. -/
def readSettings (c : Context) (schema : Config.Schema) : Except Failure Json.Members := do
  schema.read (← c.settings.members "items")

end Context

end Mdx
