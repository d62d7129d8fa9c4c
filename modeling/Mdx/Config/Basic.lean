import Mdx.Text.Case
import Mdx.Transform.Basic
import Mdx.Workspace.Path

/-!
# Configurations

A configuration says which transforms run in each stage, whether the built-in ones run before them,
which settings transforms see, and where plugins are looked for. It is made of named arguments in one
of two ways: `Config.ofArguments` checks every argument and takes either spelling of a name, while
`Config.overlay` lays arguments over a configuration as they are, under the plain names only.
-/

namespace Mdx

/-- An argument: a list of transforms, or any other value. -/
inductive Argument where
  | refs (items : List TransformRef)
  | value (v : Json)
deriving Inhabited

/-- Arguments by name. -/
abbrev Arguments := List (String × Argument)

/-- A configuration. -/
structure Config where
  stage1 : Config.Field (List TransformRef) := .sound []
  stage2 : Config.Field (List TransformRef) := .sound []
  builtins : Config.Field Bool := .sound true
  settings : Config.Field Json.Members := .sound []
  paths : Config.Field (List String) := .sound []
deriving Inhabited

namespace Argument

/-- A list of transforms. -/
def refs? : Argument → Option (List TransformRef)
  | .refs items => some items
  | .value (.arr items) => some (items.map .value)
  | .value _ => none

/-- The truth value that a word stands for. -/
def wordTruth? (word : List Char) : Option Bool :=
  let word := String.ofList (Text.lower word)
  if ["1", "on", "t", "true", "y", "yes"].contains word then some true
  else if ["0", "off", "f", "false", "n", "no"].contains word then some false
  else none

/-- A truth value, which may also be given as a number or as a word. -/
def truth? : Argument → Option Bool
  | .value (.bool b) => some b
  | .value (.int n) => if n = 0 then some false else if n = 1 then some true else none
  | .value (.float x) => if x == 0.0 then some false else if x == 1.0 then some true else none
  | .value (.str s) => wordTruth? s.toList
  | _ => none

/-- The members of an object. -/
def members? : Argument → Option Json.Members
  | .value (.obj ms) => some ms
  | _ => none

/-- A list of paths. -/
def paths? : Argument → Option (List String)
  | .refs [] => some []
  | .value (.arr items) => (Config.textList? items).map (·.map Path.normalize)
  | _ => none

end Argument

namespace Config

/-- The value of a checked field: that of the first name that an argument has, or a default. -/
def checked {α : Type} (args : Arguments) (names : List String) (default : α)
    (read : Argument → Option α) : Except Failure (Field α) :=
  match names.findSome? fun name => args.lookup name with
  | none => .ok (.sound default)
  | some a =>
      match read a with
      | some v => .ok (.sound v)
      | none => .error (.rejectedField (names.headD ""))

/-- The configuration that arguments describe, every one of them being checked. -/
def ofArguments (args : Arguments) : Except Failure Config := do
  let stage1 ← checked args ["stage1Transforms", "stage1_transforms"] [] Argument.refs?
  let stage2 ← checked args ["stage2Transforms", "stage2_transforms"] [] Argument.refs?
  let builtins ← checked args ["builtin_transforms"] true Argument.truth?
  let settings ← checked args ["plugin_settings"] [] Argument.members?
  let paths ← checked args ["plugin_paths"] [] Argument.paths?
  return { stage1, stage2, builtins, settings, paths }

/-- The value of a field with an unchecked argument laid over it. -/
def overlaid {α : Type} (args : Arguments) (name : String) (field : Field α)
    (read : Argument → Option α) : Field α :=
  match args.lookup name with
  | none => field
  | some a =>
      match read a, a with
      | some v, _ => .sound v
      | none, .value v => .raw v
      | none, .refs _ => field

/-- A truth value that is given as such. -/
def plainTruth? : Argument → Option Bool
  | .value (.bool b) => some b
  | _ => none

/-- An empty list of paths; texts are no paths yet. -/
def noPaths? : Argument → Option (List String)
  | .refs [] => some []
  | .value (.arr []) => some []
  | _ => none

/-- The configuration with arguments laid over its fields as they are. -/
def overlay (config : Config) (args : Arguments) : Config where
  stage1 := overlaid args "stage1_transforms" config.stage1 Argument.refs?
  stage2 := overlaid args "stage2_transforms" config.stage2 Argument.refs?
  builtins := overlaid args "builtin_transforms" config.builtins plainTruth?
  settings := overlaid args "plugin_settings" config.settings Argument.members?
  paths := overlaid args "plugin_paths" config.paths noPaths?

/-- The configuration of a call: overrides are laid over a given configuration, and make one up if
none is given. -/
def configure (config? : Option Config) (overrides : Arguments) : Except Failure Config :=
  match config? with
  | none => ofArguments overrides
  | some config => .ok (config.overlay overrides)

/-- The failure of going through a value that has no items. -/
def notIterable (v : Json) : Failure :=
  .badKind ("'" ++ v.kindName ++ "' object is not iterable")

/-- The items of a value: those of a list, the characters of a text, the keys of an object. -/
def itemsOf : Json → Except Failure (List Json)
  | .arr items => .ok items
  | .str s => .ok (s.toList.map fun c => .str c.toString)
  | .obj ms => .ok (ms.map fun m => .str m.1)
  | v => .error (notIterable v)

/-- The references of a field of transforms. -/
def Field.refs : Field (List TransformRef) → Except Failure (List TransformRef)
  | .sound refs => .ok refs
  | .raw v => do return (← itemsOf v).map .value

/-- The paths of a field of paths. An empty value stands for no paths, and the items of any other
unchecked value are no paths. -/
def Field.pathList : Field (List String) → Except Failure (List String)
  | .sound paths => .ok paths
  | .raw v =>
      if v.isEmpty then .ok []
      else do
        match ← itemsOf v with
        | [] => return []
        | item :: _ =>
            throw (.lacking ("'" ++ item.kindName ++ "' object has no attribute 'exists'"))

end Config

end Mdx
