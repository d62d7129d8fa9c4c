import Mdx.Config.Basic
import Mdx.Toml.Document
import Mdx.Workspace.Basic

/-!
# Configuration files

The configuration of a project stands in a table of its project file, which is the one of a directory
or of the nearest one around it. Arguments add to the table's lists of transforms, override its switch
for built-in transforms and are laid over its settings. Paths in the file are relative to the file's
directory.
-/

namespace Mdx.Config

/-- The name of the file that holds a configuration. -/
def fileName : String :=
  "pyproject.toml"

/-- The nearest configuration file: its directory and its content. -/
def nearest? (w : Workspace) : List (List String) → Option (List String × Option String)
  | [] => none
  | place :: rest =>
      match w.file? (place ++ [fileName]) with
      | some content => some (place, content)
      | none => nearest? w rest

/-- A member of a value that has to be a table. -/
def memberOf? (v : Toml.Value) (key : String) : Except Failure (Option Toml.Value) :=
  match v with
  | .table ms => .ok (ms.lookup key)
  | v => .error (.lacking ("'" ++ v.kindName ++ "' object has no attribute 'get'"))

/-- A member of a value that has to be a table, as a JSON value; one that holds a date or a time is
refused. -/
def memberOf (v : Toml.Value) (key : String) (default : Json) : Except Failure Json := do
  match ← memberOf? v key with
  | none => return default
  | some member =>
      match member.toJson? with
      | some v => return v
      | none => throw (.badKind ("'" ++ key ++ "' holds a date or a time"))

/-- The table of the nearest configuration file and the directory of that file; without a file the
table is empty. -/
def fileTable (w : Workspace) (start : List String) : Except Failure (Toml.Value × List String) :=
  match nearest? w (Path.enclosing start) with
  | none => .ok (.table [], w.directory)
  | some (_, none) => .error (.unreadable .notText)
  | some (place, some text) =>
      match Toml.parse? text.toList with
      | none => .error (.badValue ("Invalid TOML in " ++ Path.absolute (place ++ [fileName])))
      | some ms => do
          let tool := (← memberOf? (.table ms) "tool").getD (.table [])
          return ((← memberOf? tool "mdx_pipeline").getD (.table []), place)

/-- The references of an argument that adds to a list; an empty one adds none. -/
def extraRefs : Option Argument → Except Failure (List TransformRef)
  | none => .ok []
  | some (.refs items) => .ok items
  | some (.value v) => if v.isEmpty then .ok [] else do return (← itemsOf v).map .value

/-- The references in the file followed by those of an argument. -/
def joinedRefs (table : Toml.Value) (args : Arguments) (name : String) :
    Except Failure (List TransformRef) := do
  let inFile ← itemsOf (← memberOf table name (.arr []))
  return inFile.map .value ++ (← extraRefs (args.lookup name))

/-- The switch for built-in transforms. -/
def builtinSwitch (table : Toml.Value) (args : Arguments) : Except Failure Argument :=
  match args.lookup "builtin_transforms" with
  | some (.value .null) => inFile
  | some a => .ok a
  | none => inFile
where
  /-- The switch in the file. -/
  inFile : Except Failure Argument := do
    return .value (.bool !(← memberOf table "builtin_transforms" (.bool true)).isEmpty)

/-- The members of a value that has to be an object. -/
def mapping : Json → Except Failure Json.Members
  | .obj ms => .ok ms
  | v => .error (.badKind ("'" ++ v.kindName ++ "' object is not a mapping"))

/-- The settings in the file with those of an argument laid over them. -/
def joinedSettings (table : Toml.Value) (args : Arguments) : Except Failure Json.Members := do
  let inFile ← mapping (← memberOf table "plugin_settings" (.obj []))
  match args.lookup "plugin_settings" with
  | some (.value v) => if v.isEmpty then return inFile else return inFile.merge (← mapping v)
  | some (.refs (_ :: _)) => throw (.badKind "'list' object is not a mapping")
  | _ => return inFile

/-- A path in the file. -/
def pathIn (place : List String) : Json → Except Failure String
  | .str s => .ok (Path.absolute (Path.resolve place s))
  | v =>
      .error (.badKind ("argument should be a str or an os.PathLike object where __fspath__ " ++
        "returns a str, not '" ++ v.kindName ++ "'"))

/-- The names of the arguments of `load`. -/
def loadNames : List String :=
  ["stage1_transforms", "stage2_transforms", "builtin_transforms", "plugin_settings"]

/-- The configuration that the nearest file and arguments give together. -/
def load (w : Workspace) (start : List String) (args : Arguments) : Except Failure Config := do
  if args.any fun a => !loadNames.contains a.1 then
    throw (.badKind "got an unexpected keyword argument")
  let (table, place) ← fileTable w start
  let stage1 ← joinedRefs table args "stage1_transforms"
  let stage2 ← joinedRefs table args "stage2_transforms"
  let builtins ← builtinSwitch table args
  let settings ← joinedSettings table args
  let paths ← (← itemsOf (← memberOf table "plugin_paths" (.arr []))).mapM (pathIn place)
  match builtins.truth? with
  | none => throw (.rejectedField "builtin_transforms")
  | some b =>
      return {
        stage1 := .sound stage1
        stage2 := .sound stage2
        builtins := .sound b
        settings := .sound settings
        paths := .sound paths }

end Mdx.Config
