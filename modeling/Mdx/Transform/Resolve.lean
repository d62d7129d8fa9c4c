import Mdx.Transform.Registry

/-!
# References to transforms

A configuration refers to a transform by the transform itself, by its registered name, or by a path
of the form `module:member` that says where to import it from. Looking up a name asks the registry,
which then loads the bundled transform; the other references leave the registry alone.
-/

namespace Mdx

namespace ImportPath

/-- The packages that hold the bundled transform's module. -/
def packages : List String :=
  ["mdx_pipeline", "mdx_pipeline.plugins"]

/-- The module of the bundled transform. -/
def bundledModule : String :=
  "mdx_pipeline.plugins.image_autolink"

/-- The bundled transform's name in its module. -/
def bundledMember : String :=
  "image_autolink"

/-- The packages of a dotted name from the outermost in, ending with the name itself; `outer` is the
name so far. -/
def levels (outer : String) : List String → List String
  | [] => []
  | part :: rest =>
      let name := if outer.isEmpty then part else outer ++ "." ++ part
      name :: levels name rest

/-- Why a module cannot be loaded: the first package that is missing. -/
def missing? : List String → Option String
  | [] => none
  | name :: rest =>
      if packages.contains name then missing? rest
      else if name = bundledModule then
        rest.head?.map fun inner =>
          "No module named " ++ Text.quotedString inner ++ "; " ++ Text.quotedString name ++
            " is not a package"
      else some ("No module named " ++ Text.quotedString name)

/-- The transform that an import path leads to. -/
def resolve (path home member : String) : Except Failure Transform :=
  if home.isEmpty then .error (.badValue "Empty module name")
  else if home.startsWith "." then
    .error (.badKind ("the 'package' argument is required to perform a relative import for " ++
      Text.quotedString home))
  else
    match missing? (levels "" (home.splitOn ".")) with
    | some reason =>
        .error (.badValue ("Cannot import transform module '" ++ home ++ "': " ++ reason))
    | none =>
        if home = bundledModule && member = bundledMember then .ok imageAutolink
        else .error (.badValue ("'" ++ path ++ "' does not name a callable transform"))

end ImportPath

namespace Registry

/-- The transform of a registered name. -/
def named (r : Registry) (name stage : String) : Except Failure Transform :=
  match r.get? name with
  | none =>
      .error (.badValue ("Unknown transform '" ++ name ++ "'. Registered: " ++
        (Json.arr ((r.list none).map .str)).display))
  | some e =>
      if e.stage = stage then .ok e.transform
      else
        .error (.badValue ("Transform '" ++ name ++ "' is registered for " ++ e.stage ++ ", not " ++
          stage))

/-- The transform that a reference means, and the registry after the look-up. -/
def resolve (r : Registry) (ref : TransformRef) (stage : String) :
    Except Failure Transform × Registry :=
  match ref with
  | .itself t => (.ok t, r)
  | .value (.str s) =>
      let chars := s.toList
      if Text.isBlankText chars then (.error (invalid (.str s)), r)
      else if chars.contains ':' then
        let home := String.ofList (chars.takeWhile (· != ':'))
        let member := String.ofList ((chars.dropWhile (· != ':')).drop 1)
        (ImportPath.resolve s home member, r)
      else (r.named s stage, r.ready)
  | .value v => (.error (invalid v), r)
where
  /-- The failure of a value that is no reference. -/
  invalid (v : Json) : Failure :=
    .badValue ("Invalid transform reference: " ++ v.display)

/-- The transforms that references mean, up to the first that means none. -/
def resolveAll (r : Registry) (stage : String) :
    List TransformRef → Except Failure (List Transform) × Registry
  | [] => (.ok [], r)
  | ref :: rest =>
      match r.resolve ref stage with
      | (.error e, r) => (.error e, r)
      | (.ok t, r) =>
          match resolveAll r stage rest with
          | (.error e, r) => (.error e, r)
          | (.ok ts, r) => (.ok (t :: ts), r)

end Registry

end Mdx
