/-!
# Paths

A path is a text whose parts are divided by slashes. Empty parts and parts that are a single point
say nothing; two points go up. A resolved path is absolute and is given by its parts.
-/

namespace Mdx.Path

/-- The parts of a path that say something. -/
def parts (path : String) : List String :=
  (path.splitOn "/").filter fun part => !part.isEmpty && part != "."

/-- What an absolute path starts with: a slash, or two slashes if there are exactly two. -/
def root (path : String) : String :=
  match path.toList.takeWhile (· == '/') with
  | [] => ""
  | [_, _] => "//"
  | _ => "/"

/-- A path without the parts that say nothing. -/
def normalize (path : String) : String :=
  let text := root path ++ "/".intercalate (parts path)
  if text.isEmpty then "." else text

/-- Goes on from a resolved place, part by part; `place` holds the parts so far, last first. -/
def follow (place : List String) : List String → List String
  | [] => place.reverse
  | part :: rest => if part = ".." then follow (place.drop 1) rest else follow (part :: place) rest

/-- A path resolved from a place. -/
def resolve (place : List String) (path : String) : List String :=
  follow (if path.startsWith "/" then [] else place.reverse) (parts path)

/-- The text of a resolved path. -/
def absolute (place : List String) : String :=
  "/" ++ "/".intercalate place

/-- A place and the places around it, from the inside out; it is given last part first. -/
def enclosingReversed : List String → List (List String)
  | [] => [[]]
  | part :: rest => (part :: rest).reverse :: enclosingReversed rest

/-- A place and the places around it, from the inside out. -/
def enclosing (place : List String) : List (List String) :=
  enclosingReversed place.reverse

end Mdx.Path
