import Mdx.Fault.Failure
import Mdx.Workspace.Path

/-!
# Workspaces

A workspace is the directory that a compilation works in, with the files below it. A file holds bytes,
which may not be a text.
-/

namespace Mdx

/-- A directory and the files that can be read. -/
structure Workspace where
  /-- The parts of the directory's path. -/
  directory : List String
  /-- The files by the parts of their paths; a file that is not a text has no content. -/
  files : List (List String × Option String)

namespace Workspace

/-- The content of a file, if the path leads to one. -/
def file? (w : Workspace) (place : List String) : Option (Option String) :=
  w.files.lookup place

/-- Whether a path leads to a directory. -/
def isDirectory (w : Workspace) (place : List String) : Bool :=
  place.isPrefixOf w.directory ||
    w.files.any fun f => place.isPrefixOf f.1 && place.length < f.1.length

/-- Whether a path leads through a file as if it were a directory. -/
def crossesFile (w : Workspace) (place : List String) : Bool :=
  w.files.any fun f => f.1.isPrefixOf place && f.1.length < place.length

/-- The content of a file. -/
def read (w : Workspace) (place : List String) : Except Failure String :=
  match w.file? place with
  | some (some text) => .ok text
  | some none => .error (.unreadable .notText)
  | none =>
      if w.isDirectory place then .error (.unreadable .directory)
      else if w.crossesFile place then .error (.unreadable .notDirectory)
      else .error (.unreadable .missing)

end Workspace

/-- A text with all its line ends as line feeds. -/
def unixLines : List Char → List Char
  | '\r' :: '\n' :: rest => '\n' :: unixLines rest
  | '\r' :: rest => '\n' :: unixLines rest
  | c :: rest => c :: unixLines rest
  | [] => []

end Mdx
