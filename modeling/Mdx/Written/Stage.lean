import Mdx.Extended.Basic
import Mdx.Extended.Autolink
import Mdx.Markup.Basic
import Mdx.Module.Basic
import Mdx.Written.Basic

/-!
# Stages on trees as they are written

A stage that only copies a value copies a misfit too. One that has to read the value as a text fails
on it, unless it fails before for another reason.
-/

namespace Mdx.Written

/-- The failure of reading a value as markup. -/
def markupFailure : Json → Failure
  | .arr _ => .lacking "'list' object has no attribute 'strip'"
  | .obj _ => .missingKey "0"
  | v => .badKind ("object of type '" ++ v.kindName ++ "' has no len()")

/-- Whether a paragraph's own text is read for statements. -/
def isReadParagraph (sourced : Bool) (n : Node) : Bool :=
  n.kind = "paragraph" && !(sourced && n.position.isSome)

/-- The failure of the misfits that the first stage reads: in the text of paragraphs, and in raw
markup. -/
def extendFailure? (sourced : Bool) (tree : Node) : Option Failure :=
  if tree.children.any fun n => isReadParagraph sourced n && hasMisfit n then some notJoined
  else
    tree.flatten.findSome? fun n =>
      if n.kind = "html" then n.head.misfit?.map markupFailure else none

/-- The extended tree of a parsed document, whose text may be known. -/
def extend (source : Option (List Char)) (tree : Node) : Except Failure Node :=
  match Extended.ofGeneric source tree with
  | .error e => .error (refusal Vocabulary.generic tree (.structural e))
  | .ok result =>
      match extendFailure? source.isSome tree with
      | some failure => .error failure
      | none => .ok result

/-- The markup tree of an extended tree. -/
def toMarkup (tree : Node) : Except Failure Node :=
  match Markup.ofExtended tree with
  | .error failure => .error (refusal Vocabulary.extended tree failure)
  | .ok result => .ok result

/-- The failure of a value that is used as a text. -/
def notText (v : Json) (need : String) : Failure :=
  .lacking ("'" ++ v.kindName ++ "' object has no attribute '" ++ need ++ "'")

mutual

/-- The failure of the first misfit that is rendered. -/
def renderFailure? : Node → Option Failure
  | .leaf h => headFailure? h
  | .branch h cs => if h.kind = "element" then renderFailures? cs else headFailure? h

/-- The failure of the first misfit that is rendered in nodes. -/
def renderFailures? : List Node → Option Failure
  | [] => none
  | n :: rest => (renderFailure? n).or (renderFailures? rest)

/-- The failure of rendering the value of a node. -/
def headFailure? (h : NodeHead) : Option Failure :=
  match h.kind with
  | "text" => h.misfit?.map (notText · "replace")
  | "inlineCode" => h.misfit?.map (notText · "replace")
  | "jsx" => h.misfit?.map fun _ => notJoined
  | _ => none

end

/-- The failure of the misfits that a module would show: of exports, of imports, and of the rest. -/
def generateFailure? (nodes : List Node) : Option Failure :=
  let first (kind : String) : Option Json :=
    nodes.findSome? fun n => if n.kind = kind then n.head.misfit? else none
  ((first "export").map (notText · "strip")).or
    (((first "import").map fun _ => notJoined).or (renderFailures? nodes))

/-- The code of the module for a markup tree. -/
def generate (runtime : Option String) (tree : Node) : Except Failure String := do
  let code ← Module.generate runtime tree
  match generateFailure? tree.children with
  | some failure => throw failure
  | none => return code

mutual

/-- The first misfit that stands alone in a paragraph. -/
def loneMisfit? : Node → Option Json
  | .leaf _ => none
  | .branch h cs =>
      if h.kind = "paragraph" then
        match cs with
        | [n] => if n.kind = "text" then n.head.misfit? else none
        | _ => none
      else loneMisfits? cs

/-- The first misfit that stands alone in a paragraph of trees. -/
def loneMisfits? : List Node → Option Json
  | [] => none
  | n :: rest => (loneMisfit? n).or (loneMisfits? rest)

end

/-- A tree with images in place of paragraphs' bare addresses, as the settings tell them. -/
def autolink (settings : Json.Members) (tree : Node) : Except Failure Node := do
  let result ← Extended.autolinkWith settings tree
  match loneMisfit? tree with
  | some v => throw (notText v "strip")
  | none => return result

end Mdx.Written
