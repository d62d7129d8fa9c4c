
import Mdx.Element.Fragment
import Mdx.Extended.Statement
import Mdx.Node.Vocabulary

/-!
# Extended trees

An extended tree has statements in place of the paragraphs that hold them and elements in place of
raw markup; all else is as it was in the parsed document.

Every raw piece of markup becomes an element node with the same value, whose children are read off the
value. The children have positions if the value stands at its position in the document word for word.
-/

namespace Mdx.Extended

open Mdx.Element

/-- Where a piece of raw markup stands. An error in it that cannot be placed has the position of the
node or, failing that, of the nearest node around it. -/
def placement (doc : Option Document) (nearest : Option Position) (h : NodeHead) (value : List Char) :
    Placement :=
  let fallback := h.position.or nearest
  match doc, h.position with
  | some d, some p =>
      let start := p.start.offset
      if signedSlice d.text start (start + value.length) = value then
        { index := some d.lines, base := start, fallback := fallback }
      else { fallback := fallback }
  | _, _ => { fallback := fallback }

/-- The element in place of a piece of raw markup. -/
def elementOf (doc : Option Document) (nearest : Option Position) (h : NodeHead) :
    Except StructureError Node :=
  let value := h.value.getD ""
  match parseChildren value.toList (placement doc nearest h value.toList) with
  | .error e => .error e
  | .ok children => .ok (.branch { h with kind := "jsx", value := some value } children)

mutual

/-- A tree with elements in place of raw markup; `nearest` is the position of the nearest node around
it that has one. -/
def reclassify (doc : Option Document) (nearest : Option Position) :
    Node → Except StructureError Node
  | .leaf h => if h.kind = "html" then elementOf doc nearest h else .ok (.leaf h)
  | .branch h cs =>
      if h.kind = "html" then elementOf doc nearest h
      else
        match reclassifyList doc (h.position.or nearest) cs with
        | .error e => .error e
        | .ok cs => .ok (.branch h cs)

/-- Trees with elements in place of raw markup. -/
def reclassifyList (doc : Option Document) (nearest : Option Position) :
    List Node → Except StructureError (List Node)
  | [] => .ok []
  | n :: rest =>
      match reclassify doc nearest n with
      | .error e => .error e
      | .ok n =>
          match reclassifyList doc nearest rest with
          | .error e => .error e
          | .ok rest => .ok (n :: rest)

end

/-- The extended tree of a parsed document, whose text may be known. -/
def ofGeneric (source : Option (List Char)) (tree : Node) : Except StructureError Node := do
  tree.validate Vocabulary.generic "parse"
  let doc := source.map Document.ofText
  let children ← extractStatements doc tree.children
  let extended ← reclassify doc none (.branch tree.head children)
  extended.validate Vocabulary.extended "stage1"
  return extended

end Mdx.Extended
