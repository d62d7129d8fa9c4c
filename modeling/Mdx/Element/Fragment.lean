import Mdx.Element.Lexer
import Mdx.Fault.Structure
import Mdx.Node.Basic
import Mdx.Source.Basic

/-!
# Fragments

A fragment is a list of elements and texts. Opening and closing tags match by name, letter case
included; an element's value is the piece of source from its first tag to its last one. Comments and
texts of blanks only are left out. Markup whose tags do not match is an error.
-/

namespace Mdx.Element

/-- Where the markup stands in its document: the document's lines, if known, and the offset of the
markup in it. An error that cannot be placed so has the fallback position. -/
structure Placement where
  index : Option LineIndex := none
  base : Int := 0
  fallback : Option Position := none

namespace Placement

/-- The position of a piece of the markup. -/
def span (place : Placement) (start stop : Nat) : Option Position :=
  place.index.map fun ix => ix.span (place.base + start) (place.base + stop)

/-- An error at a piece of the markup. -/
def error (place : Placement) (cause : StructureCause) (start stop : Nat) : StructureError :=
  ⟨cause, (place.span start stop).or place.fallback⟩

end Placement

/-- An element from its first offset up to its last. -/
def elementNode (src : List Char) (place : Placement) (start stop : Nat) (children : List Node) :
    Node :=
  .branch
    { kind := "jsx"
      value := some (String.ofList (slice src start stop))
      position := place.span start stop }
    children

/-- A piece of text between tags; nothing if it has blanks only. -/
def textNodes (src : List Char) (place : Placement) (t : Token) : List Node :=
  let raw := slice src t.start t.stop
  if Text.isBlankText raw then []
  else [Node.ofText (String.ofList raw) (place.span t.start t.stop)]

/-- An open element: its tag, and the nodes before it in its parent, last first. -/
structure OpenElement where
  tag : Token
  before : List Node

/-- What the end of the tokens makes of the nodes read, last first, and the open elements. -/
def endFragment (place : Placement) (fault : Option LexicalFault) (stack : List OpenElement)
    (nodes : List Node) : Except StructureError (List Node) :=
  match fault, stack with
  | some f, _ => .error (place.error (.lexical f.cause) f.offset (f.offset + 1))
  | none, o :: _ => .error (place.error (.unterminatedElement o.tag.name) o.tag.start o.tag.stop)
  | none, [] => .ok nodes.reverse

/-- Matches the tags of the tokens, with the open elements on the stack and the nodes read so far in
the innermost one, last first. -/
def matchTags (src : List Char) (place : Placement) (fault : Option LexicalFault) :
    List OpenElement → List Node → List Token → Except StructureError (List Node)
  | stack, nodes, [] => endFragment place fault stack nodes
  | stack, nodes, t :: rest =>
      match t.kind with
      | .text => matchTags src place fault stack (textNodes src place t ++ nodes) rest
      | .selfClosing =>
          matchTags src place fault stack (elementNode src place t.start t.stop [] :: nodes) rest
      | .comment => matchTags src place fault stack nodes rest
      | .openTag => matchTags src place fault (⟨t, nodes⟩ :: stack) [] rest
      | .closeTag =>
          match stack with
          | [] => .error (place.error (.strayClosingTag t.name) t.start t.stop)
          | o :: below =>
              if o.tag.name != t.name then
                .error (place.error (.wrongClosingTag o.tag.name t.name) t.start t.stop)
              else
                matchTags src place fault below
                  (elementNode src place o.tag.start t.stop nodes.reverse :: o.before) rest

/-- The top-level elements and texts of a piece of markup. -/
def parseFragment (src : List Char) (place : Placement) : Except StructureError (List Node) :=
  match tokens src with
  | (ts, fault) => matchTags src place fault [] [] ts

/-- The children of an element built from a piece of markup: those of its only element, or else all
top-level elements and texts. -/
def parseChildren (src : List Char) (place : Placement) : Except StructureError (List Node) :=
  match parseFragment src place with
  | .error e => .error e
  | .ok [n] => .ok (if n.kind = "jsx" then n.children else [n])
  | .ok ns => .ok ns

end Mdx.Element
