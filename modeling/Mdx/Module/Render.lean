
import Mdx.Fault.Failure
import Mdx.Json.Writer

/-!
# Rendering nodes

An element is rendered as a call of the component `MDXTag`, which takes the tag name, the name of the
element around it and the properties, so that the host can put its own components in the place of
tags. Text becomes a template literal in braces; embedded elements stand as they were written. In a
template literal a backslash and a backtick are written with a backslash in front, and so is a dollar
sign that an opening brace follows.

The children of an element that holds blocks are rendered on lines of their own.
-/

namespace Mdx.Module

/-- Text as the body of a template literal. -/
def escapeTemplate : List Char → List Char
  | [] => []
  | '\\' :: rest => '\\' :: '\\' :: escapeTemplate rest
  | '\x60' :: rest => '\\' :: '\x60' :: escapeTemplate rest
  | '$' :: '\x7b' :: rest => '\\' :: '$' :: '\x7b' :: escapeTemplate rest
  | c :: rest => c :: escapeTemplate rest

/-- Text as an expression: a template literal in braces. -/
def templateGroup (value : String) : String :=
  "\x7b\x60" ++ String.ofList (escapeTemplate value.toList) ++ "\x60\x7d"

/-- Tags of blocks. -/
def blockTags : List String :=
  ["p", "h1", "h2", "h3", "h4", "h5", "h6", "blockquote", "ul", "ol", "li", "pre", "hr", "table",
   "thead", "tbody", "tr"]

/-- Tags of elements that have no closing tag when they are empty. -/
def voidTags : List String :=
  ["hr", "br", "img"]

/-- The opening of a component's call, up to its closing bracket. -/
def tagOpening (name : String) (parent : Option String) (properties : Json) : String :=
  "<MDXTag name=\"" ++ name ++ "\" components=\x7bcomponents\x7d" ++
    (match parent with
      | some p => " parentName=\"" ++ p ++ "\""
      | none => "") ++
    (if properties.isEmpty then "" else " props=\x7b" ++ properties.write ++ "\x7d")

/-- A component's call around its contents. -/
def tagAround (name : String) (parent : Option String) (properties : Json) (inner : String) :
    String :=
  tagOpening name parent properties ++ ">" ++ inner ++ "</MDXTag>"

/-- Whether a tag name is one of a list of names. Lists and objects cannot be looked up. -/
def tagIn (tags : List String) : Json → Except Failure Bool
  | .str s => .ok (tags.contains s)
  | .arr _ => .error (.badKind "unhashable type: 'list'")
  | .obj _ => .error (.badKind "unhashable type: 'dict'")
  | _ => .ok false

/-- Whether one of the nodes is a block element. -/
def anyBlock : List Node → Except Failure Bool
  | [] => .ok false
  | n :: rest =>
      if n.kind = "element" then
        match tagIn blockTags ((n.prop? "tagName").getD .null) with
        | .error e => .error e
        | .ok true => .ok true
        | .ok false => anyBlock rest
      else anyBlock rest

/-- The properties of an element. -/
def properties (h : NodeHead) : Json :=
  (h.props.lookup "properties").getD (.obj [])

/-- The tag name of an element, which must not be empty. -/
def tagName (h : NodeHead) : Except Failure Json :=
  match h.props.lookup "tagName" with
  | some tag =>
      if tag.isEmpty then .error (.generation ⟨.missingTagName, h.position⟩) else .ok tag
  | none => .error (.generation ⟨.missingTagName, h.position⟩)

/-- The rendering of an element without children. -/
def renderEmpty (parent : Option String) (h : NodeHead) : Except Failure String := do
  let tag ← tagName h
  if ← tagIn voidTags tag then return tagOpening tag.plain parent (properties h) ++ " />"
  else return tagAround tag.plain parent (properties h) ""

/-- An element's contents from the renderings of its children. -/
def layout (block : Bool) (rendered : List String) : String :=
  if block then "\n" ++ "\n".intercalate rendered ++ "\n" else String.join rendered

/-- The rendering of a node whose children do not matter. -/
def renderPlain (parent : Option String) (h : NodeHead) : Except Failure String :=
  match h.kind with
  | "text" => .ok (templateGroup (h.value.getD ""))
  | "inlineCode" =>
      .ok (tagAround "inlineCode" parent (.obj []) (templateGroup (h.value.getD "")))
  | "jsx" => .ok (h.value.getD "")
  | "import" => .error (.generation ⟨.misplacedStatement "import", h.position⟩)
  | "export" => .error (.generation ⟨.misplacedStatement "export", h.position⟩)
  | kind => .error (.generation ⟨.unknownKind kind, h.position⟩)

mutual

/-- The rendering of a node inside an element with the given tag name, or at the top. -/
def render (parent : Option String) : Node → Except Failure String
  | .leaf h => if h.kind = "element" then renderEmpty parent h else renderPlain parent h
  | .branch h cs =>
      if h.kind = "element" then
        if cs.isEmpty then renderEmpty parent h
        else do
          let tag ← tagName h
          let rendered ← renderList (some tag.plain) cs
          let block ← anyBlock cs
          return tagAround tag.plain parent (properties h) (layout block rendered)
      else renderPlain parent h

/-- The renderings of nodes inside an element with the given tag name, or at the top. -/
def renderList (parent : Option String) : List Node → Except Failure (List String)
  | [] => .ok []
  | n :: rest => do
      let first ← render parent n
      let others ← renderList parent rest
      return first :: others

end

end Mdx.Module
