import Mdx.Fault.Failure
import Mdx.Markdown.Syntax

/-!
# Running text

The nodes of running text. Pieces of text that follow each other, and the line breaks between them,
are one text node.
-/

namespace Mdx.Generic

open Mdx.Markdown

/-- Nodes, last first, with text added at the end. -/
def addText (content : String) : List Node → List Node
  | [] => [Node.ofText content none]
  | last :: before =>
      if last.kind = "text" then last.withHead { last.head with value := some (last.text ++ content) } :: before
      else Node.ofText content none :: last :: before

/-- A container of running text. -/
def containerNode (kind : String) (children : List Node) : Node :=
  .branch { kind := kind } children

/-- A link around its text. -/
def linkNode (h : SyntaxHead) (children : List Node) : Node :=
  .branch
    { kind := "link"
      props := [("url", (h.attrs.lookup "href").getD (.str "")),
        ("title", (h.attrs.lookup "title").getD .null)] }
    children

/-- An image; the text of what it contains is its description. -/
def imageNode (h : SyntaxHead) (children : List Node) : Node :=
  .leaf
    { kind := "image"
      props := [("url", (h.attrs.lookup "src").getD (.str "")),
        ("alt", .str (Node.literalTexts children)),
        ("title", (h.attrs.lookup "title").getD .null)] }

/-- A node for a piece of running text that is no plain text, from the nodes of what it contains. -/
def inlineNode (h : SyntaxHead) (children : List Node) : Except Failure Node :=
  match h.kind with
  | "hardbreak" => .ok (.leaf { kind := "break" })
  | "code_inline" => .ok (.leaf { kind := "inlineCode", value := some h.content })
  | "em" => .ok (containerNode "emphasis" children)
  | "strong" => .ok (containerNode "strong" children)
  | "s" => .ok (containerNode "delete" children)
  | "link" => .ok (linkNode h children)
  | "image" => .ok (imageNode h children)
  | "html_inline" => .ok (.leaf { kind := "html", value := some h.content })
  | kind => .error (.structural ⟨.unsupportedInline kind, none⟩)

/-- Whether what a piece of running text contains is looked at. -/
def hasContents (kind : String) : Bool :=
  ["em", "strong", "s", "link", "image"].contains kind

mutual

/-- The nodes, last first, with the nodes for a piece of running text added. -/
def addInline (done : List Node) : Syntax → Except Failure (List Node)
  | .node h cs =>
      if h.kind = "text" then .ok (addText h.content done)
      else if h.kind = "softbreak" then .ok (addText "\n" done)
      else if hasContents h.kind then
        match addInlines [] cs with
        | .error e => .error e
        | .ok children =>
            match inlineNode h children.reverse with
            | .error e => .error e
            | .ok n => .ok (n :: done)
      else
        match inlineNode h [] with
        | .error e => .error e
        | .ok n => .ok (n :: done)

/-- The nodes, last first, with the nodes for pieces of running text added. -/
def addInlines (done : List Node) : List Syntax → Except Failure (List Node)
  | [] => .ok done
  | s :: rest =>
      match addInline done s with
      | .error e => .error e
      | .ok done => addInlines done rest

end

/-- The nodes of running text. -/
def inlines (pieces : List Syntax) : Except Failure (List Node) :=
  (addInlines [] pieces).map List.reverse

/-- The nodes of the running text in a block. -/
def inlineContent : List Syntax → Except Failure (List Node)
  | [] => .ok []
  | s :: rest =>
      if s.kind = "inline" then do
        let first ← inlines s.children
        let others ← inlineContent rest
        return first ++ others
      else inlineContent rest

end Mdx.Generic
