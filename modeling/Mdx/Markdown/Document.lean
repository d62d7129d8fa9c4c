import Mdx.Generic.Basic
import Mdx.Markdown.Block.Parser
import Mdx.Markdown.Inline.Parser

/-!
# Markdown documents

A document is read in two steps. First its blocks are found, and with them the definitions of links;
then the running text in the blocks is read.
-/

namespace Mdx.Markdown

mutual

/-- A piece of syntax with its running text read. -/
def readText (definitions : List Definition) : Syntax → Syntax
  | .node h cs =>
      if h.kind = "inline" then .node h (parseInline definitions h.content.toList)
      else .node h (readTexts definitions cs)

/-- Pieces of syntax with their running text read. -/
def readTexts (definitions : List Definition) : List Syntax → List Syntax
  | [] => []
  | s :: rest => readText definitions s :: readTexts definitions rest

end

/-- The syntax of a document. -/
def parseSyntax (text : List Char) : Except Failure (List Syntax) :=
  let blocks := parseBlocks (normalize text)
  if blocks.overrun then .error (.outOfRange "string index out of range")
  else .ok (readTexts blocks.definitions blocks.found)

/-- The tree of a document. -/
def parse (text : List Char) : Except Failure Node := do
  Generic.ofSyntax text (← parseSyntax text)

end Mdx.Markdown
