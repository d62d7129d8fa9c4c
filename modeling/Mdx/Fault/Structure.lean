import Mdx.Element.Token
import Mdx.Script.Keyword
import Mdx.Source.Basic

/-!
# Structural errors

A source text, or a tree that is handed from one stage to the next, may fail to be well formed. An
error has its cause and the best known position of the fault; `StructureError.message` is its text.
-/

namespace Mdx

/-- Why a text or a tree is malformed. -/
inductive StructureCause where
  /-- The embedded markup cannot be cut into tokens. -/
  | lexical (cause : Element.LexicalCause)
  /-- A closing tag has no opening tag. -/
  | strayClosingTag (name : String)
  /-- A closing tag stands where another one is awaited. -/
  | wrongClosingTag (expected found : String)
  /-- An element is not closed. -/
  | unterminatedElement (name : String)
  /-- No statement starts where one has to. -/
  | statementExpected
  /-- A statement's bracket is not closed. -/
  | missingBracket (kind : Script.StatementKind) (closer : Char)
  /-- A statement's closing bracket does not match. -/
  | strayBracket (kind : Script.StatementKind) (closer : Char)
  /-- Other content follows a statement on its lines. -/
  | trailingContent (kind : Script.StatementKind)
  /-- The tree's top is not a root node. -/
  | notRooted (stage found : String)
  /-- A value that is no node is in the tree. -/
  | strayValue (stage shown : String)
  /-- A node's kind is not in the stage's vocabulary. -/
  | unknownKind (stage kind : String)
  /-- A walk removes the root. -/
  | rootRemoved
  /-- The Markdown grammar yields a block that trees have no kind for. -/
  | unsupportedBlock (kind : String)
  /-- The Markdown grammar yields a piece of inline text that trees have no kind for. -/
  | unsupportedInline (kind : String)
  /-- A heading's depth is not from one to six. -/
  | headingDepth (depth : Int)
  /-- A table has a child that is no row. -/
  | rowExpected (found : String)
  /-- A row has a child that is no cell. -/
  | cellExpected (found : String)
  /-- A node's kind has no markup. -/
  | unmappedKind (kind : String)
deriving DecidableEq, Repr

namespace StructureCause

/-- The wording of a cause. -/
def reason : StructureCause → String
  | .lexical cause => cause.reason
  | .strayClosingTag name => "Unexpected closing tag </" ++ name ++ ">"
  | .wrongClosingTag expected found =>
      "Expected closing tag </" ++ expected ++ "> but found </" ++ found ++ ">"
  | .unterminatedElement name => "Unterminated <" ++ name ++ "> element"
  | .statementExpected => "Expected an import or export statement"
  | .missingBracket kind closer =>
      "Unbalanced bracket in " ++ kind.keyword ++ " statement: missing '" ++ closer.toString ++
        "' before end of document"
  | .strayBracket kind closer =>
      "Unexpected '" ++ closer.toString ++ "' in " ++ kind.keyword ++ " statement"
  | .trailingContent kind =>
      "Unexpected content after " ++ kind.keyword ++
        " statement (separate it with a blank line)"
  | .notRooted stage found => stage ++ ": expected a 'root' node, got '" ++ found ++ "'"
  | .strayValue stage shown => stage ++ ": non-node object " ++ shown ++ " in tree"
  | .unknownKind stage kind => stage ++ ": unknown node kind '" ++ kind ++ "'"
  | .rootRemoved => "Cannot remove the root node"
  | .unsupportedBlock kind => "Unsupported block token '" ++ kind ++ "'"
  | .unsupportedInline kind => "Unsupported inline token '" ++ kind ++ "'"
  | .headingDepth depth => "Invalid heading depth " ++ toString depth
  | .rowExpected found => "Expected a tableRow inside a table, got '" ++ found ++ "'"
  | .cellExpected found => "Expected a tableCell inside a tableRow, got '" ++ found ++ "'"
  | .unmappedKind kind => "No markup mapping for node kind '" ++ kind ++ "'"

end StructureCause

/-- A structural error. -/
structure StructureError where
  cause : StructureCause
  position : Option Position
deriving DecidableEq, Repr

namespace StructureError

/-- The wording of an error without its place. -/
def reason (e : StructureError) : String :=
  e.cause.reason

/-- The text of an error. -/
def message (e : StructureError) : String :=
  located e.reason e.position

end StructureError

end Mdx
