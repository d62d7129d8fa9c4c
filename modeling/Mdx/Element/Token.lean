import Mdx.Text.Quoted

/-!
# Tokens of embedded markup

Embedded markup is cut into tags, comments and the text between them. A token has its span in the
markup and, if it is a tag, its name; a fragment's tags have the empty name.
-/

namespace Mdx.Element

/-- The kinds of token. -/
inductive TokenKind where
  | openTag
  | selfClosing
  | closeTag
  | comment
  | text
deriving DecidableEq, Repr, Inhabited

/-- A piece of markup from the offset `start` up to `stop`. -/
structure Token where
  kind : TokenKind
  name : String
  start : Nat
  stop : Nat
deriving DecidableEq, Repr, Inhabited

/-- Why markup cannot be cut into tokens. -/
inductive LexicalCause where
  | unterminatedComment
  | malformedClosingTag
  | unterminatedTag (name : String)
  | unbalancedExpression (name : String)
  | unexpectedCharacter (c : Char) (name : String)
  | missingValue (name : String)
  | unterminatedValue (name : String)
  | invalidValue (name : String)
deriving DecidableEq, Repr

/-- The wording of a lexical fault. -/
def LexicalCause.reason : LexicalCause → String
  | .unterminatedComment => "Unterminated comment"
  | .malformedClosingTag => "Malformed closing tag"
  | .unterminatedTag name => "Unterminated <" ++ name ++ "> tag"
  | .unbalancedExpression name => "Unbalanced expression in <" ++ name ++ "> tag"
  | .unexpectedCharacter c name =>
      "Unexpected character " ++ String.ofList (Text.quoted [c]) ++ " in <" ++ name ++ "> tag"
  | .missingValue name => "Missing attribute value in <" ++ name ++ "> tag"
  | .unterminatedValue name => "Unterminated attribute value in <" ++ name ++ "> tag"
  | .invalidValue name => "Invalid attribute value in <" ++ name ++ "> tag"

/-- A lexical fault and its offset. -/
structure LexicalFault where
  cause : LexicalCause
  offset : Nat
deriving DecidableEq, Repr

end Mdx.Element
