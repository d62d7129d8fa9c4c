import Mdx.Json.Basic

/-!
# Syntax of a Markdown document

The grammar gives a stream of tokens, in which a container is an opening token, the tokens of its
contents and a closing token. `Syntax.ofTokens` makes trees of them.
-/

namespace Mdx.Markdown

/-- A token or a piece of syntax without what it contains. The lines are the first one of the piece
and the first one after it, counted from zero; in tokens from elsewhere they may be negative. -/
structure SyntaxHead where
  kind : String
  tag : String := ""
  attrs : Json.Members := []
  lines : Option (Int × Int) := none
  content : String := ""
  info : String := ""
  hidden : Bool := false
deriving Inhabited

/-- How a token changes the depth of nesting. -/
inductive Nesting where
  | opening
  | closing
  | single
deriving DecidableEq, Repr, Inhabited

/-- A token. Running text is a single token that has tokens of its own. -/
inductive Token where
  | mk (head : SyntaxHead) (nesting : Nesting) (tokens : List Token)
deriving Inhabited

namespace Token

/-- The token without the tokens in it. -/
def head : Token → SyntaxHead
  | .mk h _ _ => h

/-- How the token changes the depth of nesting. -/
def nesting : Token → Nesting
  | .mk _ n _ => n

end Token

/-- A piece of syntax with what it contains. -/
inductive Syntax where
  | node (head : SyntaxHead) (children : List Syntax)
deriving Inhabited

namespace Syntax

/-- The piece of syntax without what it contains. -/
def head : Syntax → SyntaxHead
  | .node h _ => h

/-- What the piece of syntax contains. -/
def children : Syntax → List Syntax
  | .node _ cs => cs

/-- The kind of a piece of syntax. -/
def kind (s : Syntax) : String :=
  s.head.kind

/-- The kind of a container, from that of its opening token. -/
def containerKind (kind : String) : String :=
  let chars := kind.toList
  let suffix := "_open".toList
  if suffix.isSuffixOf chars then String.ofList (chars.take (chars.length - suffix.length))
  else kind

/-- A container whose contents are being read: its opening token, and the pieces before it, last
first. -/
structure OpenContainer where
  head : SyntaxHead
  before : List Syntax

mutual

/-- A single token as a piece of syntax. -/
def ofSingle : Token → Syntax
  | .mk h _ tokens => .node h (ofStream [] [] tokens)

/-- The pieces that a token stream makes, with the open containers on the stack and the pieces read
so far, last first. -/
def ofStream (stack : List OpenContainer) (pieces : List Syntax) : List Token → List Syntax
  | [] => pieces.reverse
  | t :: rest =>
      match t.nesting with
      | .single => ofStream stack (ofSingle t :: pieces) rest
      | .opening => ofStream (⟨t.head, pieces⟩ :: stack) [] rest
      | .closing =>
          match stack with
          | [] => ofStream [] pieces rest
          | o :: below =>
              let head := { o.head with kind := containerKind o.head.kind }
              ofStream below (.node head pieces.reverse :: o.before) rest

end

/-- The pieces of syntax that a balanced token stream makes. -/
def ofTokens (tokens : List Token) : List Syntax :=
  ofStream [] [] tokens

end Syntax

end Mdx.Markdown
