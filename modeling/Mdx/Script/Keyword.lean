import Mdx.Text.Basic

/-!
# Statement keywords

A line starts a module statement if its first word, after spaces and tabs, is `import` or `export`
and a blank, an opening brace, an asterisk or the end of the text follows.
-/

namespace Mdx.Script

/-- The two kinds of module statement. -/
inductive StatementKind where
  | «import»
  | «export»
deriving DecidableEq, Repr, Inhabited

namespace StatementKind

/-- The keyword of a kind, which is also the kind of its nodes. -/
def keyword : StatementKind → String
  | .«import» => "import"
  | .«export» => "export"

end StatementKind

/-- Whether a keyword ends here. -/
def isKeywordEnd : List Char → Bool
  | [] => true
  | c :: _ => Text.isBlank c || c == '\x7b' || c == '*'

/-- The kind of the keyword that stands here. -/
def keywordHere? (s : List Char) : Option StatementKind :=
  match s with
  | 'i' :: 'm' :: 'p' :: 'o' :: 'r' :: 't' :: rest =>
      if isKeywordEnd rest then some .«import» else none
  | 'e' :: 'x' :: 'p' :: 'o' :: 'r' :: 't' :: rest =>
      if isKeywordEnd rest then some .«export» else none
  | _ => none

/-- The kind of the statement that starts on the line here, with the text from its keyword on. -/
def statementHere? (s : List Char) : Option (StatementKind × List Char) :=
  let body := s.dropWhile Text.isIndent
  (keywordHere? body).map fun kind => (kind, body)

/-- The kind of the statement that starts on the line at an offset. -/
def statementKeyword? (src : List Char) (pos : Nat) : Option StatementKind :=
  (statementHere? (src.drop pos)).map (·.1)

end Mdx.Script
