import Mdx.Node.Basic
import Mdx.Script.Statement
import Mdx.Source.Basic

/-!
# Statements in place of paragraphs

A paragraph at the top level of a document that opens with a statement keyword is no paragraph. It
and all the nodes that its run of statements covers are replaced by one node for each statement,
whose value is the exact piece of the source. If the source is not known, or the paragraph has no
position in it, the statements are read from the paragraph's text instead.

A run may not end in the middle of a node: other content that follows on its lines is an error.
-/

namespace Mdx.Extended

open Mdx.Script

/-- The document that a tree was parsed from. -/
structure Document where
  text : List Char
  lines : LineIndex

/-- The document with this text. -/
def Document.ofText (text : List Char) : Document where
  text := text
  lines := LineIndex.ofText text

/-- A node for a statement. -/
def statementNode (src : List Char) (position : Option Position) (s : Statement) : Node :=
  .leaf
    { kind := s.kind.keyword
      value := some (String.ofList (slice src s.start s.stop))
      position := position }

/-- The kind of the last statement of a run that starts with a statement of kind `first`. -/
def lastKind (first : StatementKind) (statements : List Statement) : StatementKind :=
  (statements.getLast?.map (·.kind)).getD first

/-- Whether a node starts before the offset. -/
def startsBefore (stop : Nat) (n : Node) : Bool :=
  n.position.any fun p => p.start.offset < (stop : Int)

/-- The last of the nodes that a run covers; the run starts with the node `first`. -/
def lastCovered (stop : Nat) (first : Node) (rest : List Node) : Node :=
  ((first :: rest).takeWhile (startsBefore stop)).getLastD first

/-- How many nodes a run covers. -/
def coveredCount (stop : Nat) (nodes : List Node) : Nat :=
  (nodes.takeWhile (startsBefore stop)).length

/-- The statements of the run that starts at an offset of the document, as nodes, and the offset at
which the run ends. The nodes from `first` on have to end where the run does. -/
def runFromSource (doc : Document) (kind : StatementKind) (start : Int) (first : Node)
    (rest : List Node) : Except StructureError (List Node × Nat) :=
  match splitStatements doc.text start.toNat (some doc.lines) with
  | .error e => .error e
  | .ok (statements, stop) =>
      let last := ((lastCovered stop first rest).position.map (·.stop.offset)).getD 0
      if (stop : Int) < last then
        .error ⟨.trailingContent (lastKind kind statements),
          some (doc.lines.span (stop + 1 : Nat) last)⟩
      else
        .ok (statements.map fun s =>
          statementNode doc.text (some (doc.lines.span (s.start : Nat) (s.stop : Nat))) s, stop)

/-- The statements in the text of a paragraph that has no place in a known source, as nodes. -/
def runFromText (kind : StatementKind) (literal : List Char) (position : Option Position) :
    Except StructureError (List Node) :=
  match splitStatements literal 0 none with
  | .error e => .error e
  | .ok (statements, stop) =>
      if Text.isBlankText (literal.drop stop) then
        .ok (statements.map (statementNode literal none))
      else .error ⟨.trailingContent (lastKind kind statements), position⟩

/-- What a top-level node opens. -/
inductive Opening where
  /-- A run of statements at an offset of the document. -/
  | sourceRun (doc : Document) (kind : StatementKind) (start : Int)
  /-- A run of statements in the node's own text. -/
  | textRun (kind : StatementKind) (literal : List Char)
  /-- Nothing but itself. -/
  | content

/-- What a top-level node opens. -/
def opening (doc : Option Document) (n : Node) : Opening :=
  if n.kind = "paragraph" then
    match doc, n.position with
    | some d, some p =>
        match statementKeyword? d.text p.start.offset.toNat with
        | some kind => .sourceRun d kind p.start.offset
        | none => .content
    | _, _ =>
        let literal := n.literalText.toList
        match statementKeyword? literal 0 with
        | some kind => .textRun kind literal
        | none => .content
  else .content

/-- The top-level nodes with statements in place of the paragraphs that hold them. -/
def extractStatements (doc : Option Document) (nodes : List Node) :
    Except StructureError (List Node) :=
  match nodes with
  | [] => .ok []
  | n :: rest =>
      match opening doc n with
      | .content =>
          match extractStatements doc rest with
          | .error e => .error e
          | .ok out => .ok (n :: out)
      | .textRun kind literal =>
          match runFromText kind literal n.position with
          | .error e => .error e
          | .ok found =>
              match extractStatements doc rest with
              | .error e => .error e
              | .ok out => .ok (found ++ out)
      | .sourceRun d kind start =>
          match runFromSource d kind start n rest with
          | .error e => .error e
          | .ok (found, stop) =>
              match extractStatements doc (rest.drop (coveredCount stop (n :: rest) - 1)) with
              | .error e => .error e
              | .ok out => .ok (found ++ out)
termination_by nodes.length

end Mdx.Extended
