import Mdx.Fault.Structure
import Mdx.Script.Group
import Mdx.Source.Basic

/-!
# Module statements

A run of `import` and `export` lines is cut into statements. A statement goes on to the first line
break where all its brackets are closed; lines inside open brackets, blank ones too, belong to it.
The run goes on while the next line starts another statement.
-/

namespace Mdx.Script

/-- A statement from its keyword at `start` up to `stop`, blanks at its end left out. -/
structure Statement where
  kind : StatementKind
  start : Nat
  stop : Nat
deriving DecidableEq, Repr, Inhabited

/-- An awaited closing bracket, and the text from its opening bracket on. -/
structure Awaited where
  closer : Char
  opened : List Char

/-- The text from the line break that ends a statement on, or the cause of a fault and the text from
where it lies. -/
def statementRest (kind : StatementKind) (stack : List Awaited) (s : List Char) :
    Except (StructureCause × List Char) (List Char) :=
  match s with
  | [] =>
      match stack with
      | [] => .ok []
      | top :: _ => .error (.missingBracket kind top.closer, top.opened)
  | c :: rest =>
      match h : literalRest? (c :: rest) with
      | some after =>
          have : after.length < rest.length + 1 := length_lt_of_literalRest? h
          statementRest kind stack after
      | none =>
          match closerOf? c with
          | some closer => statementRest kind (⟨closer, c :: rest⟩ :: stack) rest
          | none =>
              if isCloser c then
                match stack with
                | [] => .error (.strayBracket kind c, c :: rest)
                | top :: below =>
                    if top.closer != c then .error (.strayBracket kind c, c :: rest)
                    else statementRest kind below rest
              else if c == '\n' && stack.isEmpty then .ok (c :: rest)
              else statementRest kind stack rest
termination_by s.length

theorem length_statementRest_le {kind : StatementKind} {stack : List Awaited} {s r : List Char}
    (h : statementRest kind stack s = .ok r) : r.length ≤ s.length := by
  fun_induction statementRest kind stack s <;> simp_all <;> omega

theorem length_le_of_statementHere? {s body : List Char} {kind : StatementKind}
    (h : statementHere? s = some (kind, body)) : body.length ≤ s.length := by
  obtain ⟨_, _, heq⟩ := Option.map_eq_some_iff.1 h
  obtain ⟨_, rfl⟩ := Prod.mk.inj heq
  exact (List.dropWhile_suffix Text.isIndent).length_le

/-- Where a statement run fails: the cause, the text from the fault on, and how many characters the
fault takes. -/
structure RunFault where
  cause : StructureCause
  rest : List Char
  width : Nat

/-- The statements of the run whose first line starts here, with the text after the run. `total` is
the length of the whole text, in which offsets are counted. -/
def statementRun (total : Nat) (s : List Char) : Except RunFault (List Statement × List Char) :=
  match hb : statementHere? s with
  | none => .error ⟨.statementExpected, s, 0⟩
  | some (kind, body) =>
      match hr : statementRest kind [] body with
      | .error (cause, rest) => .error ⟨cause, rest, 1⟩
      | .ok rest =>
          let start := total - body.length
          let text := Text.trimEnd (body.take (body.length - rest.length))
          let statement : Statement := ⟨kind, start, start + text.length⟩
          match rest, hr with
          | [], _ => .ok ([statement], [])
          | c :: next, hr =>
              if (statementHere? next).isSome then
                have : next.length < s.length := by
                  have h₁ := length_le_of_statementHere? hb
                  have h₂ := length_statementRest_le hr
                  simp only [List.length_cons] at h₂
                  omega
                match statementRun total next with
                | .error fault => .error fault
                | .ok (more, after) => .ok (statement :: more, after)
              else .ok ([statement], c :: next)
termination_by s.length

/-- The statements of the run whose first line starts at an offset, and the offset at which the run
ends: that of a line break, or the end of the text. With the line index of the text, errors have a
position. -/
def splitStatements (src : List Char) (pos : Nat) (index : Option LineIndex) :
    Except StructureError (List Statement × Nat) :=
  match statementRun src.length (src.drop pos) with
  | .ok (statements, after) => .ok (statements, src.length - after.length)
  | .error fault =>
      let offset := src.length - fault.rest.length
      .error ⟨fault.cause, index.map fun ix => ix.span offset (offset + fault.width : Nat)⟩

end Mdx.Script
