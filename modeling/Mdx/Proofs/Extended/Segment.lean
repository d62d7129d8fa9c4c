import Mdx.Extended.Statement
import Mdx.Proofs.Script.Run

/-!
# Segments of the top level

Extracting statements cuts the top-level nodes into consecutive segments.  A segment is one node that
is kept, or a run: a paragraph and the nodes after it that its statements cover, with the statement
nodes written in their place.  `Extraction doc nodes segs` says that `segs` are the segments of
`nodes`; extraction writes exactly what its segments write (`extractStatements_eq_ok_iff`).
-/

namespace Mdx.Extended

open Mdx.Script

/-- A stretch of the top level, and what is written for it. -/
inductive Segment where
  /-- One node that stays. -/
  | kept (n : Node)
  /-- Nodes, at least one, that statement nodes take the place of. -/
  | run (first : Node) (more : List Node) (statements : List Node)

namespace Segment

/-- The nodes that a segment is made of. -/
def taken : Segment → List Node
  | kept n => [n]
  | run first more _ => first :: more

/-- The nodes that a segment writes. -/
def written : Segment → List Node
  | kept n => [n]
  | run _ _ statements => statements

/-- The node that a segment keeps, if it keeps one. -/
def keeps : Segment → List Node
  | kept n => [n]
  | run _ _ _ => []

/-- The nodes that a run consumes. -/
def consumes : Segment → List Node
  | kept _ => []
  | run first more _ => first :: more

/-- The statement nodes of a run. -/
def emits : Segment → List Node
  | kept _ => []
  | run _ _ statements => statements

end Segment

/-- The node for a statement of a document. -/
def sourceNode (doc : Document) (st : Statement) : Node :=
  statementNode doc.text (some (doc.lines.span (st.start : Nat) (st.stop : Nat))) st

/-- The segments of the top-level nodes. -/
inductive Extraction (doc : Option Document) : List Node → List Segment → Prop
  | nil : Extraction doc [] []
  | content {n : Node} {rest : List Node} {segs : List Segment} (ho : opening doc n = .content)
      (h : Extraction doc rest segs) : Extraction doc (n :: rest) (.kept n :: segs)
  | textRun {n : Node} {rest found : List Node} {segs : List Segment} {kind : StatementKind}
      {literal : List Char} (ho : opening doc n = .textRun kind literal)
      (hf : runFromText kind literal n.position = .ok found) (h : Extraction doc rest segs) :
      Extraction doc (n :: rest) (.run n [] found :: segs)
  | sourceRun {n : Node} {rest found : List Node} {segs : List Segment} {d : Document}
      {kind : StatementKind} {start : Int} {stop : Nat} (ho : opening doc n = .sourceRun d kind start)
      (hf : runFromSource d kind start n rest = .ok (found, stop))
      (h : Extraction doc (rest.dropWhile (startsBefore stop)) segs) :
      Extraction doc (n :: rest) (.run n (rest.takeWhile (startsBefore stop)) found :: segs)

/-! ### What opens a run -/

/-- Only a paragraph that has a position in a known document, and a statement keyword there, opens a
run in the source. -/
theorem opening_eq_sourceRun {doc : Option Document} {n : Node} {d : Document}
    {kind : StatementKind} {start : Int} (h : opening doc n = .sourceRun d kind start) :
    doc = some d ∧ n.kind = "paragraph" ∧
      ∃ p : Position, n.position = some p ∧ start = p.start.offset ∧
        statementKeyword? d.text start.toNat = some kind := by
  unfold opening at h
  split at h
  next hkind =>
    split at h
    next d' p hpos =>
      split at h
      next kind' hkey =>
        cases h
        exact ⟨rfl, hkind, p, hpos, rfl, hkey⟩
      · cases h
    · dsimp only at h
      split at h <;> cases h
  · cases h

/-- Only a paragraph without a position, or without a known document, opens a run in its own text. -/
theorem opening_eq_textRun {doc : Option Document} {n : Node} {kind : StatementKind}
    {literal : List Char} (h : opening doc n = .textRun kind literal) :
    n.kind = "paragraph" ∧ (doc = none ∨ n.position = none) := by
  unfold opening at h
  split at h
  next hkind =>
    refine ⟨hkind, ?_⟩
    cases doc with
    | none => exact .inl rfl
    | some d =>
      cases hpos : n.position with
      | none => exact .inr rfl
      | some p =>
        rw [hpos] at h
        dsimp only at h
        split at h <;> cases h
  · cases h

theorem lt_length_of_statementKeyword? {src : List Char} {pos : Nat} {kind : StatementKind}
    (h : statementKeyword? src pos = some kind) : pos < src.length := by
  by_contra hle
  rw [statementKeyword?, List.drop_eq_nil_of_le (by omega)] at h
  cases h

/-- What a run of the source is: the statements at the offset, the last covered node not reaching
past them. -/
theorem runFromSource_eq_ok {d : Document} {kind : StatementKind} {start : Int} {first : Node}
    {rest found : List Node} {stop : Nat}
    (h : runFromSource d kind start first rest = .ok (found, stop)) :
    ∃ sts : List Statement, splitStatements d.text start.toNat (some d.lines) = .ok (sts, stop) ∧
      ((lastCovered stop first rest).position.map (·.stop.offset)).getD 0 ≤ (stop : Int) ∧
      found = sts.map (sourceNode d) := by
  unfold runFromSource at h
  split at h
  · cases h
  next sts stop' hsplit =>
    dsimp only at h
    split at h
    · cases h
    next hlast =>
      cases h
      exact ⟨sts, hsplit, by omega, rfl⟩

/-- What a run of a paragraph's own text is: the statements at its start, and blanks. -/
theorem runFromText_eq_ok {kind : StatementKind} {literal : List Char} {position : Option Position}
    {found : List Node} (h : runFromText kind literal position = .ok found) :
    ∃ (sts : List Statement) (stop : Nat), splitStatements literal 0 none = .ok (sts, stop) ∧
      Text.isBlankText (literal.drop stop) = true ∧
      found = sts.map (statementNode literal none) := by
  unfold runFromText at h
  split at h
  · cases h
  next sts stop hsplit =>
    split at h
    next hblank =>
      cases h
      exact ⟨sts, stop, hsplit, hblank, rfl⟩
    · cases h

theorem startsBefore_of_sourceRun {doc : Option Document} {n : Node} {d : Document}
    {kind : StatementKind} {start : Int} {rest found : List Node} {stop : Nat}
    (ho : opening doc n = .sourceRun d kind start)
    (hf : runFromSource d kind start n rest = .ok (found, stop)) : startsBefore stop n = true := by
  obtain ⟨-, -, p, hp, rfl, hkey⟩ := opening_eq_sourceRun ho
  obtain ⟨sts, hsplit, -, -⟩ := runFromSource_eq_ok hf
  have hrun := isRun_of_splitStatements (lt_length_of_statementKeyword? hkey).le hsplit
  obtain ⟨st, hst⟩ := List.exists_mem_of_ne_nil sts hrun.ne_nil
  have := hrun.inside st hst
  rw [startsBefore, hp, Option.any_some, decide_eq_true_eq]
  omega

/-! ### Extraction writes what its segments write -/

theorem Extraction.flatMap_taken {doc : Option Document} {nodes : List Node} {segs : List Segment}
    (h : Extraction doc nodes segs) : segs.flatMap Segment.taken = nodes := by
  induction h with
  | nil => rfl
  | content ho h ih => rw [List.flatMap_cons, ih]; rfl
  | textRun ho hf h ih => rw [List.flatMap_cons, ih]; rfl
  | sourceRun ho hf h ih =>
    rw [List.flatMap_cons, ih, Segment.taken, List.cons_append, List.takeWhile_append_dropWhile]

section Step

variable {doc : Option Document} {n : Node} {rest : List Node}

theorem extractStatements_content (ho : opening doc n = .content) :
    extractStatements doc (n :: rest) = (extractStatements doc rest).map (n :: ·) := by
  rw [extractStatements, ho]
  cases extractStatements doc rest <;> rfl

theorem extractStatements_textRun {kind : StatementKind} {literal : List Char} {found : List Node}
    (ho : opening doc n = .textRun kind literal)
    (hf : runFromText kind literal n.position = .ok found) :
    extractStatements doc (n :: rest) = (extractStatements doc rest).map (found ++ ·) := by
  rw [extractStatements, ho]
  simp only [hf]
  cases extractStatements doc rest <;> rfl

theorem extractStatements_sourceRun {d : Document} {kind : StatementKind} {start : Int}
    {found : List Node} {stop : Nat} (ho : opening doc n = .sourceRun d kind start)
    (hf : runFromSource d kind start n rest = .ok (found, stop)) :
    extractStatements doc (n :: rest) =
      (extractStatements doc (rest.dropWhile (startsBefore stop))).map (found ++ ·) := by
  have hcount : coveredCount stop (n :: rest) - 1 = (rest.takeWhile (startsBefore stop)).length := by
    rw [coveredCount, List.takeWhile_cons_of_pos (startsBefore_of_sourceRun ho hf),
      List.length_cons, Nat.add_sub_cancel]
  have hdrop : rest.drop (coveredCount stop (n :: rest) - 1) =
      rest.dropWhile (startsBefore stop) := by
    rw [hcount, drop_length_takeWhile]
  rw [extractStatements, ho]
  simp only [hf, hdrop]
  cases extractStatements doc (rest.dropWhile (startsBefore stop)) <;> rfl

end Step

theorem Extraction.extractStatements_eq {doc : Option Document} {nodes : List Node}
    {segs : List Segment} (h : Extraction doc nodes segs) :
    extractStatements doc nodes = .ok (segs.flatMap Segment.written) := by
  induction h with
  | nil => rw [extractStatements]; rfl
  | content ho h ih => rw [extractStatements_content ho, ih]; rfl
  | textRun ho hf h ih => rw [extractStatements_textRun ho hf, ih]; rfl
  | sourceRun ho hf h ih => rw [extractStatements_sourceRun ho hf, ih]; rfl

theorem exists_extraction {doc : Option Document} : ∀ {nodes out : List Node},
    extractStatements doc nodes = .ok out → ∃ segs : List Segment, Extraction doc nodes segs := by
  intro nodes
  induction hn : nodes.length using Nat.strong_induction_on generalizing nodes with
  | _ k ih =>
    subst hn
    intro out h
    cases nodes with
    | nil => exact ⟨[], .nil⟩
    | cons n rest =>
      cases ho : opening doc n with
      | content =>
        rw [extractStatements_content ho] at h
        cases hrest : extractStatements doc rest with
        | error e =>
          rw [hrest] at h
          cases h
        | ok out' =>
          obtain ⟨segs, hsegs⟩ := ih rest.length (by simp) rfl hrest
          exact ⟨_, .content ho hsegs⟩
      | textRun kind literal =>
        cases hf : runFromText kind literal n.position with
        | error e => simp [extractStatements, ho, hf] at h
        | ok found =>
          rw [extractStatements_textRun ho hf] at h
          cases hrest : extractStatements doc rest with
          | error e =>
            rw [hrest] at h
            cases h
          | ok out' =>
            obtain ⟨segs, hsegs⟩ := ih rest.length (by simp) rfl hrest
            exact ⟨_, .textRun ho hf hsegs⟩
      | sourceRun d kind start =>
        cases hf : runFromSource d kind start n rest with
        | error e => simp [extractStatements, ho, hf] at h
        | ok r =>
          obtain ⟨found, stop⟩ := r
          rw [extractStatements_sourceRun ho hf] at h
          cases hrest : extractStatements doc (rest.dropWhile (startsBefore stop)) with
          | error e =>
            rw [hrest] at h
            cases h
          | ok out' =>
            have hlt : (rest.dropWhile (startsBefore stop)).length < (n :: rest).length :=
              Nat.lt_succ_of_le (List.dropWhile_suffix _).length_le
            obtain ⟨segs, hsegs⟩ := ih _ hlt rfl hrest
            exact ⟨_, .sourceRun ho hf hsegs⟩

/-- **Extraction succeeds exactly if the nodes have segments, and writes what they write.** -/
theorem extractStatements_eq_ok_iff {doc : Option Document} {nodes out : List Node} :
    extractStatements doc nodes = .ok out ↔
      ∃ segs : List Segment, Extraction doc nodes segs ∧ segs.flatMap Segment.written = out := by
  constructor
  · intro h
    obtain ⟨segs, hsegs⟩ := exists_extraction h
    exact ⟨segs, hsegs, Except.ok.inj (hsegs.extractStatements_eq.symm.trans h)⟩
  · rintro ⟨segs, hsegs, rfl⟩
    exact hsegs.extractStatements_eq

/-- A node is written for a statement: for one of the document, or without a position. -/
def IsWritten (doc : Option Document) (m : Node) : Prop :=
  ∃ (src : List Char) (position : Option Position) (st : Statement),
    m = statementNode src position st ∧
      (position = none ∨ ∃ d : Document, doc = some d ∧ m = sourceNode d st ∧
        st.start < st.stop ∧ st.stop ≤ d.text.length)

/-- Every node that is written stood there before or is written for a statement. -/
theorem Extraction.mem_written {doc : Option Document} {nodes : List Node} {segs : List Segment}
    (h : Extraction doc nodes segs) {m : Node} (hm : m ∈ segs.flatMap Segment.written) :
    m ∈ nodes ∨ IsWritten doc m := by
  induction h with
  | nil => cases hm
  | @content n rest segs ho h ih =>
    rw [List.flatMap_cons, Segment.written, List.singleton_append, List.mem_cons] at hm
    rcases hm with rfl | hm
    · exact .inl List.mem_cons_self
    · exact (ih hm).imp_left (List.mem_cons_of_mem n)
  | @textRun n rest found segs kind literal ho hf h ih =>
    rw [List.flatMap_cons, Segment.written, List.mem_append] at hm
    rcases hm with hm | hm
    · obtain ⟨sts, -, -, -, rfl⟩ := runFromText_eq_ok hf
      obtain ⟨st, -, rfl⟩ := List.mem_map.mp hm
      exact .inr ⟨literal, none, st, rfl, .inl rfl⟩
    · exact (ih hm).imp_left (List.mem_cons_of_mem n)
  | @sourceRun n rest found segs d kind start stop ho hf h ih =>
    rw [List.flatMap_cons, Segment.written, List.mem_append] at hm
    rcases hm with hm | hm
    · obtain ⟨hdoc, -, -, -, -, hkey⟩ := opening_eq_sourceRun ho
      obtain ⟨sts, hsplit, -, rfl⟩ := runFromSource_eq_ok hf
      have hrun := isRun_of_splitStatements (lt_length_of_statementKeyword? hkey).le hsplit
      obtain ⟨st, hst, rfl⟩ := List.mem_map.mp hm
      obtain ⟨-, hlt, hle⟩ := hrun.inside st hst
      exact .inr ⟨d.text, _, st, rfl, .inr ⟨d, hdoc, rfl, hlt, hle.trans hrun.stop_le⟩⟩
    · refine (ih hm).imp_left fun hmem => List.mem_cons_of_mem n ?_
      exact (List.dropWhile_subset _) hmem

end Mdx.Extended
