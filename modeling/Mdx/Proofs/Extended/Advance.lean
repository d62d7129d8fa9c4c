import Mdx.Proofs.Extended.Segment
import Mdx.Proofs.Fault.Result

/-!
# Extraction goes on by at least one node

Extraction may be seen as a loop over an index into the top-level nodes.  A turn puts out nodes and moves the
index; where it reads a run of statements in the source, it moves past the nodes that the run covers and looks
at the last one of these.  Nothing in the loop says that there is such a node, that the run has a statement,
or that the index moves at all.

`loopFrom` is this loop with all these lookups in it, and with a bound on its turns.  A lookup that finds
nothing, like a bound that is too small, gives no result.  It gives one for every list of nodes, that of
`extractStatements`, within as many turns as there are nodes (`loopFrom_eq`): the keyword of the first
statement is part of the run, so the run ends after the start of the paragraph that opens it (`advances`).
-/

namespace Mdx.Script

/-! ### What splitting fails on -/

theorem cause_of_statementRest {kind : StatementKind} {stack : List Awaited} {s rest : List Char}
    {cause : StructureCause} (h : statementRest kind stack s = .error (cause, rest)) :
    cause ≠ .statementExpected := by
  fun_induction statementRest kind stack s with
  | case1 => cases h
  | case2 top below =>
    cases h
    exact StructureCause.noConfusion
  | case3 stack c tail after _ _ ih => exact ih h
  | case4 stack c tail _ closer _ ih => exact ih h
  | case5 c tail =>
    cases h
    exact StructureCause.noConfusion
  | case6 c tail _ _ _ top below =>
    cases h
    exact StructureCause.noConfusion
  | case7 c tail _ _ _ top below _ ih => exact ih h
  | case8 => cases h
  | case9 stack c tail _ _ _ _ ih => exact ih h

/-- **A statement is missed only at the start of a run**: the lines after it are looked at before. -/
theorem statementHere?_of_expected {total : Nat} {s : List Char} {fault : RunFault}
    (h : statementRun total s = .error fault) (hcause : fault.cause = .statementExpected) :
    statementHere? s = none := by
  induction hn : s.length using Nat.strong_induction_on generalizing s with
  | _ n ih =>
    subst hn
    cases hhere : statementHere? s with
    | none => rfl
    | some found =>
      obtain ⟨kind, body⟩ := found
      exfalso
      cases hrest : statementRest kind [] body with
      | error e =>
        rw [statementRun_error hhere hrest] at h
        cases h
        exact cause_of_statementRest hrest hcause
      | ok rest =>
        by_cases hnext : ∃ c next, rest = c :: next ∧ (statementHere? next).isSome = true
        · obtain ⟨c, next, rfl, hsome⟩ := hnext
          have hbody := length_le_of_statementHere? hhere
          have hlength := length_statementRest_le hrest
          rw [List.length_cons] at hlength
          rw [statementRun_more hhere hrest hsome] at h
          cases hrun : statementRun total next with
          | error fault' =>
            rw [hrun] at h
            cases h
            rw [ih next.length (by omega) hrun rfl] at hsome
            cases hsome
          | ok r =>
            rw [hrun] at h
            cases h
        · have hlast : ∀ c next, rest = c :: next → statementHere? next = none := by
            intro c next heq
            rw [← Option.not_isSome_iff_eq_none]
            exact fun hsome => hnext ⟨c, next, heq, hsome⟩
          rw [statementRun_last hhere hrest hlast] at h
          cases h

theorem cause_of_splitStatements {src : List Char} {pos : Nat} {index : Option LineIndex}
    {kind : StatementKind} (hkey : statementKeyword? src pos = some kind) {e : StructureError}
    (h : splitStatements src pos index = .error e) : e.cause ≠ .statementExpected := by
  intro hcause
  unfold splitStatements at h
  split at h
  · cases h
  next fault hrun =>
    cases h
    rw [statementKeyword?, statementHere?_of_expected hrun hcause] at hkey
    cases hkey

end Mdx.Script

namespace Mdx.Extended

open Mdx.Script

variable {doc : Option Document} {n : Node} {d : Document} {kind : StatementKind}

/-- A paragraph of the document with a keyword at its start opens a run there. -/
theorem opening_of_keyword {p : Position} (hk : n.kind = "paragraph") (hp : n.position = some p)
    (hkey : statementKeyword? d.text p.start.offset.toNat = some kind) :
    opening (some d) n = .sourceRun d kind p.start.offset := by
  unfold opening
  rw [if_pos hk, hp]
  dsimp only
  rw [hkey]

theorem keyword_of_textRun {literal : List Char} (h : opening doc n = .textRun kind literal) :
    statementKeyword? literal 0 = some kind := by
  unfold opening at h
  split at h
  · split at h
    · split at h <;> cases h
    · dsimp only at h
      split at h
      next hkey =>
        cases h
        exact hkey
      · cases h
  · cases h

/-! ### One run in the source -/

/-- A run in the source, opened by the node with the index `i`, has a statement and ends after its start; it
covers at least this node and no more nodes than there are, and the last one of these has a position. -/
structure Advances (nodes : List Node) (i : Nat) (start : Int) (found : List Statement) (stop : Nat) :
    Prop where
  ne_nil : found ≠ []
  start_lt : start < (stop : Int)
  one_le : 1 ≤ coveredCount stop (nodes.drop i)
  le_length : coveredCount stop (nodes.drop i) ≤ nodes.length - i
  located : ∃ (last : Node) (p : Position),
    nodes[i + coveredCount stop (nodes.drop i) - 1]? = some last ∧ last.position = some p

theorem position_of_startsBefore {stop : Nat} (h : startsBefore stop n = true) :
    ∃ p : Position, n.position = some p := by
  rw [startsBefore, Option.any_eq_true] at h
  obtain ⟨p, hp, -⟩ := h
  exact ⟨p, hp⟩

section Run

variable {nodes : List Node} {i : Nat} {start : Int} {found : List Statement} {stop : Nat}
  (hn : nodes[i]? = some n) (ho : opening doc n = .sourceRun d kind start)
  (hsplit : splitStatements d.text start.toNat (some d.lines) = .ok (found, stop))

include ho hsplit

/-- The keyword of the first statement lies between the start of the node and the end of the run. -/
theorem start_lt_stop : found ≠ [] ∧ start < (stop : Int) ∧ startsBefore stop n = true := by
  obtain ⟨-, -, p, hp, rfl, hkey⟩ := opening_eq_sourceRun ho
  have hrun := isRun_of_splitStatements (lt_length_of_statementKeyword? hkey).le hsplit
  obtain ⟨st, hst⟩ := List.exists_mem_of_ne_nil found hrun.ne_nil
  have hinside := hrun.inside st hst
  have hlt : p.start.offset < (stop : Int) := by omega
  refine ⟨hrun.ne_nil, hlt, ?_⟩
  rw [startsBefore, hp, Option.any_some]
  exact decide_eq_true hlt

include hn

/-- The last covered node is found by its index, and it starts before the end of the run. -/
theorem exists_lastCovered :
    1 ≤ coveredCount stop (nodes.drop i) ∧ ∃ last : Node,
      nodes[i + coveredCount stop (nodes.drop i) - 1]? = some last ∧
        lastCovered stop n (nodes.drop (i + 1)) = last ∧ startsBefore stop last = true := by
  obtain ⟨hi, rfl⟩ := List.getElem?_eq_some_iff.mp hn
  have hdrop : nodes.drop i = nodes[i] :: nodes.drop (i + 1) := List.drop_eq_getElem_cons hi
  obtain ⟨-, -, hfirst⟩ := start_lt_stop ho hsplit
  have hne : (nodes.drop i).takeWhile (startsBefore stop) ≠ [] := by
    rw [hdrop, List.takeWhile_cons_of_pos hfirst]
    exact List.cons_ne_nil _ _
  have hpos : 1 ≤ coveredCount stop (nodes.drop i) := List.length_pos_iff.mpr hne
  obtain ⟨last, hlast⟩ := Option.isSome_iff_exists.mp (List.getLast?_isSome.mpr hne)
  refine ⟨hpos, last, ?_, ?_, List.mem_takeWhile_imp (List.mem_of_getLast? hlast)⟩
  · -- what is covered comes first, so its last node has the same index in what is left
    rw [List.getLast?_eq_getElem?] at hlast
    rw [Nat.add_sub_assoc hpos, ← List.getElem?_drop]
    have happend : ((nodes.drop i).takeWhile (startsBefore stop) ++
        (nodes.drop i).dropWhile (startsBefore stop))[coveredCount stop (nodes.drop i) - 1]? = some last :=
      (List.getElem?_append_left (Nat.sub_lt hpos Nat.one_pos)).trans hlast
    rwa [List.takeWhile_append_dropWhile] at happend
  · rw [lastCovered, ← hdrop, List.getLastD_eq_getLast?, hlast]
    rfl

theorem advances : Advances nodes i start found stop := by
  obtain ⟨hne, hlt, -⟩ := start_lt_stop ho hsplit
  obtain ⟨hpos, last, hlast, -, hbefore⟩ := exists_lastCovered hn ho hsplit
  obtain ⟨p, hp⟩ := position_of_startsBefore hbefore
  refine ⟨hne, hlt, hpos, ?_, last, p, hlast, hp⟩
  rw [← List.length_drop]
  exact (List.takeWhile_prefix _).length_le

end Run

/-! ### The loop -/

/-- What a turn of the loop comes to. -/
inductive Turn where
  /-- Nodes are put out, and the loop goes on with an index. -/
  | next (written : List Node) (index : Nat)
  /-- The nodes are malformed. -/
  | failed (e : StructureError)
  /-- A node or a statement is asked for that is not there. -/
  | astray

/-- The error for content after the last statement of a run. -/
def trailing (found : List Statement) (position : Option Position) : Turn :=
  match found.getLast? with
  | some last => .failed ⟨.trailingContent last.kind, position⟩
  | none => .astray

/-- A turn at the node `n` with the index `i`. -/
def turnAt (doc : Option Document) (nodes : List Node) (i : Nat) (n : Node) : Turn :=
  match opening doc n with
  | .content => .next [n] (i + 1)
  | .textRun _ literal =>
      match splitStatements literal 0 none with
      | .error e => .failed e
      | .ok (found, stop) =>
          if Text.isBlankText (literal.drop stop) then
            .next (found.map (statementNode literal none)) (i + 1)
          else trailing found n.position
  | .sourceRun d _ start =>
      match splitStatements d.text start.toNat (some d.lines) with
      | .error e => .failed e
      | .ok (found, stop) =>
          let j := i + coveredCount stop (nodes.drop i)
          match (if i < j then nodes[j - 1]? else none).bind Node.position with
          | none => .astray
          | some p =>
              if (stop : Int) < p.stop.offset then
                trailing found (some (d.lines.span (stop + 1 : Nat) p.stop.offset))
              else .next (found.map (sourceNode d)) j

/-- The loop from an index on, with at most so many turns. -/
def loopFrom (doc : Option Document) (nodes : List Node) :
    (turns i : Nat) → Option (Except StructureError (List Node))
  | 0, i => if i < nodes.length then none else some (.ok [])
  | turns + 1, i =>
      match nodes[i]? with
      | none => some (.ok [])
      | some n =>
          match turnAt doc nodes i n with
          | .astray => none
          | .failed e => some (.error e)
          | .next written j => (loopFrom doc nodes turns j).map (·.map (written ++ ·))

theorem trailing_eq {found : List Statement} (h : found ≠ []) (kind : StatementKind)
    (position : Option Position) :
    trailing found position = .failed ⟨.trailingContent (lastKind kind found), position⟩ := by
  obtain ⟨last, hlast⟩ := Option.isSome_iff_exists.mp (List.getLast?_isSome.mpr h)
  rw [trailing, lastKind, hlast]
  rfl

section Turns

variable {nodes : List Node} {i : Nat}

theorem turnAt_textRun {literal : List Char} (ho : opening doc n = .textRun kind literal) :
    turnAt doc nodes i n =
      match runFromText kind literal n.position with
      | .error e => .failed e
      | .ok found => .next found (i + 1) := by
  rw [turnAt, ho, runFromText]
  dsimp only
  cases hsplit : splitStatements literal 0 none with
  | error e => rfl
  | ok r =>
    obtain ⟨found, stop⟩ := r
    dsimp only
    split
    · rfl
    · have hrun := isRun_of_splitStatements (Nat.zero_le _) hsplit
      rw [trailing_eq hrun.ne_nil kind]

theorem turnAt_sourceRun {start : Int} (hn : nodes[i]? = some n)
    (ho : opening doc n = .sourceRun d kind start) :
    turnAt doc nodes i n =
      match runFromSource d kind start n (nodes.drop (i + 1)) with
      | .error e => .failed e
      | .ok (found, stop) => .next found (i + coveredCount stop (nodes.drop i)) := by
  rw [turnAt, ho, runFromSource]
  dsimp only
  cases hsplit : splitStatements d.text start.toNat (some d.lines) with
  | error e => rfl
  | ok r =>
    obtain ⟨found, stop⟩ := r
    obtain ⟨hpos, last, hlast, hcovered, hbefore⟩ := exists_lastCovered hn ho hsplit
    obtain ⟨p, hp⟩ := position_of_startsBefore hbefore
    obtain ⟨hne, -, -⟩ := start_lt_stop ho hsplit
    have hlt : i < i + coveredCount stop (nodes.drop i) := by omega
    dsimp only
    rw [if_pos hlt, hlast, Option.bind_some, hp, hcovered, hp]
    dsimp only [Option.map_some, Option.getD_some]
    split
    · rw [trailing_eq hne kind]
    · rfl

/-- **One turn**: the index moves on and stays within the nodes, or the nodes are malformed.  What is put out,
and what is put out from the new index on, is what extraction gives. -/
theorem turnAt_cases (doc : Option Document) (hn : nodes[i]? = some n) :
    (∃ (written : List Node) (j : Nat), turnAt doc nodes i n = .next written j ∧ i < j ∧
      j ≤ nodes.length ∧
      extractStatements doc (nodes.drop i) = (extractStatements doc (nodes.drop j)).map (written ++ ·)) ∨
    ∃ e : StructureError, turnAt doc nodes i n = .failed e ∧
      extractStatements doc (nodes.drop i) = .error e := by
  obtain ⟨hi, rfl⟩ := List.getElem?_eq_some_iff.mp hn
  have hdrop : nodes.drop i = nodes[i] :: nodes.drop (i + 1) := List.drop_eq_getElem_cons hi
  cases ho : opening doc nodes[i] with
  | content =>
    refine .inl ⟨[nodes[i]], i + 1, ?_, Nat.lt_succ_self i, hi, ?_⟩
    · rw [turnAt, ho]
    · rw [hdrop, extractStatements_content ho]
      rfl
  | textRun kind literal =>
    rw [turnAt_textRun ho, hdrop]
    cases hf : runFromText kind literal nodes[i].position with
    | error e =>
      refine .inr ⟨e, rfl, ?_⟩
      rw [extractStatements, ho]
      simp only [hf]
    | ok found => exact .inl ⟨found, i + 1, rfl, Nat.lt_succ_self i, hi, extractStatements_textRun ho hf⟩
  | sourceRun d kind start =>
    rw [turnAt_sourceRun hn ho]
    cases hf : runFromSource d kind start nodes[i] (nodes.drop (i + 1)) with
    | error e =>
      refine .inr ⟨e, rfl, ?_⟩
      rw [hdrop, extractStatements, ho]
      simp only [hf]
    | ok r =>
      obtain ⟨found, stop⟩ := r
      obtain ⟨sts, hsplit, -, -⟩ := runFromSource_eq_ok hf
      have hadvances := advances hn ho hsplit
      have hone := hadvances.one_le
      have hle := hadvances.le_length
      have hrest : nodes.drop (i + coveredCount stop (nodes.drop i)) =
          (nodes.drop (i + 1)).dropWhile (startsBefore stop) := by
        rw [← List.drop_drop, coveredCount, drop_length_takeWhile, hdrop,
          List.dropWhile_cons_of_pos (startsBefore_of_sourceRun ho hf)]
      refine .inl ⟨found, _, rfl, by omega, by omega, ?_⟩
      rw [hrest, hdrop, extractStatements_sourceRun ho hf]

end Turns

/-- **The loop comes to the end of the nodes**, and to what extraction gives, if it is allowed a turn for each
node. -/
theorem loopFrom_eq (doc : Option Document) (nodes : List Node) (turns i : Nat)
    (hturns : nodes.length ≤ i + turns) :
    loopFrom doc nodes turns i = some (extractStatements doc (nodes.drop i)) := by
  induction turns generalizing i with
  | zero =>
    have hend : nodes.length ≤ i := hturns
    rw [loopFrom, if_neg (Nat.not_lt.mpr hend), List.drop_eq_nil_of_le hend, extractStatements]
  | succ turns ih =>
    rw [loopFrom]
    cases hn : nodes[i]? with
    | none => rw [List.drop_eq_nil_of_le (List.getElem?_eq_none_iff.mp hn), extractStatements]
    | some n =>
      dsimp only
      rcases turnAt_cases doc hn with ⟨written, j, hturn, hlt, -, heq⟩ | ⟨e, hturn, heq⟩
      · rw [hturn, heq]
        dsimp only
        rw [ih j (by omega), Option.map_some]
      · rw [hturn, heq]

/-- **Extraction goes on by at least one node and asks for none that is not there.**

* A run in the source that is split into statements has at least one, and ends after the start of the node that
  opens it; it covers this node and at most those after it, and the last covered one has a position.
* The loop over the index gives a result within as many turns as there are nodes, so it never looks up what is
  not there.
* No paragraph that opens a run, in the source or in its own text, is refused for want of a statement. -/
theorem extraction_always_advances (doc : Option Document) (nodes : List Node) :
    (∀ (i : Nat) (n : Node) (d : Document) (kind : StatementKind) (start : Int) (found : List Statement)
      (stop : Nat), nodes[i]? = some n → opening doc n = .sourceRun d kind start →
      splitStatements d.text start.toNat (some d.lines) = .ok (found, stop) →
        n.position.map (·.start.offset) = some start ∧ Advances nodes i start found stop) ∧
    loopFrom doc nodes nodes.length 0 = some (extractStatements doc nodes) ∧
    ∀ n ∈ nodes, ∀ e : StructureError,
      (∀ (d : Document) (kind : StatementKind) (start : Int), opening doc n = .sourceRun d kind start →
        splitStatements d.text start.toNat (some d.lines) = .error e → e.cause ≠ .statementExpected) ∧
      (∀ (kind : StatementKind) (literal : List Char), opening doc n = .textRun kind literal →
        splitStatements literal 0 none = .error e → e.cause ≠ .statementExpected) := by
  refine ⟨?_, loopFrom_eq doc nodes nodes.length 0 (Nat.le_add_left _ _), ?_⟩
  · intro i n d kind start found stop hn ho hsplit
    obtain ⟨-, -, p, hp, rfl, -⟩ := opening_eq_sourceRun ho
    exact ⟨by rw [hp]; rfl, advances hn ho hsplit⟩
  · intro n _ e
    refine ⟨fun d kind start ho hsplit => ?_, fun kind literal ho hsplit => ?_⟩
    · obtain ⟨-, -, -, -, -, hkey⟩ := opening_eq_sourceRun ho
      exact cause_of_splitStatements hkey hsplit
    · exact cause_of_splitStatements (keyword_of_textRun ho) hsplit

/-- A statement with a blank line in it, and a paragraph. -/
def brokenImport : List Char :=
  ['i', 'm', 'p', 'o', 'r', 't', ' ', '\x7b', '\n', '\n', 'a', '\x7d', '\n', '\n', 'b']

/-- A paragraph of the text between two offsets. -/
def brokenParagraph (start stop : Nat) : Node :=
  .branch { kind := "paragraph", position := some ((LineIndex.ofText brokenImport).span start stop) } []

/-- The paragraphs that the grammar of blocks makes of it: the statement covers two of them. -/
def brokenParagraphs : List Node :=
  [brokenParagraph 0 8, brokenParagraph 10 12, brokenParagraph 14 15]

theorem extraction_always_advances_broken :
    opening (some (.ofText brokenImport)) (brokenParagraph 0 8) = .sourceRun (.ofText brokenImport) .«import» 0 ∧
    splitStatements brokenImport 0 (some (.ofText brokenImport)) = .ok ([⟨.«import», 0, 12⟩], 12) ∧
    Advances brokenParagraphs 0 0 [⟨.«import», 0, 12⟩] 12 ∧ coveredCount 12 brokenParagraphs = 2 ∧
    loopFrom (some (.ofText brokenImport)) brokenParagraphs 3 0 =
      some (extractStatements (some (.ofText brokenImport)) brokenParagraphs) := by
  have hkey : statementKeyword? brokenImport 0 = some .«import» := by decide +kernel
  have ho := opening_of_keyword (n := brokenParagraph 0 8) (d := .ofText brokenImport) rfl rfl hkey
  have hsplit : splitStatements brokenImport 0 (some (.ofText brokenImport)) =
      .ok ([⟨.«import», 0, 12⟩], 12) := eq_ok_of_toOption (by decide +kernel)
  obtain ⟨hrun, hloop, -⟩ := extraction_always_advances (some (.ofText brokenImport)) brokenParagraphs
  obtain ⟨-, hadvances⟩ := hrun 0 (brokenParagraph 0 8) _ _ _ _ _ rfl ho hsplit
  exact ⟨ho, hsplit, hadvances, by decide +kernel, hloop⟩

end Mdx.Extended
