import Mathlib.Data.List.DropRight
import Mdx.Proofs.Extended.Aligned
import Mdx.Proofs.Extended.Unbalanced
import Mdx.Proofs.Extended.Unplaced
import Mdx.Proofs.Script.Tiling

/-!
# Statements of the source and of the text

The statements of a paragraph are read from the source of the document or, if that is not known, from the
text of the paragraph.  In either case content after the last statement is an error, but the two do not
ask the same question: the one compares the offset at which the run ends with the end of the paragraph,
the other one looks for a character that is not blank.

A run ends with the text or at a line break, so the questions have the same answer if the paragraph is
the whole document and its last line is not blank (`isBlankText_drop_iff`).  The extended trees are then
the same but for positions, and so are the errors (`seen_ofGeneric`).
-/

namespace Mdx.Extended

open Mdx.Script
open Mdx.Generic (oneParagraph)

/-! ### The last line -/

/-- A text after its last line break. -/
def lastLine (s : List Char) : List Char :=
  s.rtakeWhile (· != '\n')

theorem newline_not_mem_lastLine (s : List Char) : '\n' ∉ lastLine s := by
  intro hmem
  exact absurd (List.mem_rtakeWhile_imp hmem) (by decide)

theorem lastLine_suffix {s next : List Char} (h : '\n' :: next <:+ s) : lastLine s <:+ next := by
  have hline : lastLine s <:+ s := List.rtakeWhile_suffix _ s
  rcases List.suffix_or_suffix_of_suffix hline h with hin | hout
  · rcases List.suffix_cons_iff.mp hin with heq | hnext
    · exact absurd (heq ▸ List.mem_cons_self) (newline_not_mem_lastLine s)
    · exact hnext
  · exact absurd (hout.subset List.mem_cons_self) (newline_not_mem_lastLine s)

section Runs

variable {s : List Char} {n : Node} {p : Position} {kind : StatementKind}

/-- **After a run of statements are only blanks just if there is nothing**, in a text whose last line is
not blank. -/
theorem isBlankText_drop_iff (hlast : ∃ c ∈ lastLine s, Text.isBlank c = false) {pos stop : Nat}
    {index : Option LineIndex} {sts : List Statement}
    (h : splitStatements s pos index = .ok (sts, stop)) :
    Text.isBlankText (s.drop stop) = true ↔ s.length ≤ stop := by
  rcases (runs_of_splitStatements h).isTiling.ends with heq | hbreak
  · rw [heq, List.drop_length]
    exact iff_of_true rfl le_rfl
  · obtain ⟨hlt, -⟩ := List.getElem?_eq_some_iff.mp hbreak
    have hdrop : s.drop stop = '\n' :: s.drop (stop + 1) := drop_of_getElem? hbreak
    obtain ⟨c, hc, hblank⟩ := hlast
    have hsuffix : lastLine s <:+ s.drop (stop + 1) :=
      lastLine_suffix (hdrop ▸ List.drop_suffix stop s)
    refine iff_of_false (fun hall => ?_) (by omega)
    rw [hdrop] at hall
    have hc' := List.all_eq_true.mp hall c (List.mem_cons_of_mem _ (hsuffix.subset hc))
    rw [hblank] at hc'
    cases hc'

/-! ### The two ways to read a run -/

theorem seen_splitStatements (src : List Char) (pos : Nat) (index : Option LineIndex) :
    seen StructureError.unplaced id (splitStatements src pos index) = splitStatements src pos none := by
  rw [splitStatements, splitStatements]
  cases statementRun src.length (src.drop pos) <;> rfl

theorem lastCovered_nil (stop : Nat) (n : Node) : lastCovered stop n [] = n := by
  rw [lastCovered, List.takeWhile_cons]
  split <;> rfl

/-- **The run of a paragraph that is the whole document is that of its text**, positions aside. -/
theorem seen_runFromSource (hlast : ∃ c ∈ lastLine s, Text.isBlank c = false)
    (hp : n.position = some p) (hs : p.Spans s s []) (position : Option Position) :
    seen StructureError.unplaced (fun run => Node.bareList run.1)
        (runFromSource (.ofText s) kind p.start.offset n []) =
      seen StructureError.unplaced Node.bareList (runFromText kind s position) := by
  have hstart : p.start.offset.toNat = 0 := by
    rw [hs.start_eq, Nat.sub_self]
    rfl
  have hstop : (n.position.map (·.stop.offset)).getD 0 = (s.length : Int) := by
    rw [hp]
    exact hs.stop_eq
  have hsplit := seen_splitStatements s 0 (some (Document.ofText s).lines)
  have htext : (Document.ofText s).text = s := rfl
  rw [runFromSource, runFromText, hstart, htext, ← hsplit]
  cases h : splitStatements s 0 (some (Document.ofText s).lines) with
  | error e => rfl
  | ok run =>
    obtain ⟨sts, stop⟩ := run
    have hrest := isBlankText_drop_iff hlast h
    dsimp only [seen, id]
    rw [lastCovered_nil, hstop]
    by_cases hle : s.length ≤ stop
    · rw [if_neg (by omega), if_pos (hrest.mpr hle)]
      simp only [Node.bareList_eq_map, List.map_map]
      rfl
    · rw [if_pos (by omega), if_neg (mt hrest.mp hle)]
      rfl

theorem extractStatements_sole_source {doc : Option Document} {d : Document} {start : Int}
    (ho : opening doc n = .sourceRun d kind start) :
    extractStatements doc [n] = (runFromSource d kind start n []).map Prod.fst := by
  rw [extractStatements, ho]
  dsimp only
  cases runFromSource d kind start n [] with
  | error e => rfl
  | ok run =>
    dsimp only
    rw [List.drop_nil, extractStatements]
    exact congrArg Except.ok (List.append_nil run.1)

theorem extractStatements_sole_text {doc : Option Document} {literal : List Char}
    (ho : opening doc n = .textRun kind literal) :
    extractStatements doc [n] = runFromText kind literal n.position := by
  rw [extractStatements, ho]
  dsimp only
  cases runFromText kind literal n.position with
  | error e => rfl
  | ok found =>
    dsimp only
    rw [extractStatements]
    exact congrArg Except.ok (List.append_nil found)

theorem opening_of_text (hkind : n.kind = "paragraph") (htext : n.literalText = String.ofList s) :
    (statementHere? s = none → opening none n = .content) ∧
      ∀ found, statementHere? s = some found → opening none n = .textRun found.1 s := by
  have hliteral : n.literalText.toList = s := by rw [htext, String.toList_ofList]
  have hkeyword : statementKeyword? s 0 = (statementHere? s).map (·.1) := rfl
  constructor
  · intro hnone
    simp only [opening, hkind, if_true, hliteral, hkeyword, hnone, Option.map_none]
  · intro found hsome
    simp only [opening, hkind, if_true, hliteral, hkeyword, hsome, Option.map_some]

/-- **Statements are extracted from the source as from the text.** -/
theorem seen_extractStatements (hlast : ∃ c ∈ lastLine s, Text.isBlank c = false)
    (hkind : n.kind = "paragraph") (htext : n.literalText = String.ofList s)
    (hp : n.position = some p) (hs : p.Spans s s []) :
    seen StructureError.unplaced Node.bareList (extractStatements (some (.ofText s)) [n]) =
      seen StructureError.unplaced Node.bareList (extractStatements none [n]) := by
  obtain ⟨hcontent, hrun⟩ := opening_of_text hkind htext
  cases hhere : statementHere? s with
  | none =>
    rw [extractStatements_content (opening_of_none hp hs hhere),
      extractStatements_content (hcontent hhere), extractStatements, extractStatements]
  | some found =>
    rw [extractStatements_sole_source (opening_of_some hkind hp hs hhere),
      extractStatements_sole_text (hrun found hhere), ← seen_runFromSource hlast hp hs]
    cases runFromSource (.ofText s) found.1 p.start.offset n [] <;> rfl

end Runs

/-! ### Trees without raw markup -/

/-- **Without raw markup, extension is the extraction of statements.** -/
theorem ofGeneric_eq_map {source : Option (List Char)} {tree : Node}
    (hv : tree.validate Vocabulary.generic "parse" = .ok ())
    (hplain : ∀ x ∈ tree.flatten, x.kind ≠ "html") :
    ofGeneric source tree =
      (extractStatements (source.map Document.ofText) tree.children).map (.branch tree.head) := by
  cases hextract : extractStatements (source.map Document.ofText) tree.children with
  | error e =>
    rw [ofGeneric, hv]
    simp only [bind, Except.bind, hextract]
    rfl
  | ok children =>
    have hself : ∀ y ∈ (Node.branch tree.head children).flatten, y.kind ≠ "html" := by
      intro y hy
      rcases cases_of_mem_extract hextract hy with hhead | hy | hw
      · rw [Node.kind, hhead]
        exact hplain tree (Node.mem_flatten.mpr (.inl rfl))
      · exact hplain y hy
      · obtain ⟨h, rfl, hkind⟩ := hw.isStatement
        show h.kind ≠ "html"
        rcases hkind with hkind | hkind <;> rw [hkind] <;> decide
    have hclass : reclassify (source.map Document.ofText) none (.branch tree.head children) =
        .ok (.branch tree.head children) := reclassify_eq_ok_iff.mpr (reclassified_self hself)
    have hlast := validate_extended hv hextract hclass
    rw [ofGeneric, hv]
    simp only [bind, Except.bind, hextract, hclass, hlast]
    rfl

/-! ### Documents of plain text -/

/-- The tree of a document that is one paragraph of plain text. -/
def plainTree (s : List Char) (p : Position) (position : Option Position) : Node :=
  oneParagraph p [Node.ofText (String.ofList s) position]

section PlainText

variable {s : List Char} {p : Position} {position : Option Position}

theorem kind_of_mem_plainTree {x : Node} (hx : x ∈ (plainTree s p position).flatten) :
    x.kind ∈ ["root", "paragraph", "text"] := by
  have hkinds : (plainTree s p position).flatten.map Node.kind = ["root", "paragraph", "text"] := by
    simp [plainTree, oneParagraph, Node.ofText, Node.flatten_eq, Node.flattenStack_cons, Node.children,
      Node.kind, Node.head]
  rw [← hkinds]
  exact List.mem_map_of_mem hx

theorem validate_plainTree : (plainTree s p position).validate Vocabulary.generic "parse" = .ok () := by
  refine Node.validate_eq_ok_iff.mpr ⟨rfl, fun x hx => ?_⟩
  have hkinds : ∀ kind ∈ ["root", "paragraph", "text"], kind ∈ Vocabulary.generic := by decide
  exact hkinds _ (kind_of_mem_plainTree hx)

/-- **The source and the text give the same extended tree**, positions aside. -/
theorem seen_ofGeneric (hlast : ∃ c ∈ lastLine s, Text.isBlank c = false) (hs : p.Spans s s []) :
    seen StructureError.unplaced Node.bare (ofGeneric (some s) (plainTree s p position)) =
      seen StructureError.unplaced Node.bare (ofGeneric none (plainTree s p position)) := by
  have hplain : ∀ x ∈ (plainTree s p position).flatten, x.kind ≠ "html" := by
    intro x hx hk
    have hmem := kind_of_mem_plainTree hx
    rw [hk] at hmem
    exact absurd hmem (by decide)
  have hroot (source : Option (List Char)) :
      seen StructureError.unplaced Node.bare (ofGeneric source (plainTree s p position)) =
        (seen StructureError.unplaced Node.bareList
          (extractStatements (source.map Document.ofText) (plainTree s p position).children)).map
            (.branch (plainTree s p position).head.bare) := by
    rw [ofGeneric_eq_map validate_plainTree hplain]
    exact Eq.symm (seen_map rfl fun _ => rfl)
  rw [hroot, hroot]
  exact congrArg (Except.map _) (seen_extractStatements hlast rfl (String.append_empty) rfl hs)

end PlainText

/-- **Statements are the same from the source and from the text.**  Take any text whose last line has a
character that is not blank, and the tree with the text as its only paragraph, over the whole of it.
Extending the tree with the text as the source and without a source either succeeds both times, with the
same kinds and values at the top level, or fails both times for the same reason. -/
theorem source_and_text_agree (s : List Char) (p : Position) (position : Option Position)
    (hlast : ∃ c ∈ lastLine s, Text.isBlank c = false) (hstart : p.start.offset = 0)
    (hstop : p.stop.offset = (s.length : Int)) :
    (∃ a b : Node,
      ofGeneric (some s) (plainTree s p position) = .ok a ∧
      ofGeneric none (plainTree s p position) = .ok b ∧
      a.children.map (fun c => (c.kind, c.value)) = b.children.map fun c => (c.kind, c.value)) ∨
    ∃ e d : StructureError,
      ofGeneric (some s) (plainTree s p position) = .error e ∧
      ofGeneric none (plainTree s p position) = .error d ∧ e.reason = d.reason := by
  have hs : p.Spans s s [] := by
    refine ⟨List.suffix_rfl, List.nil_suffix, ?_, ?_⟩
    · rw [hstart, Nat.sub_self]
      rfl
    · rw [hstop, List.length_nil, Nat.sub_zero]
  have htop (n : Node) :
      n.children.map (fun c => (c.kind, c.value)) = n.bare.children.map fun c => (c.kind, c.value) := by
    rw [Node.children_bare, Node.bareList_eq_map, List.map_map]
    simp [Node.kind_bare]
  rcases exists_of_seen_eq (seen_ofGeneric hlast hs) with ⟨a, b, ha, hb, hab⟩ | ⟨e, d, he, hd, hed⟩
  · refine .inl ⟨a, b, ha, hb, ?_⟩
    rw [htop a, htop b, hab]
  · refine .inr ⟨e, d, he, hd, ?_⟩
    show e.unplaced.reason = d.unplaced.reason
    rw [hed]

/-- Two indented statements, the first one on three lines and with a wide space after it. -/
def statementPair : List Char :=
  " import \x7b a,\n\n b \x7d\u3000\n\texport default 1  ".toList

def pairAndProse : List Char :=
  statementPair ++ "\n\nprose".toList

/-- The statements are found both times; with prose after them, both times it is an error. -/
theorem source_and_text_agree_pair :
    (∃ a b : Node,
      ofGeneric (some statementPair) (plainTree statementPair (wholeSpan statementPair) none) = .ok a ∧
      ofGeneric none (plainTree statementPair (wholeSpan statementPair) none) = .ok b ∧
      a.children.map (fun c => (c.kind, c.value)) = b.children.map fun c => (c.kind, c.value)) ∧
    ∃ e d : StructureError,
      ofGeneric (some pairAndProse) (plainTree pairAndProse (wholeSpan pairAndProse) none) = .error e ∧
      ofGeneric none (plainTree pairAndProse (wholeSpan pairAndProse) none) = .error d ∧
      e.reason = d.reason := by
  constructor
  · have hok : (ofGeneric none
        (plainTree statementPair (wholeSpan statementPair) none)).isOk = true := by decide +kernel
    refine (source_and_text_agree statementPair (wholeSpan statementPair) none
      ⟨'1', by decide +kernel, rfl⟩ (by decide +kernel) (by decide +kernel)).resolve_right ?_
    rintro ⟨-, d, -, hd, -⟩
    rw [hd] at hok
    cases hok
  · have hfail : (ofGeneric none
        (plainTree pairAndProse (wholeSpan pairAndProse) none)).isOk = false := by decide +kernel
    refine (source_and_text_agree pairAndProse (wholeSpan pairAndProse) none
      ⟨'p', by decide +kernel, rfl⟩ (by decide +kernel) (by decide +kernel)).resolve_left ?_
    rintro ⟨-, b, -, hb, -⟩
    rw [hb] at hfail
    cases hfail

-- A line break at the end counts as content in the source and as a blank in the text.
example :
    (ofGeneric (some "import a\n".toList)
      (plainTree "import a\n".toList (wholeSpan "import a\n".toList) none)).isOk = false ∧
    (ofGeneric none
      (plainTree "import a\n".toList (wholeSpan "import a\n".toList) none)).isOk = true := by
  decide +kernel

end Mdx.Extended
