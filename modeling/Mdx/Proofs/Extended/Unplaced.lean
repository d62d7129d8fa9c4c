import Mdx.Extended.Basic
import Mdx.Proofs.Element.Reparse
import Mdx.Proofs.Extended.Segment
import Mdx.Proofs.Node.Unplaced

/-!
# Extension does not look at positions

If the text of the document is not known, the extended tree of a parsed document is the same with and
without the positions in it (`ofGeneric_bare`).  Statements are then read from the texts of paragraphs,
and raw markup is parsed on its own; positions get into the result and into errors, but nothing depends
on them.

Where markup stands does not matter to its parse at all (`parseChildren_unplaced`).
-/

namespace Mdx

open Mdx.Node

/-! ### Parsing markup without a place -/

namespace Element

/-- The open element, without the positions of the nodes before it. -/
def OpenElement.bare (o : OpenElement) : OpenElement :=
  { o with before := bareList o.before }

theorem textNodes_bare (src : List Char) (place : Placement) (t : Token) :
    textNodes src {} t = bareList (textNodes src place t) := by
  rw [textNodes, textNodes]
  split <;> rfl

theorem endFragment_bare (place : Placement) (fault : Option LexicalFault) (stack : List OpenElement)
    (nodes : List Node) :
    endFragment {} fault (stack.map OpenElement.bare) (bareList nodes) =
      seen StructureError.unplaced bareList (endFragment place fault stack nodes) := by
  cases fault with
  | some f => rfl
  | none =>
    cases stack with
    | cons o below => rfl
    | nil =>
      exact congrArg Except.ok (bareList_reverse nodes).symm

theorem matchTags_bare (src : List Char) (place : Placement) (fault : Option LexicalFault)
    (stack : List OpenElement) (nodes : List Node) (ts : List Token) :
    matchTags src {} fault (stack.map OpenElement.bare) (bareList nodes) ts =
      seen StructureError.unplaced bareList (matchTags src place fault stack nodes ts) := by
  induction ts generalizing stack nodes with
  | nil => exact endFragment_bare place fault stack nodes
  | cons t rest ih =>
    cases hk : t.kind with
    | text =>
      rw [matchTags_text hk, matchTags_text hk, textNodes_bare src place t, ← bareList_append]
      exact ih stack _
    | comment =>
      rw [matchTags_comment hk, matchTags_comment hk]
      exact ih stack nodes
    | selfClosing =>
      rw [matchTags_selfClosing hk, matchTags_selfClosing hk]
      exact ih stack (elementNode src place t.start t.stop [] :: nodes)
    | openTag =>
      rw [matchTags_openTag hk, matchTags_openTag hk]
      exact ih (⟨t, nodes⟩ :: stack) []
    | closeTag =>
      cases stack with
      | nil =>
        rw [matchTags.eq_def, matchTags.eq_def src place]
        simp only [hk, List.map_nil]
        rfl
      | cons o below =>
        by_cases hn : o.tag.name = t.name
        · rw [List.map_cons, matchTags_closeTag hk o.bare hn, matchTags_closeTag hk o hn,
            ← bareList_reverse]
          exact ih below (elementNode src place o.tag.start t.stop nodes.reverse :: o.before)
        · have hne : (o.tag.name != t.name) = true := bne_iff_ne.mpr hn
          have hne' : (o.bare.tag.name != t.name) = true := hne
          rw [matchTags.eq_def, matchTags.eq_def src place]
          simp only [hk, List.map_cons, hne, hne', if_true]
          rfl

/-- **Markup is parsed without a place as in any place.** -/
theorem parseChildren_unplaced (src : List Char) (place : Placement) :
    parseChildren src {} = seen StructureError.unplaced bareList (parseChildren src place) := by
  have hfragment : parseFragment src {} =
      seen StructureError.unplaced bareList (parseFragment src place) :=
    matchTags_bare src place (tokens src).2 [] [] (tokens src).1
  rw [parseChildren_eq, parseChildren_eq]
  exact seen_map hfragment contentOf_bareList

end Element

namespace Extended

open Mdx.Element Mdx.Script

/-! ### Statements -/

theorem opening_bare (n : Node) : opening none n.bare = opening none n := by
  unfold opening
  rw [kind_bare]
  split
  · dsimp only
    rw [literalText_bare]
  · rfl

theorem opening_ne_sourceRun (n : Node) (d : Document) (kind : StatementKind) (start : Int) :
    opening none n ≠ .sourceRun d kind start := by
  unfold opening
  split
  · dsimp only
    split <;> nofun
  · nofun

theorem bareList_statements (literal : List Char) (statements : List Statement) :
    bareList (statements.map (statementNode literal none)) =
      statements.map (statementNode literal none) := by
  rw [bareList_eq_map, List.map_map]
  rfl

theorem runFromText_bare (kind : StatementKind) (literal : List Char) (position : Option Position) :
    runFromText kind literal none =
      seen StructureError.unplaced bareList (runFromText kind literal position) := by
  rw [runFromText, runFromText, splitStatements]
  cases statementRun literal.length (literal.drop 0) with
  | error fault => rfl
  | ok found =>
    dsimp only
    split
    · exact congrArg Except.ok (bareList_statements literal found.1).symm
    · rfl

/-- Statements are extracted from nodes without positions as they are from the nodes. -/
theorem extractStatements_bare (nodes : List Node) :
    extractStatements none (bareList nodes) =
      seen StructureError.unplaced bareList (extractStatements none nodes) := by
  induction nodes with
  | nil =>
    rw [bareList_nil, extractStatements]
    rfl
  | cons n rest ih =>
    have hopening := opening_bare n
    rw [bareList_cons]
    cases ho : opening none n with
    | content =>
      rw [extractStatements_content ho, extractStatements_content (hopening.trans ho)]
      exact seen_map ih fun _ => rfl
    | textRun kind literal =>
      have hrun := runFromText_bare kind literal n.position
      cases hf : runFromText kind literal n.position with
      | error e =>
        rw [hf] at hrun
        rw [extractStatements, extractStatements, hopening, ho]
        dsimp only
        rw [position_bare, hrun, hf]
        rfl
      | ok found =>
        rw [hf, ← position_bare n] at hrun
        rw [extractStatements_textRun ho hf, extractStatements_textRun (hopening.trans ho) hrun]
        exact seen_map ih fun out => (bareList_append found out).symm
    | sourceRun d kind start => exact absurd ho (opening_ne_sourceRun n d kind start)

/-! ### Raw markup -/

theorem elementOf_bare (nearest : Option Position) (h : NodeHead) :
    elementOf none none h.bare = seen StructureError.unplaced bare (elementOf none nearest h) := by
  have hparse := parseChildren_unplaced (h.value.getD "").toList
    (placement none nearest h (h.value.getD "").toList)
  have hplace : placement none none h.bare (h.bare.value.getD "").toList = {} := rfl
  rw [elementOf, elementOf, hplace, h.value_bare, hparse]
  cases parseChildren (h.value.getD "").toList (placement none nearest h (h.value.getD "").toList) <;> rfl

mutual

/-- **Raw markup is reclassified without positions as it is with them.** -/
theorem reclassify_bare : ∀ (n : Node) (nearest : Option Position),
    reclassify none none n.bare = seen StructureError.unplaced bare (reclassify none nearest n)
  | .leaf h, nearest => by
    rw [bare_leaf, reclassify, reclassify, h.kind_bare, elementOf_bare nearest]
    split <;> rfl
  | .branch h cs, nearest => by
    have hnearest : h.bare.position.or none = none := rfl
    show reclassify none none (.branch h.bare (bareList cs)) = _
    rw [reclassify, reclassify, h.kind_bare, elementOf_bare nearest, hnearest,
      reclassifyList_bare cs (h.position.or nearest)]
    split
    · rfl
    · cases reclassifyList none (h.position.or nearest) cs <;> rfl

theorem reclassifyList_bare : ∀ (ns : List Node) (nearest : Option Position),
    reclassifyList none none (bareList ns) =
      seen StructureError.unplaced bareList (reclassifyList none nearest ns)
  | [], nearest => by
    rw [bareList_nil, reclassifyList, reclassifyList]
    rfl
  | n :: rest, nearest => by
    rw [bareList_cons, reclassifyList, reclassifyList, reclassify_bare n nearest,
      reclassifyList_bare rest nearest]
    cases reclassify none nearest n with
    | error e => rfl
    | ok m => cases reclassifyList none nearest rest <;> rfl

end

/-! ### Extended trees -/

/-- **Without the text of the document, positions do not matter to the extended tree.** -/
theorem ofGeneric_bare (tree : Node) :
    ofGeneric none tree.bare = seen StructureError.unplaced bare (ofGeneric none tree) := by
  have hroot (cs : List Node) :
      Node.branch tree.bare.head (bareList cs) = (Node.branch tree.head cs).bare := by
    rw [head_bare]
    rfl
  unfold ofGeneric
  refine seen_bind (validate_bare tree _ _) fun _ _ => ?_
  refine seen_bind ((congrArg (extractStatements none) (children_bare tree)).trans
    (extractStatements_bare tree.children)) fun cs _ => ?_
  refine seen_bind ((congrArg (reclassify none none) (hroot cs)).trans
    (reclassify_bare _ none)) fun extended _ => ?_
  refine seen_bind (validate_bare extended _ _) fun _ _ => ?_
  rfl

end Extended

end Mdx
