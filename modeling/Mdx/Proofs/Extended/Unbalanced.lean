import Mdx.Proofs.Element.Unmatched
import Mdx.Proofs.Element.Visible
import Mdx.Proofs.Extended.Located
import Mdx.Proofs.Markdown.RawTag
import Mdx.Proofs.Markdown.Reading

/-!
# Unbalanced tags in running text

A tag that starts no element is left to the grammar of raw markup, which has names and attributes of its
own.  If that grammar takes the whole tag, it becomes a raw piece of the paragraph, and when the document
is extended, the tag is an error there (`unbalanced_tag_is_rejected`).  A tag that the grammar of raw
markup does not take is plain text (`member_tag_is_text`).
-/

namespace Mdx

/-! ### Documents of one line -/

/-- The position of the whole text. -/
def wholeSpan (text : List Char) : Position :=
  (LineIndex.ofText text).span 0 (text.length : Nat)

namespace Generic

open Mdx.Markdown

variable {text : List Char}

theorem linesPosition?_line (h : '\n' ∉ text) :
    linesPosition? (.ofText text) 0 1 = some (wholeSpan text) := by
  have hcount : text.count '\n' = 0 := List.count_eq_zero.mpr h
  rw [linesPosition?_eq (Int.le_refl 0), hcount, LineIndex.lineEnd_of_le]
  · rfl
  · rw [LineIndex.size_starts, hcount]
    exact Nat.le_add_left _ _

/-- The tree of a document that is one paragraph. -/
def oneParagraph (position : Position) (nodes : List Node) : Node :=
  .branch { kind := "root", position := some position }
    [.branch { kind := "paragraph", position := some position } nodes]

/-- Running text that is raw markup between two texts. -/
def aroundMarkup (before markup after : List Char) : List Node :=
  [Node.ofText (String.ofList before) none,
   .leaf { kind := "html", value := some (String.ofList markup) },
   Node.ofText (String.ofList after) none]

/-- **The tree of a line with one raw tag in it.** -/
theorem ofSyntax_soleParagraph (h : '\n' ∉ text) (line before markup after : List Char) :
    ofSyntax text
        [soleParagraph line
          [leafPiece "text" before, leafPiece "html_inline" markup, leafPiece "text" after]] =
      .ok (oneParagraph (wholeSpan text) (aroundMarkup before markup after)) := by
  have hblock : block (.ofText text)
      (soleParagraph line
        [leafPiece "text" before, leafPiece "html_inline" markup, leafPiece "text" after]) =
        .ok (.branch { kind := "paragraph", position := some (wholeSpan text) }
          (aroundMarkup before markup after)) := by
    simp only [soleParagraph, block, blockPosition, linesPosition?_line h]
    rfl
  rw [ofSyntax]
  simp only [blocks, hblock]
  rfl

end Generic

/-! ### A tag between two words -/

namespace Markdown

open Mdx.Element (TokenKind lexemeAfter)
open Mdx.Generic (aroundMarkup oneParagraph)

/-- What follows the bracket of an opening or closing tag starts no instruction or declaration. -/
theorem exists_of_lexemeAfter {w : List Char} {kind : TokenKind} {name : String}
    (hw : lexemeAfter w = .ok (some ⟨kind, name, []⟩)) (hkind : kind ≠ .comment) :
    ∃ c rest, w = c :: rest ∧ c ≠ '?' ∧ c ≠ '!' := by
  generalize hl : (⟨kind, name, []⟩ : Element.Lexeme) = l at hw
  cases Element.lexemeAfter_eq_some_iff.mp hw with
  | comment h =>
    obtain ⟨rfl, -, -⟩ := Element.Lexeme.mk.inj hl
    exact absurd rfl hkind
  | @closing body r n h => exact ⟨'/', body, rfl, by decide, by decide⟩
  | @fragment r => exact ⟨'>', r, rfl, by decide, by decide⟩
  | @tag c tail r b hc h =>
    refine ⟨c, tail, rfl, ?_, ?_⟩
    · rintro rfl
      exact absurd hc (by decide)
    · rintro rfl
      exact absurd hc (by decide)

/-- **A tag that both grammars take is raw markup**, if no element starts with it. -/
theorem parseInline_tag {w : List Char} {kind : TokenKind} {name : String}
    (hw : lexemeAfter w = .ok (some ⟨kind, name, []⟩)) (hkind : kind = .openTag ∨ kind = .closeTag)
    (hraw : rawInlineRest? ('<' :: w) = some []) :
    parseInline [] ("x ".toList ++ '<' :: (w ++ " y".toList)) =
      [leafPiece "text" "x ".toList, leafPiece "html_inline" ('<' :: w),
        leafPiece "text" " y".toList] := by
  have hspan := Element.spanOf_eq_absent hw hkind (u := " y".toList) (by decide) (by decide)
  obtain ⟨c, rest, rfl, hquery, hbang⟩ := exists_of_lexemeAfter hw
    (by rcases hkind with rfl | rfl <;> decide)
  have hrest : rawInlineRest? ('<' :: c :: (rest ++ " y".toList)) = some " y".toList :=
    rawInlineRest?_append hquery hbang (by decide) (by decide) (by decide) hraw
  have hlen : 2 ≤ (c :: rest).length := by
    obtain ⟨x, d, post, rfl, -, -⟩ := exists_of_rawInlineRest? hquery hbang hraw
    rw [List.length_cons, List.length_append, List.length_cons]
    omega
  exact parseInline_raw (by decide) (by decide) (by decide) (by decide)
    (fun url hurl => autolinkAddress?_eq_none hquery hbang hrest hurl) hspan hrest hlen

theorem newline_not_mem_visible {s : List Char} (h : '\n' ∉ s) : '\n' ∉ s.map visible := by
  intro hmem
  obtain ⟨c, hc, hvisible⟩ := List.mem_map.mp hmem
  rcases visible_cases c with ⟨-, hnull⟩ | hself
  · rw [hnull] at hvisible
    exact absurd hvisible (by decide)
  · rw [hself] at hvisible
    exact h (hvisible ▸ hc)

/-- **A line with such a tag is a paragraph** with the tag as raw markup in it. -/
theorem parse_tag {w text : List Char} {kind : TokenKind} {name : String}
    (htext : text = "x ".toList ++ '<' :: w ++ " y".toList) (hline : '\n' ∉ '<' :: w)
    (hreturn : '\r' ∉ '<' :: w) (hw : lexemeAfter (w.map visible) = .ok (some ⟨kind, name, []⟩))
    (hkind : kind = .openTag ∨ kind = .closeTag)
    (hraw : rawInlineRest? ('<' :: w.map visible) = some []) :
    ∃ tree, tree = oneParagraph (wholeSpan text)
        (aroundMarkup "x ".toList ('<' :: w.map visible) " y".toList) ∧
      parse text = .ok tree ∧ tree.validate Vocabulary.generic "parse" = .ok () := by
  have hbreak : '\n' ∉ text := by
    simp only [htext, List.mem_append, not_or]
    exact ⟨⟨by decide, hline⟩, by decide⟩
  have hplain : '\r' ∉ text := by
    simp only [htext, List.mem_append, not_or]
    exact ⟨⟨by decide, hreturn⟩, by decide⟩
  have hnorm : normalize text = 'x' :: ' ' :: '<' :: (w.map visible ++ " y".toList) := by
    rw [normalize_eq_map hplain, htext]
    simp [visible]
  have hsyntax : parseSyntax text = .ok
      [soleParagraph ('x' :: ' ' :: '<' :: (w.map visible ++ " y".toList))
        [leafPiece "text" "x ".toList, leafPiece "html_inline" ('<' :: w.map visible),
          leafPiece "text" " y".toList]] := by
    have hmapped := newline_not_mem_visible hbreak
    rw [← normalize_eq_map hplain, hnorm] at hmapped
    have hlast : (('x' :: ' ' :: '<' :: w.map visible) ++ " y".toList).getLast? = some 'y' := by
      rw [List.getLast?_append]
      rfl
    rw [parseSyntax_line hnorm (by decide) hmapped (congrArg (Option.any isBlank) hlast)]
    exact congrArg (fun pieces => Except.ok [soleParagraph _ pieces]) (parseInline_tag hw hkind hraw)
  have htree := Generic.ofSyntax_soleParagraph hbreak
    ('x' :: ' ' :: '<' :: (w.map visible ++ " y".toList)) "x ".toList ('<' :: w.map visible) " y".toList
  refine ⟨_, rfl, ?_, Generic.validate_ofSyntax htree ?_⟩
  · rw [parse, hsyntax]
    exact htree
  · simp [soleParagraph, leafPiece, Generic.soundLines_cons, Generic.soundLines_nil, Syntax.head,
      Syntax.children]

end Markdown

namespace Extended

open Mdx.Element
open Mdx.Generic (aroundMarkup oneParagraph)
open Mdx.Markdown (normalize rawInlineRest?)

theorem reclassifyList_aroundMarkup {doc : Option Document} {nearest : Option Position}
    {before markup after : List Char} {e : StructureError}
    (h : parseChildren markup { fallback := nearest } = .error e) :
    reclassifyList doc nearest (aroundMarkup before markup after) = .error e := by
  have hplace : placement doc nearest { kind := "html", value := some (String.ofList markup) } markup =
      { fallback := nearest } := by
    cases doc <;> rfl
  simp [aroundMarkup, Node.ofText, reclassifyList, reclassify, elementOf, hplace, h]

/-- An error in the running text of a document that is one paragraph, and no statement. -/
theorem ofGeneric_oneParagraph {text : List Char} {position : Position} {nodes : List Node}
    {e : StructureError}
    (hvalid : (oneParagraph position nodes).validate Vocabulary.generic "parse" = .ok ())
    (hkeyword : Script.statementKeyword? text position.start.offset.toNat = none)
    (hfails : reclassifyList (some (.ofText text)) (some position) nodes = .error e) :
    ofGeneric (some text) (oneParagraph position nodes) = .error e := by
  have hopening : opening (some (.ofText text))
      (.branch { kind := "paragraph", position := some position } nodes) = .content := by
    simp [opening, Node.kind, Node.position, Node.head, Document.ofText, hkeyword]
  have hextract : extractStatements (some (.ofText text)) (oneParagraph position nodes).children =
      .ok (oneParagraph position nodes).children := by
    rw [oneParagraph, Node.children, extractStatements_content hopening, extractStatements]
    rfl
  have hclass : reclassify (some (.ofText text)) none
      (.branch (oneParagraph position nodes).head (oneParagraph position nodes).children) =
        .error e := by
    simp [oneParagraph, Node.head, Node.children, reclassify, reclassifyList, hfails]
  rw [ofGeneric, hvalid]
  simp only [Option.map_some, bind, Except.bind, hextract, hclass]

/-- **An unbalanced tag in a paragraph is rejected.**  Take any text without line breaks that is a single
opening or closing tag, and that the grammar of raw markup takes as a whole, once null characters are
replaced.  The document that has it between two words is parsed, and extending it fails: the error is that
of an open or a stray tag of its name, and it has the position of the paragraph. -/
theorem unbalanced_tag_is_rejected (tag : List Char) (t : Element.Token) (hline : '\n' ∉ tag)
    (hreturn : '\r' ∉ tag) (htokens : tokens tag = ([t], none))
    (hkind : t.kind = .openTag ∨ t.kind = .closeTag)
    (hraw : rawInlineRest? (normalize tag) = some []) :
    ∃ tree : Node,
      Markdown.parse ("x ".toList ++ tag ++ " y".toList) = .ok tree ∧
      ofGeneric (some ("x ".toList ++ tag ++ " y".toList)) tree =
        .error
          ⟨if t.kind = .openTag then .unterminatedElement t.name else .strayClosingTag t.name,
            some (wholeSpan ("x ".toList ++ tag ++ " y".toList))⟩ := by
  obtain ⟨w, rfl, hw⟩ := exists_lexeme_of_tokens htokens (by rcases hkind with h | h <;> simp [h])
  have hw' := lexemeAfter_visible hw (by rcases hkind with h | h <;> simp [h])
  rw [Markdown.normalize_eq_map hreturn] at hraw
  obtain ⟨tree, rfl, hparse, hvalid⟩ := Markdown.parse_tag rfl hline hreturn hw' hkind hraw
  refine ⟨_, hparse, ofGeneric_oneParagraph hvalid ?_ (reclassifyList_aroundMarkup ?_)⟩
  · rfl
  · rw [parseChildren_eq_error hw' hkind]
    rfl

/-- An opening tag with an attribute that is never closed. -/
theorem unbalanced_tag_is_rejected_attribute :
    tokens "<b c=\"d\">".toList = ([⟨.openTag, "b", 0, 9⟩], none) ∧
    rawInlineRest? (normalize "<b c=\"d\">".toList) = some [] ∧
    ∃ tree : Node,
      Markdown.parse ("x ".toList ++ "<b c=\"d\">".toList ++ " y".toList) = .ok tree ∧
      ofGeneric (some ("x ".toList ++ "<b c=\"d\">".toList ++ " y".toList)) tree =
        .error
          ⟨.unterminatedElement "b",
            some (wholeSpan ("x ".toList ++ "<b c=\"d\">".toList ++ " y".toList))⟩ := by
  have htokens : tokens "<b c=\"d\">".toList = ([⟨.openTag, "b", 0, 9⟩], none) := by decide +kernel
  have hraw : rawInlineRest? (normalize "<b c=\"d\">".toList) = some [] := by decide +kernel
  exact ⟨htokens, hraw,
    unbalanced_tag_is_rejected _ _ (by decide) (by decide) htokens (Or.inl rfl) hraw⟩

/-- A tag whose name has a dot is an opening tag to the lexer and no tag to the grammar of raw markup: it
stays in the text, and the document is accepted. -/
theorem member_tag_is_text :
    startsHere "<a.b>".toList = true ∧
    tokens "<a.b>".toList = ([⟨.openTag, "a.b", 0, 5⟩], none) ∧
    rawInlineRest? (normalize "<a.b>".toList) = none ∧
    (Markdown.parse ("x ".toList ++ "<a.b>".toList ++ " y".toList)).toOption.map (fun tree =>
      (ofGeneric (some ("x ".toList ++ "<a.b>".toList ++ " y".toList)) tree).toOption.map
        Node.literalText) = some (some "x <a.b> y") := by
  refine ⟨by decide +kernel, by decide +kernel, by decide +kernel, by decide +kernel⟩

end Extended

end Mdx
