import Mdx.Proofs.Element.Spelling
import Mdx.Proofs.Module.Expression
import Mdx.Proofs.Module.Renderable

/-!
# Rendered code mirrors its tree

What a node is rendered as is read back as markup: its tags nest as the elements of the tree do, and
between two tags there are line breaks and the texts of the tree, each as a template literal
(`Renderable.mirrors`).

`Drawn os ms r` says that the code `r` is spelled by the marks `ms`, whatever follows, and that their tags
nest as `os` does.  It holds of each thing that rendering writes (`drawn_text`, `drawn_void`,
`Drawn.around`) and of code put together from such pieces (`Drawn.append`, `Drawn.layout`).
-/

namespace Mdx.Module

open Mdx.Element

/-! ### Calls of the component -/

/-- The attributes of a component's call. -/
def attributes (name : String) (parent : Option String) (properties : Json) : List Char :=
  quotedAttribute "name".toList name.toList ++
    (expressionAttribute "components".toList "components".toList ++
      ((match parent with
        | some p => quotedAttribute "parentName".toList p.toList
        | none => []) ++
        (if properties.isEmpty then [] else expressionAttribute "props".toList properties.write.toList)))

theorem tagOpening_eq (name : String) (parent : Option String) (properties : Json) :
    (tagOpening name parent properties).toList =
      '<' :: ("MDXTag".toList ++ attributes name parent properties) := by
  unfold tagOpening attributes
  cases parent <;> cases properties.isEmpty <;> simp [quotedAttribute, expressionAttribute]

theorem skips_attributes {name : String} {parent : Option String} (hname : TagSound name)
    (hparent : ∀ p ∈ parent, TagSound p) (properties : Json) :
    Skips (attributes name parent properties) := by
  refine (skips_quoted (by decide) (by decide) hname.2).append ?_
  refine (skips_expression (by decide) (by decide) (Script.Plain.inert (by decide))).append ?_
  refine Skips.append ?_ ?_
  · cases parent with
    | none => exact skips_nil
    | some p => exact skips_quoted (by decide) (by decide) (hparent p rfl).2
  · split
    · exact skips_nil
    · exact skips_expression (by decide) (by decide) (Json.inert_write properties)

theorem spells_tagOpening {name : String} {parent : Option String} (hname : TagSound name)
    (hparent : ∀ p ∈ parent, TagSound p) (properties : Json) {ending : List Char} {closed : Bool}
    (hend : ∀ (n : String) (start u : List Char), tagRest n start (ending ++ u) = .ok (closed, u)) :
    Spells ((tagOpening name parent properties).toList ++ ending)
      [.tag (if closed then .selfClosing else .openTag) "MDXTag"] := by
  have hskip := skips_attributes hname hparent properties
  have heq : (tagOpening name parent properties).toList ++ ending =
      '<' :: ("MDXTag".toList ++ (attributes name parent properties ++ ending) ++ []) := by
    rw [tagOpening_eq]
    simp
  rw [heq]
  refine .tag (fun u => ?_) .nil
  rw [List.append_assoc, List.append_assoc]
  exact lexemeAfter_written (by decide) (by decide) hskip fun n start => hend n start u

theorem spells_closing : Spells "</MDXTag>".toList [.tag .closeTag "MDXTag"] := by
  have hclosing : lexemeAfter ("/MDXTag".toList ++ ['>']) = .ok (some ⟨.closeTag, "MDXTag", []⟩) := by
    rw [show "/MDXTag".toList = '/' :: "MDXTag".toList from rfl, List.cons_append, lexemeAfter_slash]
    rfl
  have heq : "</MDXTag>".toList = '<' :: ("/MDXTag".toList ++ ['>'] ++ []) := by decide
  rw [heq]
  refine .tag (fun u => ?_) .nil
  rw [List.append_assoc]
  exact lexemeAfter_replace hclosing u

/-! ### Pieces of rendered code -/

/-- The code is spelled by the marks, whatever follows, and their tags nest as the outlines do. -/
structure Drawn (os : List Outline) (ms : List Mark) (r : String) : Prop where
  spells : Spells r.toList ms
  nested : Nested (tagsOf ms) os

theorem drawn_nil : Drawn [] [] "" :=
  ⟨.nil, .nil⟩

theorem Drawn.append {os os' : List Outline} {ms ms' : List Mark} {r r' : String}
    (h : Drawn os ms r) (h' : Drawn os' ms' r') : Drawn (os ++ os') (ms ++ ms') (r ++ r') := by
  constructor
  · rw [String.toList_append]
    exact h.spells.append h'.spells
  · rw [tagsOf_append]
    exact h.nested.append h'.nested

theorem drawn_lineBreak : Drawn [] [.text ['\n']] "\n" := by
  refine ⟨?_, .nil⟩
  exact .text (x := ['\n']) (fun u => .char (by decide) (by decide)) .nil

theorem drawn_text (v : String) : Drawn [] [.text (templateGroup v).toList] (templateGroup v) := by
  have hspells : Spells ((templateGroup v).toList ++ []) [.text (templateGroup v).toList] := by
    refine .text (fun u => ?_) .nil
    have hgroup := groupRest?_templateGroup v u
    rw [toList_templateGroup, List.cons_append] at hgroup ⊢
    exact .group hgroup
  rw [List.append_nil] at hspells
  exact ⟨hspells, .nil⟩

theorem drawn_void {name : String} {parent : Option String} (hname : TagSound name)
    (hparent : ∀ p ∈ parent, TagSound p) (properties : Json) :
    Drawn [.node []] [.tag .selfClosing "MDXTag"] (tagOpening name parent properties ++ " />") := by
  refine ⟨?_, .selfClosing .nil⟩
  rw [String.toList_append]
  exact spells_tagOpening hname hparent properties tagRest_slash

theorem Drawn.around {name : String} {parent : Option String} (hname : TagSound name)
    (hparent : ∀ p ∈ parent, TagSound p) (properties : Json) {os : List Outline} {ms : List Mark}
    {inner : String} (h : Drawn os ms inner) :
    Drawn [.node os] (.tag .openTag "MDXTag" :: (ms ++ [.tag .closeTag "MDXTag"]))
      (tagAround name parent properties inner) := by
  constructor
  · have hopen := spells_tagOpening hname hparent properties tagRest_bracket
    rw [tagAround, String.toList_append, String.toList_append, String.toList_append]
    exact (hopen.append h.spells).append spells_closing
  · rw [tagsOf, tagsOf_append]
    exact .element h.nested .nil

/-! ### Layout -/

variable {α : Type} {motive : List α → String → Prop}

/-- Induction along code that is put together with line breaks between its pieces. -/
theorem intercalate_induction (nil : motive [] "") (lineBreak : motive [] "\n")
    (append : ∀ as bs r s, motive as r → motive bs s → motive (as ++ bs) (r ++ s)) {as : List α}
    {rendered : List String} (h : List.Forall₂ (fun a r => motive [a] r) as rendered) :
    motive as ("\n".intercalate rendered) := by
  induction h with
  | nil => exact nil
  | @cons a r as rs ha hrest ih =>
    cases hrest with
    | nil => exact ha
    | @cons b s bs ss hb hrest =>
      rw [String.intercalate_cons_cons]
      exact append [a] (b :: bs) _ _ (append [a] [] _ _ ha lineBreak) ih

/-- Induction along the contents of an element. -/
theorem layout_induction (nil : motive [] "") (lineBreak : motive [] "\n")
    (append : ∀ as bs r s, motive as r → motive bs s → motive (as ++ bs) (r ++ s)) {as : List α}
    {rendered : List String} (h : List.Forall₂ (fun a r => motive [a] r) as rendered) (block : Bool) :
    motive as (layout block rendered) := by
  cases block with
  | true =>
    have hlines := intercalate_induction nil lineBreak append h
    have hclosed := append as [] _ _ (append [] as _ _ lineBreak hlines) lineBreak
    rw [List.append_nil] at hclosed
    exact hclosed
  | false =>
    show motive as (String.join rendered)
    induction h with
    | nil => exact nil
    | @cons a r as rs ha hrest ih =>
      rw [String.join_cons]
      exact append [a] as r _ ha ih

/-! ### What stands between tags -/

/-- What the rendering of a tree shows from left to right: a tag, or the value of a text. -/
inductive Event where
  | tag
  | text (value : String)

/-- Whether an element without children is one tag. -/
def isVoid (h : NodeHead) : Bool :=
  match h.props.lookup "tagName" with
  | some (.str tag) => voidTags.contains tag
  | _ => false

/-- What is shown of a node at which rendering stops. -/
def plainEvents (h : NodeHead) : List Event :=
  if h.kind = "inlineCode" then [.tag, .text (h.value.getD ""), .tag] else [.text (h.value.getD "")]

/-- What is shown of an element: one tag if it closes itself, and else two around what is in it. -/
def elementEvents (closed : Bool) (inner : List Event) : List Event :=
  if closed then [.tag] else .tag :: (inner ++ [.tag])

mutual

/-- What is shown of a node: the tags of elements and inline code, and the texts in between. -/
def events : Node → List Event
  | .leaf h => if h.kind = "element" then elementEvents (isVoid h) [] else plainEvents h
  | .branch h cs =>
      if h.kind = "element" then elementEvents (cs.isEmpty && isVoid h) (eventsOf cs)
      else plainEvents h

/-- What is shown of nodes, one after another. -/
def eventsOf : List Node → List Event
  | [] => []
  | n :: rest => events n ++ eventsOf rest

end

/-- The values of the texts before, between and after the tags. -/
def runs : List Event → List (List String)
  | [] => [[]]
  | .tag :: es => [] :: runs es
  | .text v :: es => (runs es).modifyHead (v :: ·)

/-- A text between tags: line breaks and, for each value in order, the escaped value between backticks
in braces. -/
inductive Gap : List String → List Char → Prop
  | nil : Gap [] []
  | lineBreak {vs : List String} {s : List Char} (rest : Gap vs s) : Gap vs ('\n' :: s)
  | text {vs : List String} {s : List Char} (v : String) (rest : Gap vs s) :
      Gap (v :: vs) ('\x7b' :: '\x60' :: (escapeTemplate v.toList ++ ('\x60' :: '\x7d' :: s)))

theorem Gap.group {vs : List String} {s : List Char} (v : String) (rest : Gap vs s) :
    Gap (v :: vs) ((templateGroup v).toList ++ s) := by
  have hgroup : (templateGroup v).toList ++ s =
      '\x7b' :: '\x60' :: (escapeTemplate v.toList ++ ('\x60' :: '\x7d' :: s)) := by
    rw [toList_templateGroup]
    simp
  rw [hgroup]
  exact .text v rest

theorem eventsOf_append (ms ns : List Node) : eventsOf (ms ++ ns) = eventsOf ms ++ eventsOf ns := by
  induction ms with
  | nil => rfl
  | cons m ms ih => rw [List.cons_append, eventsOf, eventsOf, ih, List.append_assoc]

theorem eventsOf_singleton (n : Node) : eventsOf [n] = events n :=
  List.append_nil (events n)

theorem events_plain {n : Node} (hk : n.kind ≠ "element") : events n = plainEvents n.head := by
  cases n with
  | leaf h => exact if_neg hk
  | branch h cs => exact if_neg hk

theorem events_element {n : Node} {tag : String} (hk : n.kind = "element")
    (ht : n.prop? "tagName" = some (.str tag)) :
    events n = elementEvents (n.children.isEmpty && voidTags.contains tag) (eventsOf n.children) := by
  have hvoid : isVoid n.head = voidTags.contains tag := by
    rw [isVoid, show n.head.props.lookup "tagName" = some (.str tag) from ht]
  rw [← hvoid]
  cases n with
  | leaf h => exact if_pos hk
  | branch h cs => exact if_pos hk

/-- The marks are the events and line breaks between them. -/
inductive Shows : List Event → List Mark → Prop
  | nil : Shows [] []
  | tag {es : List Event} {ms : List Mark} {kind : TokenKind} {name : String} (rest : Shows es ms) :
      Shows (.tag :: es) (.tag kind name :: ms)
  | text {es : List Event} {ms : List Mark} (v : String) (rest : Shows es ms) :
      Shows (.text v :: es) (.text (templateGroup v).toList :: ms)
  | lineBreak {es : List Event} {ms : List Mark} (rest : Shows es ms) :
      Shows es (.text ['\n'] :: ms)

theorem Shows.append {es es' : List Event} {ms ms' : List Mark} (h : Shows es ms)
    (h' : Shows es' ms') : Shows (es ++ es') (ms ++ ms') := by
  induction h with
  | nil => exact h'
  | tag _ ih => exact .tag ih
  | text v _ ih => exact .text v ih
  | lineBreak _ ih => exact .lineBreak ih

theorem forall₂_modifyHead {β γ : Type} {R : β → γ → Prop} {f : β → β} {g : γ → γ}
    (h : ∀ b c, R b c → R (f b) (g c)) {bs : List β} {cs : List γ} (hall : List.Forall₂ R bs cs) :
    List.Forall₂ R (bs.modifyHead f) (cs.modifyHead g) := by
  cases hall with
  | nil => exact .nil
  | cons hhead htail => exact .cons (h _ _ hhead) htail

/-- **Between the tags there are the texts of the events**, and line breaks. -/
theorem Shows.gaps {es : List Event} {ms : List Mark} (h : Shows es ms) :
    List.Forall₂ Gap (runs es) (gapsOf ms) := by
  induction h with
  | nil => exact .cons .nil .nil
  | tag _ ih => exact .cons .nil ih
  | text v _ ih => exact forall₂_modifyHead (fun _ _ => .group v) ih
  | @lineBreak es ms _ ih =>
    have hsame : (runs es).modifyHead id = runs es := congrFun List.modifyHead_id (runs es)
    rw [← hsame]
    exact forall₂_modifyHead (fun _ _ => .lineBreak) ih

/-! ### The whole rendering -/

/-- The code is read as the nodes nest, and shows their texts. -/
def Mirrors (ns : List Node) (r : String) : Prop :=
  ∃ ms : List Mark, Drawn (outlines ["element"] ["inlineCode"] ns) ms r ∧ Shows (eventsOf ns) ms

theorem mirrors_nil : Mirrors [] "" :=
  ⟨[], drawn_nil, .nil⟩

theorem mirrors_lineBreak : Mirrors [] "\n" :=
  ⟨[.text ['\n']], drawn_lineBreak, .lineBreak .nil⟩

theorem Mirrors.append {ns ns' : List Node} {r r' : String} (h : Mirrors ns r) (h' : Mirrors ns' r') :
    Mirrors (ns ++ ns') (r ++ r') := by
  obtain ⟨ms, hdrawn, hshows⟩ := h
  obtain ⟨ms', hdrawn', hshows'⟩ := h'
  refine ⟨ms ++ ms', ?_, ?_⟩
  · rw [outlines_append]
    exact hdrawn.append hdrawn'
  · rw [eventsOf_append]
    exact hshows.append hshows'

theorem mirrors_singleton {n : Node} {os : List Outline} {ms : List Mark} {r : String}
    (ho : outline ["element"] ["inlineCode"] n = os) (hdrawn : Drawn os ms r)
    (hshows : Shows (events n) ms) : Mirrors [n] r := by
  refine ⟨ms, ?_, ?_⟩
  · rw [outlines_singleton, ho]
    exact hdrawn
  · rw [eventsOf_singleton]
    exact hshows

theorem mirrors_text {n : Node} (hk : n.kind = "text") : Mirrors [n] (templateGroup n.text) := by
  refine mirrors_singleton (outline_other ?_ ?_) (drawn_text n.text) ?_
  · rw [hk]; decide
  · rw [hk]; decide
  · rw [events_plain (by rw [hk]; decide), plainEvents,
      if_neg (by rw [show n.head.kind = "text" from hk]; decide)]
    exact .text n.text .nil

theorem mirrors_inlineCode {n : Node} {parent : Option String} (hk : n.kind = "inlineCode")
    (hparent : ∀ p ∈ parent, TagSound p) :
    Mirrors [n] (tagAround "inlineCode" parent (.obj []) (templateGroup n.text)) := by
  have hname : TagSound "inlineCode" := ⟨by decide, by decide⟩
  refine mirrors_singleton (outline_inner ?_ ?_) ((drawn_text n.text).around hname hparent _) ?_
  · rw [hk]; decide
  · rw [hk]; decide
  · rw [events_plain (by rw [hk]; decide), plainEvents,
      if_pos (show n.head.kind = "inlineCode" from hk)]
    exact .tag (.text n.text (.tag .nil))

theorem mirrors_void {n : Node} {tag : String} {parent : Option String} (hk : n.kind = "element")
    (ht : n.prop? "tagName" = some (.str tag)) (hs : TagSound tag) (hparent : ∀ p ∈ parent, TagSound p)
    (hc : n.children = []) (hv : tag ∈ voidTags) (properties : Json) :
    Mirrors [n] (tagOpening tag parent properties ++ " />") := by
  refine mirrors_singleton ?_ (drawn_void hs hparent properties) ?_
  · rw [outline_outer (by rw [hk]; decide), hc]
    rfl
  · rw [events_element hk ht, hc, List.contains_iff_mem.mpr hv]
    exact .tag .nil

theorem Mirrors.element {n : Node} {tag : String} {parent : Option String} (hk : n.kind = "element")
    (ht : n.prop? "tagName" = some (.str tag)) (hs : TagSound tag) (hparent : ∀ p ∈ parent, TagSound p)
    (hv : n.children = [] → tag ∉ voidTags) (properties : Json) {inner : String}
    (h : Mirrors n.children inner) : Mirrors [n] (tagAround tag parent properties inner) := by
  obtain ⟨ms, hdrawn, hshows⟩ := h
  have hopen : (n.children.isEmpty && voidTags.contains tag) = false := by
    rw [Bool.and_eq_false_imp]
    intro hc
    rw [← Bool.not_eq_true, List.contains_iff_mem]
    exact hv (List.isEmpty_iff.mp hc)
  refine mirrors_singleton (outline_outer ?_) (hdrawn.around hs hparent properties) ?_
  · rw [hk]; decide
  · rw [events_element hk ht, hopen]
    exact .tag (hshows.append (.tag .nil))

/-- **Every rendering mirrors its node.** -/
theorem Renderable.mirrors {n : Node} (h : Renderable (fun n => n.kind ≠ "jsx") n)
    {parent : Option String} {r : String} (hparent : ∀ p ∈ parent, TagSound p)
    (hr : render parent n = .ok r) : Mirrors [n] r := by
  refine h.render_induction (motive := fun n r => Mirrors [n] r) ?text ?inlineCode ?jsx ?void
    ?element parent r hparent hr
  case text => exact fun n hk => mirrors_text hk
  case inlineCode => exact fun n parent hk hp => mirrors_inlineCode hk hp
  case jsx => exact fun n hk hne => absurd hk hne
  case void => exact fun n tag parent hk ht hs hp hc hv => mirrors_void hk ht hs hp hc hv _
  case element =>
    intro n tag parent block rendered hk ht hs hp hv hall
    refine Mirrors.element hk ht hs hp hv _ ?_
    exact layout_induction mirrors_nil mirrors_lineBreak (fun _ _ _ _ => Mirrors.append) hall block

/-- **Rendered code mirrors its tree.**  A tree without embedded elements whose tag names can be written
between quotes has a rendering.  The rendering is accepted as markup, its elements nest as the elements
and inline code of the tree do, and what stands before, between and after its tags are line breaks and
the texts of the tree that belong there, each as a template literal in braces. -/
theorem rendering_mirrors_tree {child : Node} (h : Renderable (fun n => n.kind ≠ "jsx") child)
    (place : Placement) :
    ∃ r : String, render none child = .ok r ∧
      (∃ ns : List Node, parseFragment r.toList place = .ok ns ∧
        outlines ["jsx"] [] ns = outline ["element"] ["inlineCode"] child) ∧
      List.Forall₂ Gap (runs (events child)) (gaps r.toList) := by
  obtain ⟨r, hr⟩ := h.exists_render none
  obtain ⟨ms, hdrawn, hshows⟩ := h.mirrors (fun _ hp => absurd hp (Option.not_mem_none _)) hr
  rw [outlines_singleton] at hdrawn
  rw [eventsOf_singleton] at hshows
  refine ⟨r, hr, hdrawn.spells.exists_parseFragment hdrawn.nested place, ?_⟩
  rw [hdrawn.spells.gaps_eq]
  exact hshows.gaps

/-- A quotation whose properties and texts hold quotes, braces, backticks and a backslash. -/
def quotation : Node :=
  .element "blockquote" [("cite", .arr [.str "\x22\x7d", .obj [("\x7b", .null)]])] none
    [.element "p" [] none
      [.ofText "\x60 $\x7b \\" none, .element "br" [] none [],
       .leaf { kind := "inlineCode", value := "</MDXTag>" }]]

/-- What the quotation is rendered as: a void tag, inline code and both layouts. -/
def quotationCode : String :=
  "<MDXTag name=\"blockquote\" components=\x7bcomponents\x7d " ++
    "props=\x7b\x7b\"cite\": [\"\\\"\x7d\", \x7b\"\x7b\": null\x7d]\x7d\x7d>\n" ++
    "<MDXTag name=\"p\" components=\x7bcomponents\x7d parentName=\"blockquote\">" ++
    "\x7b\x60\\\x60 \\$\x7b \\\\\x60\x7d" ++
    "<MDXTag name=\"br\" components=\x7bcomponents\x7d parentName=\"p\" />" ++
    "<MDXTag name=\"inlineCode\" components=\x7bcomponents\x7d parentName=\"p\">" ++
    "\x7b\x60</MDXTag>\x60\x7d</MDXTag></MDXTag>\n</MDXTag>"

theorem rendering_mirrors_tree_quotation :
    Renderable (fun n => n.kind ≠ "jsx") quotation ∧
      outline ["element"] ["inlineCode"] quotation = [.node [.node [.node [], .node []]]] ∧
      runs (events quotation) =
        [[], [], ["\x60 $\x7b \\"], [], ["</MDXTag>"], [], [], []] ∧
      render none quotation = .ok quotationCode ∧
      (∃ ns : List Node, parseFragment quotationCode.toList {} = .ok ns ∧
        outlines ["jsx"] [] ns = outline ["element"] ["inlineCode"] quotation) ∧
      List.Forall₂ Gap (runs (events quotation)) (gaps quotationCode.toList) := by
  have h : Renderable (fun n => n.kind ≠ "jsx") quotation := by
    refine .element rfl rfl ⟨by decide, by decide⟩ fun c hc => ?_
    rw [List.mem_singleton.mp hc]
    refine .element rfl rfl ⟨by decide, by decide⟩ fun c hc => ?_
    simp only [Node.element, Node.children, List.mem_cons, List.not_mem_nil, or_false] at hc
    rcases hc with rfl | rfl | rfl
    · exact .plain (by decide) (by decide)
    · exact .element rfl rfl ⟨by decide, by decide⟩ (List.forall_mem_nil _)
    · exact .plain (by decide) (by decide)
  have hcode : render none quotation = .ok quotationCode :=
    eq_ok_of_toOption (by decide +kernel)
  obtain ⟨r, hr, hparse, hgaps⟩ := rendering_mirrors_tree h {}
  obtain rfl : quotationCode = r := Except.ok.inj (hcode.symm.trans hr)
  exact ⟨h, rfl, rfl, hcode, hparse, hgaps⟩

end Mdx.Module
