import Mdx.Generic.Basic
import Mdx.Proofs.Markup.Mapping

/-!
# The trees of documents are regular

Every node of a parsed document but its root is regular: it has a shape in the markup, or is raw
markup, and it stands where its kind may stand (`regular_blocks`).  The only thing that is asked of the
document's syntax is that headings have the tags of the six depths.
-/

namespace Mdx.Generic

open Mdx.Markdown
open Mdx.Markup (Regular regular_of_free freeKinds admits)
open Mdx.Node (Everywhere everywhere_cons everywhere_nil flattenStack)

/-! ### Lists of regular trees -/

/-- All nodes of these trees are regular. -/
def AllRegular (ns : List Node) : Prop :=
  ∀ x ∈ flattenStack ns, Regular x

theorem allRegular_nil : AllRegular [] :=
  Node.everywhere_nil

theorem allRegular_cons {n : Node} {rest : List Node} :
    AllRegular (n :: rest) ↔ Regular n ∧ AllRegular n.children ∧ AllRegular rest :=
  Node.everywhere_cons

theorem AllRegular.append {xs ys : List Node} (hx : AllRegular xs) (hy : AllRegular ys) :
    AllRegular (xs ++ ys) :=
  Node.Everywhere.append hx hy

theorem AllRegular.cons_leaf {h : NodeHead} {rest : List Node} (hk : h.kind ∈ freeKinds)
    (hrest : AllRegular rest) : AllRegular (.leaf h :: rest) :=
  allRegular_cons.mpr ⟨regular_of_free hk, allRegular_nil, hrest⟩

theorem AllRegular.cons_branch {h : NodeHead} {cs rest : List Node} (hk : h.kind ∈ freeKinds)
    (hc : AllRegular cs) (hrest : AllRegular rest) : AllRegular (.branch h cs :: rest) :=
  allRegular_cons.mpr ⟨regular_of_free hk, hc, hrest⟩

/-! ### Running text -/

/-- The kinds of the nodes of running text. -/
def inlineKinds : List String :=
  ["text", "break", "inlineCode", "emphasis", "strong", "delete", "link", "image", "html"]

/-- A node of running text, which has no position. -/
def IsInline (x : Node) : Prop :=
  x.kind ∈ inlineKinds ∧ x.position = none

theorem everywhere_inline_leaf {h : NodeHead} {rest : List Node} (hk : h.kind ∈ inlineKinds)
    (hp : h.position = none) (hrest : Everywhere IsInline rest) :
    Everywhere IsInline (.leaf h :: rest) :=
  everywhere_cons.mpr ⟨⟨hk, hp⟩, everywhere_nil, hrest⟩

theorem everywhere_inline_branch {h : NodeHead} {cs rest : List Node} (hk : h.kind ∈ inlineKinds)
    (hp : h.position = none) (hc : Everywhere IsInline cs) (hrest : Everywhere IsInline rest) :
    Everywhere IsInline (.branch h cs :: rest) :=
  everywhere_cons.mpr ⟨⟨hk, hp⟩, hc, hrest⟩

theorem inline_addText {content : String} {done : List Node} (h : Everywhere IsInline done) :
    Everywhere IsInline (addText content done) := by
  cases done with
  | nil => exact everywhere_inline_leaf (by simp [inlineKinds]) rfl everywhere_nil
  | cons last before =>
    rw [addText]
    split
    · obtain ⟨⟨hk, hp⟩, hc, hbefore⟩ := everywhere_cons.mp h
      cases last with
      | leaf head => exact everywhere_inline_leaf hk hp hbefore
      | branch head cs => exact everywhere_inline_branch hk hp hc hbefore
    · exact everywhere_inline_leaf (by simp [inlineKinds]) rfl h

theorem inline_inlineNode {h : SyntaxHead} {children done : List Node} {n : Node}
    (hn : inlineNode h children = .ok n) (hc : Everywhere IsInline children)
    (hd : Everywhere IsInline done) : Everywhere IsInline (n :: done) := by
  unfold inlineNode at hn
  split at hn <;> cases hn
  · exact everywhere_inline_leaf (by simp [inlineKinds]) rfl hd
  · exact everywhere_inline_leaf (by simp [inlineKinds]) rfl hd
  · exact everywhere_inline_branch (by simp [inlineKinds]) rfl hc hd
  · exact everywhere_inline_branch (by simp [inlineKinds]) rfl hc hd
  · exact everywhere_inline_branch (by simp [inlineKinds]) rfl hc hd
  · exact everywhere_inline_branch (by simp [inlineKinds]) rfl hc hd
  · exact everywhere_inline_leaf (by simp [inlineKinds]) rfl hd
  · exact everywhere_inline_leaf (by simp [inlineKinds]) rfl hd

mutual

theorem inline_addInline : ∀ (s : Syntax) {done out : List Node}, addInline done s = .ok out →
    Everywhere IsInline done → Everywhere IsInline out
  | .node h cs, done, out, hout, hd => by
    rw [addInline] at hout
    split at hout
    · cases hout
      exact inline_addText hd
    · split at hout
      · cases hout
        exact inline_addText hd
      · split at hout
        · split at hout
          · cases hout
          next children hchildren =>
            split at hout
            · cases hout
            next n hn =>
              cases hout
              have hc := inline_addInlines cs hchildren everywhere_nil
              exact inline_inlineNode hn hc.reverse hd
        · split at hout
          · cases hout
          next n hn =>
            cases hout
            exact inline_inlineNode hn everywhere_nil hd

theorem inline_addInlines : ∀ (pieces : List Syntax) {done out : List Node},
    addInlines done pieces = .ok out → Everywhere IsInline done → Everywhere IsInline out
  | [], done, out, hout, hd => by
    rw [addInlines] at hout
    cases hout
    exact hd
  | s :: rest, done, out, hout, hd => by
    rw [addInlines] at hout
    split at hout
    · cases hout
    next done' hdone =>
      exact inline_addInlines rest hout (inline_addInline s hdone hd)

end

/-- **The nodes of running text have kinds of their own and no positions.** -/
theorem inline_inlineContent {pieces : List Syntax} {ns : List Node}
    (h : inlineContent pieces = .ok ns) : Everywhere IsInline ns := by
  induction pieces generalizing ns with
  | nil =>
    cases h
    exact everywhere_nil
  | cons s rest ih =>
    rw [inlineContent] at h
    split at h
    · obtain ⟨first, hfirst, h⟩ := exists_ok_of_bind h
      obtain ⟨others, hothers, h⟩ := exists_ok_of_bind h
      cases h
      obtain ⟨done, hdone, rfl⟩ := exists_ok_of_map hfirst
      have hall := inline_addInlines s.children hdone everywhere_nil
      exact hall.reverse.append (ih hothers)
    · exact ih h

theorem regular_inlineContent {pieces : List Syntax} {ns : List Node}
    (h : inlineContent pieces = .ok ns) : AllRegular ns := by
  intro x hx
  have hfree : inlineKinds ⊆ freeKinds := by decide
  exact regular_of_free (hfree (inline_inlineContent h x hx).1)

/-! ### Headings -/

/-- A piece of syntax stands among these, at some depth. -/
inductive Within (s : Syntax) : List Syntax → Prop
  | here {pieces : List Syntax} (h : s ∈ pieces) : Within s pieces
  | inside {pieces : List Syntax} {t : Syntax} (ht : t ∈ pieces) (h : Within s t.children) :
      Within s pieces

theorem not_within_nil {s : Syntax} : ¬Within s [] := by
  intro h
  cases h with
  | here h => cases h
  | inside ht _ => cases ht

theorem forall_within_cons {P : Syntax → Prop} {t : Syntax} {rest : List Syntax} :
    (∀ s, Within s (t :: rest) → P s) ↔
      P t ∧ (∀ s, Within s t.children → P s) ∧ ∀ s, Within s rest → P s := by
  constructor
  · intro h
    refine ⟨h t (.here List.mem_cons_self), fun s hs => h s (.inside List.mem_cons_self hs),
      fun s hs => h s ?_⟩
    cases hs with
    | here hmem => exact .here (List.mem_cons_of_mem t hmem)
    | inside hmem hs => exact .inside (List.mem_cons_of_mem t hmem) hs
  · rintro ⟨ht, hchildren, hrest⟩ s hs
    cases hs with
    | here hmem =>
      rcases List.mem_cons.mp hmem with rfl | hmem
      · exact ht
      · exact hrest s (.here hmem)
    | inside hmem hs =>
      rcases List.mem_cons.mp hmem with rfl | hmem
      · exact hchildren s hs
      · exact hrest s (.inside hmem hs)

/-- The tags of headings. -/
def headingTags : List String :=
  ["h1", "h2", "h3", "h4", "h5", "h6"]

/-- All headings among these pieces, at any depth, have the tag of a depth. -/
def SoundHeadings (pieces : List Syntax) : Prop :=
  ∀ s : Syntax, Within s pieces → s.kind = "heading" → s.head.tag ∈ headingTags

theorem soundHeadings_nil : SoundHeadings [] :=
  fun _ hs => absurd hs not_within_nil

theorem soundHeadings_cons {t : Syntax} {rest : List Syntax} :
    SoundHeadings (t :: rest) ↔
      (t.kind = "heading" → t.head.tag ∈ headingTags) ∧ SoundHeadings t.children ∧
        SoundHeadings rest :=
  forall_within_cons

theorem headingDepth_range {tag : String} (ht : tag ∈ headingTags) {depth : Int}
    (hd : headingDepth tag = .ok depth) : 1 ≤ depth ∧ depth ≤ 6 := by
  have hall : ∀ tag ∈ headingTags,
      (headingDepth tag).toOption.all (fun d => 1 ≤ d ∧ d ≤ 6) = true := by
    decide +kernel
  have hrange := hall tag ht
  rw [hd] at hrange
  exact of_decide_eq_true hrange

theorem regular_heading {position : Option Position} {depth : Int} {children : List Node}
    (hd : 1 ≤ depth ∧ depth ≤ 6) :
    Regular (.branch { kind := "heading", position := position, props := [("depth", .int depth)] }
      children) := by
  constructor
  · refine .inr ⟨.wrapped ("h" ++ toString depth) [], ?_⟩
    simp [Markup.shapeOf, Markup.simpleTag?, Vocabulary.special, Markup.headingTag, Node.head,
      Json.toInteger, hd, Except.map]
  · intro c _
    rfl

/-! ### Tables -/

theorem regular_cellNodes {pieces : List Syntax} {ns : List Node} (h : cellNodes pieces = .ok ns) :
    AllRegular ns ∧ ∀ n ∈ ns, n.kind = "tableCell" := by
  induction pieces generalizing ns with
  | nil =>
    cases h
    exact ⟨allRegular_nil, List.forall_mem_nil _⟩
  | cons s rest ih =>
    rw [cellNodes] at h
    obtain ⟨children, hchildren, h⟩ := exists_ok_of_bind h
    obtain ⟨others, hothers, h⟩ := exists_ok_of_bind h
    cases h
    obtain ⟨hregular, hkinds⟩ := ih hothers
    refine ⟨?_, List.forall_mem_cons.mpr ⟨rfl, hkinds⟩⟩
    exact AllRegular.cons_branch (by simp [freeKinds]) (regular_inlineContent hchildren) hregular

theorem regular_rowNodes {ix : LineIndex} {pieces : List Syntax} {ns : List Node}
    (h : rowNodes ix pieces = .ok ns) : AllRegular ns ∧ ∀ n ∈ ns, n.kind = "tableRow" := by
  induction pieces generalizing ns with
  | nil =>
    cases h
    exact ⟨allRegular_nil, List.forall_mem_nil _⟩
  | cons s rest ih =>
    rw [rowNodes] at h
    obtain ⟨cells, hcells, h⟩ := exists_ok_of_bind h
    obtain ⟨position, -, h⟩ := exists_ok_of_bind h
    obtain ⟨others, hothers, h⟩ := exists_ok_of_bind h
    cases h
    obtain ⟨hregular, hkinds⟩ := ih hothers
    obtain ⟨hcellsRegular, hcellKinds⟩ := regular_cellNodes hcells
    refine ⟨allRegular_cons.mpr ⟨⟨?_, ?_⟩, hcellsRegular, hregular⟩,
      List.forall_mem_cons.mpr ⟨rfl, hkinds⟩⟩
    · exact .inr ⟨.row, Markup.shapeOf_tableRow rfl⟩
    · intro c hc
      exact beq_iff_eq.mpr (hcellKinds c hc)

theorem regular_table {position : Option Position} {aligns : List Json} {rows : List Node}
    (hrows : ∀ r ∈ rows, r.kind = "tableRow") :
    Regular (.branch { kind := "table", position := position, props := [("align", .arr aligns)] }
      rows) := by
  constructor
  · refine .inr ⟨.table aligns, ?_⟩
    cases aligns <;>
      simp [Markup.shapeOf, Markup.simpleTag?, Vocabulary.special, Markup.alignments, Node.head,
        Json.isEmpty, Except.map]
  · intro r hr
    exact beq_iff_eq.mpr (hrows r hr)

/-! ### Blocks -/

theorem regular_leafBlock {ix : LineIndex} {position : Option Position} {h : SyntaxHead}
    {cs : List Syntax} {n : Node} (hn : leafBlock ix position h cs = .ok n)
    (hh : h.kind = "heading" → h.tag ∈ headingTags) : AllRegular [n] := by
  unfold leafBlock at hn
  split at hn
  next =>
    obtain ⟨children, hchildren, hn⟩ := exists_ok_of_bind hn
    cases hn
    exact AllRegular.cons_branch (by simp [freeKinds]) (regular_inlineContent hchildren)
      allRegular_nil
  next hk =>
    obtain ⟨children, hchildren, hn⟩ := exists_ok_of_bind hn
    obtain ⟨depth, hdepth, hn⟩ := exists_ok_of_bind hn
    cases hn
    have hrange := headingDepth_range (hh hk) hdepth
    exact allRegular_cons.mpr ⟨regular_heading hrange, regular_inlineContent hchildren, allRegular_nil⟩
  next =>
    cases hn
    exact AllRegular.cons_leaf (by simp [freeKinds]) allRegular_nil
  next =>
    cases hn
    exact AllRegular.cons_leaf (by simp [freeKinds]) allRegular_nil
  next =>
    cases hn
    exact AllRegular.cons_leaf (by simp [freeKinds]) allRegular_nil
  next =>
    cases hn
    exact AllRegular.cons_leaf (by simp [freeKinds]) allRegular_nil
  next =>
    obtain ⟨rows, hrows, hn⟩ := exists_ok_of_bind hn
    cases hn
    obtain ⟨hregular, hkinds⟩ := regular_rowNodes hrows
    exact allRegular_cons.mpr ⟨regular_table hkinds, hregular, allRegular_nil⟩
  next => cases hn

theorem regular_listNode {position : Option Position} {h : SyntaxHead} {tight : Bool}
    {children : List Node} {n : Node} (hn : listNode position h tight children = .ok n)
    (hc : AllRegular children) : AllRegular [n] := by
  rw [listNode] at hn
  obtain ⟨start, -, hn⟩ := exists_ok_of_bind hn
  cases hn
  exact AllRegular.cons_branch (by simp [freeKinds]) hc allRegular_nil

mutual

theorem regular_block {ix : LineIndex} : ∀ (s : Syntax) {n : Node}, block ix s = .ok n →
    (s.kind = "heading" → s.head.tag ∈ headingTags) → SoundHeadings s.children → AllRegular [n]
  | .node h cs, n, hn, hk, hcs => by
    rw [block] at hn
    split at hn
    · cases hn
    next position _ =>
      split at hn
      · split at hn
        · cases hn
        next children hchildren =>
          cases hn
          exact AllRegular.cons_branch (by simp [freeKinds]) (regular_blocks cs hchildren hcs)
            allRegular_nil
      · split at hn
        · split at hn
          · cases hn
          next children hchildren => exact regular_listNode hn (regular_items cs hchildren hcs)
        · exact regular_leafBlock hn hk

/-- **The nodes of blocks, and all nodes in them, are regular.** -/
theorem regular_blocks {ix : LineIndex} : ∀ (pieces : List Syntax) {ns : List Node},
    blocks ix pieces = .ok ns → SoundHeadings pieces → AllRegular ns
  | [], ns, hns, hh => by
    rw [blocks] at hns
    cases hns
    exact allRegular_nil
  | s :: rest, ns, hns, hh => by
    obtain ⟨hk, hcs, hrest⟩ := soundHeadings_cons.mp hh
    rw [blocks] at hns
    split at hns
    · cases hns
    next n hn =>
      split at hns
      · cases hns
      next others hothers =>
        cases hns
        have hfirst : AllRegular [n] := regular_block s hn hk hcs
        exact hfirst.append (regular_blocks rest hothers hrest)

theorem regular_items {ix : LineIndex} {tight : Bool} : ∀ (pieces : List Syntax) {ns : List Node},
    items ix tight pieces = .ok ns → SoundHeadings pieces → AllRegular ns
  | [], ns, hns, hh => by
    rw [items] at hns
    cases hns
    exact allRegular_nil
  | .node h cs :: rest, ns, hns, hh => by
    obtain ⟨-, hcs, hrest⟩ := soundHeadings_cons.mp hh
    rw [items] at hns
    split at hns
    · cases hns
    next children hchildren =>
      split at hns
      · cases hns
      next position _ =>
        split at hns
        · cases hns
        next others hothers =>
          cases hns
          exact AllRegular.cons_branch (by simp [freeKinds]) (regular_blocks cs hchildren hcs)
            (regular_items rest hothers hrest)

end

/-- **All nodes of a document's tree but the root are regular.** -/
theorem regular_ofSyntax {text : List Char} {pieces : List Syntax} {tree : Node}
    (h : ofSyntax text pieces = .ok tree) (hh : SoundHeadings pieces) :
    ∀ x ∈ flattenStack tree.children, Regular x := by
  rw [ofSyntax] at h
  obtain ⟨children, hchildren, h⟩ := exists_ok_of_bind h
  cases h
  exact regular_blocks pieces hchildren hh

end Mdx.Generic
