import Mathlib.Data.List.Forall2
import Mdx.Proofs.Generic.Regular

/-!
# The lists and tables of a document

Blocks stand in quotations and in the items of lists, and nowhere else.  So the lists and tables of a
document are found by looking into these alone (`framesOfBlocks`), and in the document's tree they are in
the same order, each one made of its piece (`nested_blocks`).  `Formed` says what the nodes of such a tree
have in common: an item is a child of a list and the other way round, and below a node that is no quotation,
list or item there are no blocks.
-/

namespace Mdx.Generic

open Mdx.Markdown
open Mdx.Node (Everywhere everywhere_cons everywhere_nil mem_flattenStack_self mem_flattenStack_trans
  select select_append select_cons_of_neg select_cons_of_pos select_eq_nil select_nil)

/-- Whether a node is a list or a table. -/
def isFrame (n : Node) : Bool :=
  n.kind = "list" || n.kind = "table"

/-! ### Where blocks stand -/

/-- The kinds of nodes that there are not below a block without blocks in it; elements are not in any
document. -/
def blockKinds : List String :=
  ["list", "table", "listItem", "blockquote", "paragraph", "element"]

/-- A node that may stand below any other. -/
def Inner (n : Node) : Prop :=
  n.kind ∉ blockKinds

/-- The kinds of nodes with blocks in them. -/
def containerKinds : List String :=
  ["blockquote", "list", "listItem"]

/-- Items are what lists are made of, and rows what tables are made of; blocks stand in containers only. -/
structure Formed (n : Node) : Prop where
  noElement : n.kind ≠ "element"
  inner : n.kind ∉ containerKinds → Everywhere Inner n.children
  items : ∀ c ∈ n.children, c.kind = "listItem" ↔ n.kind = "list"
  rows : n.kind = "table" → ∀ c ∈ n.children, c.kind = "tableRow"

theorem Inner.ne {n : Node} {kind : String} (h : Inner n) (hk : kind ∈ blockKinds) : n.kind ≠ kind := by
  rintro rfl
  exact h hk

theorem Inner.isFrame_eq {n : Node} (h : Inner n) : isFrame n = false := by
  have hlist : n.kind ≠ "list" := h.ne (by decide)
  have htable : n.kind ≠ "table" := h.ne (by decide)
  simp [isFrame, hlist, htable]

theorem select_of_inner {ns : List Node} (h : Everywhere Inner ns) : select isFrame ns = [] :=
  select_eq_nil fun x hx => (h x hx).isFrame_eq

theorem formed_of_inner {n : Node} (hk : n.kind ∉ "element" :: containerKinds)
    (hc : Everywhere Inner n.children)
    (hr : n.kind = "table" → ∀ c ∈ n.children, c.kind = "tableRow") : Formed n := by
  refine ⟨?_, fun _ => hc, fun c hmem => ?_, hr⟩
  · intro h
    exact hk (by rw [h]; decide)
  · have hitem : c.kind ≠ "listItem" := (hc c (mem_flattenStack_self hmem)).ne (by decide)
    have hlist : n.kind ≠ "list" := fun h => hk (by rw [h]; decide)
    exact iff_of_false hitem hlist

theorem everywhere_formed_of_inner {ns : List Node} (h : Everywhere Inner ns) : Everywhere Formed ns := by
  intro x hx
  have hsub : "element" :: containerKinds ⊆ blockKinds := by decide
  apply formed_of_inner
  · exact fun hk => h x hx (hsub hk)
  · exact fun y hy => h y (mem_flattenStack_trans hx hy)
  · exact fun ht => absurd ht ((h x hx).ne (by decide))

/-! ### What a block is made of -/

/-- The node of a block, by the kind of the block. -/
inductive Made (ix : LineIndex) : Syntax → Node → Prop
  | quote {h : SyntaxHead} {cs : List Syntax} {position : Option Position} {children : List Node}
      (hk : h.kind = "blockquote") (hc : blocks ix cs = .ok children) :
      Made ix (.node h cs) (.branch { kind := "blockquote", position := position } children)
  | list {h : SyntaxHead} {cs : List Syntax} {position : Option Position} {children : List Node}
      {start : Json} (hk : h.kind ≠ "blockquote") (hl : isList h.kind = true)
      (hc : items ix (isTightList cs) cs = .ok children) :
      Made ix (.node h cs)
        (.branch
          { kind := "list"
            position := position
            props := [("ordered", .bool (h.kind = "ordered_list")), ("start", start),
              ("spread", .bool !isTightList cs)] }
          children)
  | leaf {h : SyntaxHead} {cs : List Syntax} {position : Option Position} {n : Node}
      (hk : h.kind ≠ "blockquote") (hl : isList h.kind = false)
      (hn : leafBlock ix position h cs = .ok n) : Made ix (.node h cs) n

section Made

variable {ix : LineIndex}

theorem made_of_block {s : Syntax} {n : Node} (h : block ix s = .ok n) : Made ix s n := by
  obtain ⟨head, cs⟩ := s
  rw [block] at h
  split at h
  · cases h
  split at h
  next hquote =>
    split at h
    · cases h
    next hchildren =>
      cases h
      exact .quote hquote hchildren
  next hquote =>
    split at h
    next hlist =>
      split at h
      · cases h
      next hchildren =>
        rw [listNode] at h
        obtain ⟨start, -, h⟩ := exists_ok_of_bind h
        cases h
        exact .list hquote hlist hchildren
    next hlist => exact .leaf hquote (Bool.eq_false_iff.mpr hlist) h

theorem blocks_eq_ok_iff {pieces : List Syntax} {ns : List Node} :
    blocks ix pieces = .ok ns ↔ List.Forall₂ (fun s n => block ix s = .ok n) pieces ns := by
  induction pieces generalizing ns with
  | nil =>
    rw [blocks, List.forall₂_nil_left_iff, Except.ok.injEq]
    exact eq_comm
  | cons s rest ih =>
    rw [blocks, List.forall₂_cons_left_iff]
    cases block ix s with
    | error e => simp
    | ok n =>
      simp only [← ih, Except.ok.injEq]
      cases blocks ix rest with
      | error e => simp
      | ok others => simp [eq_comm]

/-- An item, and a node with the blocks of the item as its children. -/
def MadeItem (ix : LineIndex) (s : Syntax) (n : Node) : Prop :=
  n.kind = "listItem" ∧ blocks ix s.children = .ok n.children

theorem forall₂_of_items {tight : Bool} {pieces : List Syntax} {ns : List Node}
    (h : items ix tight pieces = .ok ns) : List.Forall₂ (MadeItem ix) pieces ns := by
  induction pieces generalizing ns with
  | nil =>
    rw [items] at h
    cases h
    exact .nil
  | cons s rest ih =>
    obtain ⟨head, cs⟩ := s
    rw [items] at h
    split at h
    · cases h
    next children hchildren =>
      split at h
      · cases h
      split at h
      · cases h
      next others hothers =>
        cases h
        exact .cons ⟨rfl, hchildren⟩ (ih hothers)

/-! ### Blocks without blocks in them -/

theorem inner_inlineContent {pieces : List Syntax} {ns : List Node}
    (h : inlineContent pieces = .ok ns) : Everywhere Inner ns := by
  intro x hx
  have hall : ∀ kind ∈ inlineKinds, kind ∉ blockKinds := by decide
  exact hall x.kind (inline_inlineContent h x hx).1

theorem inner_cellNodes {pieces : List Syntax} {ns : List Node} (h : cellNodes pieces = .ok ns) :
    Everywhere Inner ns ∧ ns.length = pieces.length := by
  induction pieces generalizing ns with
  | nil =>
    cases h
    exact ⟨everywhere_nil, rfl⟩
  | cons s rest ih =>
    rw [cellNodes] at h
    obtain ⟨children, hchildren, h⟩ := exists_ok_of_bind h
    obtain ⟨others, hothers, h⟩ := exists_ok_of_bind h
    cases h
    obtain ⟨hinner, hlength⟩ := ih hothers
    refine ⟨everywhere_cons.mpr ⟨?_, inner_inlineContent hchildren, hinner⟩, ?_⟩
    · show "tableCell" ∉ blockKinds
      decide
    · rw [List.length_cons, List.length_cons, hlength]

/-- How many children a node has. -/
def width (n : Node) : Nat :=
  n.children.length

theorem inner_rowNodes {pieces : List Syntax} {ns : List Node} (h : rowNodes ix pieces = .ok ns) :
    Everywhere Inner ns ∧ (∀ n ∈ ns, n.kind = "tableRow") ∧
      ns.map width = pieces.map fun row => row.children.length := by
  induction pieces generalizing ns with
  | nil =>
    cases h
    exact ⟨everywhere_nil, List.forall_mem_nil _, rfl⟩
  | cons s rest ih =>
    rw [rowNodes] at h
    obtain ⟨cells, hcells, h⟩ := exists_ok_of_bind h
    obtain ⟨position, -, h⟩ := exists_ok_of_bind h
    obtain ⟨others, hothers, h⟩ := exists_ok_of_bind h
    cases h
    obtain ⟨hinner, hkinds, hrows⟩ := ih hothers
    obtain ⟨hcellsInner, hlength⟩ := inner_cellNodes hcells
    refine ⟨everywhere_cons.mpr ⟨?_, hcellsInner, hinner⟩, List.forall_mem_cons.mpr ⟨rfl, hkinds⟩, ?_⟩
    · show "tableRow" ∉ blockKinds
      decide
    · rw [List.map_cons, List.map_cons, hrows, ← hlength]
      rfl

/-- What there is to say of a block without blocks in it: only a paragraph becomes a paragraph, and only a
table a table. -/
structure LeafMade (h : SyntaxHead) (n : Node) : Prop where
  kind : n.kind ∈ ["paragraph", "heading", "code", "thematicBreak", "html", "table"]
  paragraph : n.kind = "paragraph" ↔ h.kind = "paragraph"
  table : n.kind = "table" ↔ h.kind = "table"
  inner : Everywhere Inner n.children
  rows : n.kind = "table" → ∀ c ∈ n.children, c.kind = "tableRow"

theorem leafMade_of_leafBlock {position : Option Position} {h : SyntaxHead} {cs : List Syntax} {n : Node}
    (hn : leafBlock ix position h cs = .ok n) : LeafMade h n := by
  unfold leafBlock at hn
  split at hn
  next hk =>
    obtain ⟨children, hchildren, hn⟩ := exists_ok_of_bind hn
    cases hn
    refine ⟨?_, ?_, ?_, inner_inlineContent hchildren, ?_⟩ <;> simp [Node.kind, Node.head, hk]
  next hk =>
    obtain ⟨children, hchildren, hn⟩ := exists_ok_of_bind hn
    obtain ⟨depth, -, hn⟩ := exists_ok_of_bind hn
    cases hn
    refine ⟨?_, ?_, ?_, inner_inlineContent hchildren, ?_⟩ <;> simp [Node.kind, Node.head, hk]
  next hk =>
    cases hn
    refine ⟨?_, ?_, ?_, everywhere_nil, ?_⟩ <;> simp [fenceNode, codeNode, Node.kind, Node.head, hk]
  next hk =>
    cases hn
    refine ⟨?_, ?_, ?_, everywhere_nil, ?_⟩ <;> simp [codeNode, Node.kind, Node.head, hk]
  next hk =>
    cases hn
    refine ⟨?_, ?_, ?_, everywhere_nil, ?_⟩ <;> simp [Node.kind, Node.head, hk]
  next hk =>
    cases hn
    refine ⟨?_, ?_, ?_, everywhere_nil, ?_⟩ <;> simp [htmlNode, Node.kind, Node.head, hk]
  next hk =>
    obtain ⟨rows, hrows, hn⟩ := exists_ok_of_bind hn
    cases hn
    obtain ⟨hinner, hkinds, -⟩ := inner_rowNodes hrows
    refine ⟨?_, ?_, ?_, hinner, fun _ => hkinds⟩ <;> simp [Node.kind, Node.head, hk]
  next => cases hn

/-- **Only a paragraph becomes a paragraph**, and no block becomes an item. -/
theorem kind_of_block {s : Syntax} {n : Node} (hn : block ix s = .ok n) :
    (n.kind = "paragraph" ↔ s.kind = "paragraph") ∧ n.kind ≠ "listItem" := by
  cases made_of_block hn with
  | @quote h cs position children hk hc =>
    have hs : (Syntax.node h cs).kind = "blockquote" := hk
    rw [hs]
    simp [Node.kind, Node.head]
  | @list h cs position children start hk hl hc =>
    have hs : (Syntax.node h cs).kind ≠ "paragraph" := by
      intro hp
      have hp : h.kind = "paragraph" := hp
      rw [hp] at hl
      exact absurd hl (by decide)
    simp [Node.kind, Node.head, hs]
  | leaf hk hl hn =>
    have hleaf := leafMade_of_leafBlock hn
    refine ⟨hleaf.paragraph, fun hitem => ?_⟩
    exact absurd (hitem ▸ hleaf.kind) (by decide)

/-- Whether a node is a paragraph of a document. -/
def isParagraph (n : Node) : Bool :=
  n.kind = "paragraph"

theorem ne_item_of_blocks {pieces : List Syntax} {ns : List Node} (h : blocks ix pieces = .ok ns) :
    ∀ n ∈ ns, n.kind ≠ "listItem" := by
  have hall := blocks_eq_ok_iff.mp h
  clear h
  induction hall with
  | nil => exact List.forall_mem_nil _
  | cons hs _ ih => exact List.forall_mem_cons.mpr ⟨(kind_of_block hs).2, ih⟩

theorem item_of_items {tight : Bool} {pieces : List Syntax} {ns : List Node}
    (h : items ix tight pieces = .ok ns) : ∀ n ∈ ns, n.kind = "listItem" := by
  have hall := forall₂_of_items h
  clear h
  induction hall with
  | nil => exact List.forall_mem_nil _
  | cons hs _ ih => exact List.forall_mem_cons.mpr ⟨hs.1, ih⟩

theorem countP_paragraph_blocks {pieces : List Syntax} {ns : List Node} (h : blocks ix pieces = .ok ns) :
    ns.countP isParagraph = pieces.countP fun s => s.kind = "paragraph" := by
  have hall := blocks_eq_ok_iff.mp h
  clear h
  induction hall with
  | nil => rfl
  | cons hs _ ih => simp only [List.countP_cons, ih, isParagraph, (kind_of_block hs).1]

/-- How many paragraphs there are right below a node. -/
def paragraphs (n : Node) : Nat :=
  n.children.countP isParagraph

/-- How many paragraphs there are right below a piece of syntax. -/
def paragraphPieces (s : Syntax) : Nat :=
  s.children.countP fun c => c.kind = "paragraph"

theorem map_paragraphs_items {tight : Bool} {pieces : List Syntax} {ns : List Node}
    (h : items ix tight pieces = .ok ns) : ns.map paragraphs = pieces.map paragraphPieces := by
  have hall := forall₂_of_items h
  clear h
  induction hall with
  | nil => rfl
  | cons hs _ ih =>
    rw [List.map_cons, List.map_cons, ih, paragraphs, countP_paragraph_blocks hs.2]
    rfl

theorem list_of_block {s : Syntax} {n : Node} (hn : block ix s = .ok n) (hk : n.kind = "list") :
    isList s.kind = true ∧
      n.prop? "ordered" = some (.bool (s.kind = "ordered_list")) ∧
      n.prop? "spread" = some (.bool !isTightList s.children) ∧
      n.children.map paragraphs = s.children.map paragraphPieces := by
  cases made_of_block hn with
  | quote hquote hc => exact absurd (show "blockquote" = "list" from hk) (by decide)
  | list hquote hl hc => exact ⟨hl, rfl, rfl, map_paragraphs_items hc⟩
  | leaf hquote hl hleaf => exact absurd (hk ▸ (leafMade_of_leafBlock hleaf).kind) (by decide)

theorem table_of_block {s : Syntax} {n : Node} (hn : block ix s = .ok n) (hk : n.kind = "table") :
    s.kind = "table" ∧
      n.prop? "align" = some (.arr (tableAlignments s.children)) ∧
      n.children.map width = (s.children.flatMap Syntax.children).map fun row => row.children.length := by
  cases made_of_block hn with
  | quote hquote hc => exact absurd (show "blockquote" = "table" from hk) (by decide)
  | list hquote hl hc => exact absurd (show "list" = "table" from hk) (by decide)
  | @leaf h cs position n hquote hl hleaf =>
    have htable : h.kind = "table" := (leafMade_of_leafBlock hleaf).table.mp hk
    refine ⟨htable, ?_⟩
    rw [leafBlock, htable] at hleaf
    obtain ⟨rows, hrows, hleaf⟩ := exists_ok_of_bind hleaf
    cases hleaf
    exact ⟨rfl, (inner_rowNodes hrows).2.2⟩

/-! ### Lists and tables of a document -/

mutual

/-- The lists and tables in a block, in document order. -/
def framesOfBlock : Syntax → List Syntax
  | .node h cs =>
      if h.kind = "blockquote" then framesOfBlocks cs
      else if isList h.kind then .node h cs :: framesOfItems cs
      else if h.kind = "table" then [.node h cs]
      else []

/-- The lists and tables in blocks. -/
def framesOfBlocks : List Syntax → List Syntax
  | [] => []
  | s :: rest => framesOfBlock s ++ framesOfBlocks rest

/-- The lists and tables in the items of a list. -/
def framesOfItems : List Syntax → List Syntax
  | [] => []
  | .node _ cs :: rest => framesOfBlocks cs ++ framesOfItems rest

end

/-- Nodes that are well formed, with lists and tables that are made of the given ones. -/
structure Nested (ix : LineIndex) (found : List Syntax) (ns : List Node) : Prop where
  made : List.Forall₂ (fun s n => block ix s = .ok n) found (select isFrame ns)
  formed : Everywhere Formed ns

theorem Nested.append {found found' : List Syntax} {ns ns' : List Node} (h : Nested ix found ns)
    (h' : Nested ix found' ns') : Nested ix (found ++ found') (ns ++ ns') := by
  refine ⟨?_, h.formed.append h'.formed⟩
  rw [select_append]
  exact List.rel_append h.made h'.made

theorem nested_nil : Nested ix [] [] := by
  refine ⟨?_, everywhere_nil⟩
  rw [select_nil]
  exact .nil

theorem nested_leaf {position : Option Position} {h : SyntaxHead} {cs : List Syntax} {n : Node}
    (hb : block ix (.node h cs) = .ok n) (hn : leafBlock ix position h cs = .ok n) :
    Nested ix (if h.kind = "table" then [.node h cs] else []) [n] := by
  have hleaf := leafMade_of_leafBlock hn
  have hkinds : ∀ kind ∈ ["paragraph", "heading", "code", "thematicBreak", "html", "table"],
      kind ∉ "element" :: containerKinds ∧ kind ≠ "list" := by decide
  obtain ⟨hcontainer, hlist⟩ := hkinds n.kind hleaf.kind
  constructor
  · by_cases ht : h.kind = "table"
    · have hframe : isFrame n = true := by simp [isFrame, hleaf.table.mpr ht]
      rw [if_pos ht, select_cons_of_pos hframe, select_of_inner hleaf.inner, select_nil]
      exact .cons hb .nil
    · have hframe : isFrame n = false := by simp [isFrame, hlist, hleaf.table, ht]
      rw [if_neg ht, select_cons_of_neg hframe, select_of_inner hleaf.inner, select_nil]
      exact .nil
  · refine everywhere_cons.mpr ⟨formed_of_inner hcontainer hleaf.inner hleaf.rows, ?_, everywhere_nil⟩
    exact everywhere_formed_of_inner hleaf.inner

theorem formed_container {h : NodeHead} {children : List Node} (kind : String) (hh : h.kind = kind)
    (hk : kind ∈ containerKinds) (hc : ∀ c ∈ children, c.kind = "listItem" ↔ kind = "list")
    (hformed : Everywhere Formed children) : Everywhere Formed [.branch h children] := by
  subst hh
  have hkinds : ∀ kind ∈ containerKinds, kind ≠ "element" ∧ kind ≠ "table" := by decide
  obtain ⟨helement, htable⟩ := hkinds h.kind hk
  refine everywhere_cons.mpr ⟨⟨helement, fun hne => absurd hk hne, hc, ?_⟩, hformed, everywhere_nil⟩
  exact fun ht => absurd ht htable

mutual

theorem nested_block : ∀ (s : Syntax) {n : Node}, block ix s = .ok n → Nested ix (framesOfBlock s) [n]
  | .node h cs, n, hn => by
    cases made_of_block hn with
    | quote hk hc =>
      have hblocks := nested_blocks cs hc
      refine ⟨?_, formed_container "blockquote" rfl (by decide) ?_ hblocks.formed⟩
      · rw [framesOfBlock, if_pos hk, select_cons_of_neg rfl, select_nil, List.append_nil]
        exact hblocks.made
      · exact fun c hmem => iff_of_false (ne_item_of_blocks hc c hmem) (by decide)
    | list hk hl hc =>
      have hitems := nested_items cs hc
      refine ⟨?_, formed_container "list" rfl (by decide) ?_ hitems.formed⟩
      · rw [framesOfBlock, if_neg hk, if_pos hl, select_cons_of_pos rfl, select_nil, List.append_nil]
        exact .cons hn hitems.made
      · exact fun c hmem => iff_of_true (item_of_items hc c hmem) rfl
    | leaf hk hl hleaf =>
      rw [framesOfBlock, if_neg hk, if_neg (by rw [hl]; decide)]
      exact nested_leaf hn hleaf

/-- **The lists and tables of blocks** are those of their nodes, in the same order. -/
theorem nested_blocks : ∀ (pieces : List Syntax) {ns : List Node}, blocks ix pieces = .ok ns →
    Nested ix (framesOfBlocks pieces) ns
  | [], ns, hns => by
    cases blocks_eq_ok_iff.mp hns
    rw [framesOfBlocks]
    exact nested_nil
  | s :: rest, ns, hns => by
    rw [blocks] at hns
    split at hns
    · cases hns
    next n hn =>
      split at hns
      · cases hns
      next others hothers =>
        cases hns
        rw [framesOfBlocks]
        exact (nested_block s hn).append (nested_blocks rest hothers)

theorem nested_items {tight : Bool} : ∀ (pieces : List Syntax) {ns : List Node},
    items ix tight pieces = .ok ns → Nested ix (framesOfItems pieces) ns
  | [], ns, hns => by
    cases forall₂_of_items hns
    rw [framesOfItems]
    exact nested_nil
  | .node h cs :: rest, ns, hns => by
    rw [items] at hns
    split at hns
    · cases hns
    next children hchildren =>
      split at hns
      · cases hns
      split at hns
      · cases hns
      next others hothers =>
        cases hns
        rw [framesOfItems]
        have hblocks := nested_blocks cs hchildren
        have hne := ne_item_of_blocks hchildren
        refine Nested.append ⟨?_, formed_container "listItem" rfl (by decide) ?_ hblocks.formed⟩ (nested_items rest hothers)
        · rw [select_cons_of_neg rfl, select_nil, List.append_nil]
          exact hblocks.made
        · exact fun c hmem => iff_of_false (hne c hmem) (by decide)

end

end Made

end Mdx.Generic
