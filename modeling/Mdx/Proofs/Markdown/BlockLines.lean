import Mdx.Markdown.Document

/-!
# The lines of blocks

The rules of the block grammar count the lines of a block from the start of the document.  A piece of
syntax is `Counted` if this is so for it and for all blocks in it; what is in running text has no use for
lines.  Running text is found in paragraphs, headings and cells only.

Each rule gives a counted piece, if the parsers of contents do, and what the rules for one block give is
what a parser gives (`yields_blockParser`).  Reading the running text changes nothing in this, so the blocks
of every document are counted and have lines (`onLines_parseSyntax`).
-/

namespace Mdx.Markdown

/-- The first of the lines, if there are any, is counted from the start. -/
def SyntaxHead.IsCounted (h : SyntaxHead) : Prop :=
  ∀ lines ∈ h.lines, 0 ≤ lines.1

/-- The kinds of blocks that hold running text. -/
def textHolders : List String :=
  ["paragraph", "heading", "th", "td"]

/-- The piece and all the blocks in it have their lines counted from the start, and there is running
text only where it belongs. -/
inductive Counted : Syntax → Prop
  | text {h : SyntaxHead} {cs : List Syntax} (hk : h.kind = "inline") (hl : h.IsCounted) :
      Counted (.node h cs)
  | block {h : SyntaxHead} {cs : List Syntax} (hl : h.IsCounted) (hcs : ∀ c ∈ cs, Counted c)
      (hholds : h.kind ∈ textHolders ∨ ∀ c ∈ cs, c.kind ≠ "inline") : Counted (.node h cs)

theorem Counted.head {s : Syntax} (h : Counted s) : s.head.IsCounted := by
  cases h with
  | text hk hl => exact hl
  | block hl hcs hholds => exact hl

theorem Counted.children {s : Syntax} (h : Counted s) (hk : s.kind ≠ "inline") :
    ∀ c ∈ s.children, Counted c := by
  cases h with
  | text hinline hl => exact absurd hinline hk
  | block hl hcs hholds => exact hcs

/-- The piece is a block that has lines and is counted. -/
structure OnLines (s : Syntax) : Prop where
  isSome : s.head.lines.isSome
  ne_text : s.kind ≠ "inline"
  counted : Counted s

theorem isCounted_of_eq {h : SyntaxHead} {first next : Int} (hl : h.lines = some (first, next))
    (h0 : 0 ≤ first) : h.IsCounted := by
  intro lines hlines
  rw [hl] at hlines
  cases hlines
  exact h0

theorem onLines_node {h : SyntaxHead} {cs : List Syntax} {first next : Int}
    (hl : h.lines = some (first, next)) (h0 : 0 ≤ first) (hk : h.kind ≠ "inline")
    (hcs : ∀ c ∈ cs, Counted c) (hholds : h.kind ∈ textHolders ∨ ∀ c ∈ cs, c.kind ≠ "inline") :
    OnLines (.node h cs) :=
  ⟨by rw [Syntax.head, hl]; rfl, hk, .block (isCounted_of_eq hl h0) hcs hholds⟩

theorem onLines_container {h : SyntaxHead} {cs : List Syntax} {first next : Int}
    (hl : h.lines = some (first, next)) (h0 : 0 ≤ first) (hk : h.kind ≠ "inline")
    (hcs : ∀ c ∈ cs, OnLines c) : OnLines (.node h cs) :=
  onLines_node hl h0 hk (fun c hc => (hcs c hc).counted) (.inr fun c hc => (hcs c hc).ne_text)

theorem onLines_leaf {h : SyntaxHead} {start : Nat} {next : Int}
    (hl : h.lines = some ((start : Int), next)) (hk : h.kind ≠ "inline") : OnLines (.node h []) :=
  onLines_container hl (Int.natCast_nonneg start) hk (List.forall_mem_nil _)

/-! ### Blocks without blocks -/

theorem counted_inlineText (content : List Char) (start stop : Nat) :
    Counted (inlineText content start stop) :=
  .text rfl (isCounted_of_eq rfl (Int.natCast_nonneg start))

theorem onLines_headingBlock (depth : Nat) (text : List Char) (start textEnd next : Nat) :
    OnLines (headingBlock depth text start textEnd next).piece := by
  refine onLines_node rfl (Int.natCast_nonneg start) (show "heading" ≠ "inline" by decide) ?_
    (.inl (show "heading" ∈ textHolders by decide))
  intro c hc
  rw [List.mem_singleton.mp hc]
  exact counted_inlineText text start textEnd

theorem onLines_paragraph (lines : Array Line) (scope : Scope) (start : Nat) :
    OnLines (paragraph lines scope start).piece := by
  refine onLines_node rfl (Int.natCast_nonneg start) (show "paragraph" ≠ "inline" by decide) ?_
    (.inl (show "paragraph" ∈ textHolders by decide))
  intro c hc
  rw [List.mem_singleton.mp hc]
  exact counted_inlineText _ start _

section Tables

variable {tag : String} (htag : tag = "th" ∨ tag = "td")

include htag

theorem counted_cell (align : String) (text : List Char) (line : Nat) :
    Counted (cell tag align text line) ∧ (cell tag align text line).kind ≠ "inline" := by
  have hholds : tag ∈ textHolders := by
    rcases htag with rfl | rfl <;> decide
  have hk : tag ≠ "inline" := by
    rcases htag with rfl | rfl <;> decide
  refine ⟨.block (fun lines hlines => nomatch hlines) (fun c hc => ?_) (.inl hholds), hk⟩
  rw [List.mem_singleton.mp hc]
  exact counted_inlineText text line (line + 1)

theorem counted_rowOf (line : Nat) (aligns : List String) (cells : List (List Char)) :
    ∀ c ∈ rowOf tag line aligns cells, Counted c ∧ c.kind ≠ "inline" := by
  induction aligns generalizing cells with
  | nil => exact List.forall_mem_nil _
  | cons align aligns ih =>
    cases cells with
    | nil => exact List.forall_mem_cons.mpr ⟨counted_cell htag align [] line, ih []⟩
    | cons text cells =>
      exact List.forall_mem_cons.mpr ⟨counted_cell htag align text line, ih cells⟩

theorem onLines_tableRow (line : Nat) (aligns : List String) (cells : List (List Char)) :
    OnLines (tableRow tag line aligns cells) :=
  have hcells := counted_rowOf htag line aligns cells
  onLines_node rfl (Int.natCast_nonneg line) (show "tr" ≠ "inline" by decide)
    (fun c hc => (hcells c hc).1) (.inr fun c hc => (hcells c hc).2)

end Tables

theorem onLines_tableRows (lines : Array Line) (scope : Scope) (aligns : List String)
    (stop room next : Nat) (missing : Int) :
    ∀ r ∈ (tableRows lines scope aligns stop room next missing).rows, OnLines r := by
  induction room generalizing next missing with
  | zero => exact List.forall_mem_nil _
  | succ room ih =>
    rw [tableRows]
    dsimp only
    split
    · exact List.forall_mem_nil _
    · split
      · exact List.forall_mem_nil _
      · split
        · exact List.forall_mem_nil _
        · exact List.forall_mem_cons.mpr ⟨onLines_tableRow (.inr rfl) next aligns _, ih (next + 1) _⟩

theorem onLines_table? {lines : Array Line} {scope : Scope} {start stop : Nat} {b : FoundBlock}
    (h : table? lines scope start stop = some b) : OnLines b.piece := by
  unfold table? at h
  split at h
  · cases h
  next cells aligns heq =>
    cases h
    refine onLines_container rfl (Int.natCast_nonneg start) (show "table" ≠ "inline" by decide) ?_
    refine List.forall_mem_cons.mpr ⟨?_, fun c hc => ?_⟩
    · refine onLines_container rfl (Int.natCast_nonneg start) (show "thead" ≠ "inline" by decide) ?_
      exact List.forall_mem_cons.mpr
        ⟨onLines_tableRow (.inl rfl) start aligns cells, List.forall_mem_nil _⟩
    · split at hc
      · cases hc
      · rw [List.mem_singleton.mp hc]
        exact onLines_container rfl (by omega) (show "tbody" ≠ "inline" by decide)
          (onLines_tableRows lines scope aligns stop _ _ _)

section Leaves

variable {lines : Array Line} {scope : Scope} {start stop : Nat} {b : FoundBlock}

theorem onLines_codeBlock? (h : codeBlock? lines scope start stop = some b) : OnLines b.piece := by
  unfold codeBlock? at h
  split at h
  · cases h
    exact onLines_leaf rfl (show "code_block" ≠ "inline" by decide)
  · cases h

theorem onLines_fence? (h : fence? lines scope start stop = some b) : OnLines b.piece := by
  unfold fence? at h
  dsimp only at h
  split at h
  · cases h
  · cases h
    exact onLines_leaf rfl (show "fence" ≠ "inline" by decide)

theorem onLines_thematicBreak? (h : thematicBreak? lines scope start = some b) :
    OnLines b.piece := by
  unfold thematicBreak? at h
  split at h
  · split at h
    · cases h
      exact onLines_leaf rfl (show "hr" ≠ "inline" by decide)
    · cases h
  · cases h

theorem onLines_elementBlock? (h : elementBlock? lines scope start stop = some b) :
    OnLines b.piece := by
  unfold elementBlock? at h
  split at h
  · split at h
    · cases h
      exact onLines_leaf rfl (show "html_block" ≠ "inline" by decide)
    · cases h
  · cases h

theorem onLines_rawTextBlock? (h : rawTextBlock? lines scope start stop = some b) :
    OnLines b.piece := by
  unfold rawTextBlock? at h
  dsimp only at h
  split at h
  · cases h
  · cases h
    exact onLines_leaf rfl (show "html_block" ≠ "inline" by decide)

theorem onLines_signHeading? (h : signHeading? lines scope start = some b) : OnLines b.piece := by
  unfold signHeading? at h
  split at h
  · cases h
  · cases h
    exact onLines_headingBlock ..

theorem onLines_underlinedHeading? (h : underlinedHeading? lines scope start stop = some b) :
    OnLines b.piece := by
  unfold underlinedHeading? at h
  split at h
  · cases h
  · split at h
    · cases h
    · cases h
      exact onLines_headingBlock ..

end Leaves

/-! ### Parsers -/

/-- On lines that satisfy `I`, all the blocks that a parser finds satisfy `P`. -/
def Yields (I : Array Line → Prop) (P : Syntax → Prop) (p : BlockParser) : Prop :=
  ∀ (lines : Array Line) (scope : Scope) (start stop : Nat), I lines →
    ∀ s ∈ (p lines scope start stop).found, P s

/-- All the blocks that an alternative finds satisfy `P`. -/
def Finds (P : Syntax → Prop) (o : Option Blocks) : Prop :=
  ∀ b ∈ o, ∀ s ∈ b.found, P s

section Yields

variable {I : Array Line → Prop} {P : Syntax → Prop}

theorem Finds.orElse {o : Option Blocks} {o' : Unit → Option Blocks} (h : Finds P o)
    (h' : Finds P (o' ())) : Finds P (o.orElse o') := by
  cases o with
  | none => exact h'
  | some b => exact h

theorem Finds.getD {o : Option Blocks} {b : Blocks} (h : Finds P o) (hb : ∀ s ∈ b.found, P s) :
    ∀ s ∈ (o.getD b).found, P s := by
  cases o with
  | none => exact hb
  | some found => exact h found rfl

theorem finds_ofFound {o : Option FoundBlock} (h : ∀ b, o = some b → P b.piece) :
    Finds P (o.map ofFound) := by
  intro found hfound
  obtain ⟨b, hb, rfl⟩ := Option.map_eq_some_iff.mp hfound
  exact List.forall_mem_cons.mpr ⟨h b hb, List.forall_mem_nil _⟩

theorem finds_ofContainer {o : Option (Syntax × Blocks)} (h : ∀ c, o = some c → P c.1) :
    Finds P (o.map ofContainer) := by
  intro found hfound
  obtain ⟨c, hc, rfl⟩ := Option.map_eq_some_iff.mp hfound
  exact List.forall_mem_cons.mpr ⟨h c hc, List.forall_mem_nil _⟩

theorem finds_ofDefinition (o : Option (Definition × Nat)) : Finds P (o.map ofDefinition) := by
  intro found hfound
  obtain ⟨d, -, rfl⟩ := Option.map_eq_some_iff.mp hfound
  exact List.forall_mem_nil _

/-- **Blocks in a row.** -/
theorem yields_blocksFrom {block : BlockParser} (hb : Yields I P block) {lines : Array Line}
    (hlines : I lines) (scope : Scope) (stop room start : Nat) (blank tight : Bool) :
    ∀ s ∈ (blocksFrom block lines scope stop room start blank tight).found, P s := by
  induction room generalizing start blank tight with
  | zero => exact List.forall_mem_nil _
  | succ room ih =>
    rw [blocksFrom]
    split
    · exact List.forall_mem_nil _
    · dsimp only
      split
      · exact List.forall_mem_nil _
      · intro s hs
        rcases List.mem_append.mp hs with hs | hs
        · exact hb _ _ _ _ hlines s hs
        · exact ih _ _ _ s hs

theorem yields_omitted : Yields I P omitted := by
  intro lines scope start stop _
  unfold omitted
  dsimp only
  split <;> exact List.forall_mem_nil _

/-- **Containers of any depth.**  What the rules give if the parsers of contents do, every parser gives. -/
theorem yields_blockParser
    (hblock : ∀ quoted item : BlockParser, Yields I P quoted → Yields I P item →
      Yields I P (blockAt quoted item)) (levels : Nat) : Yields I P (blockParser levels) := by
  have hwith (quoted item : BlockParser) (hq : Yields I P quoted) (hi : Yields I P item) :
      Yields I P (blockParser.parserWith quoted item) :=
    fun lines scope start stop hlines =>
      yields_blocksFrom (hblock quoted item hq hi) hlines scope stop (stop - start + 1) start false true
  induction levels using blockParser.induct with
  | case1 => exact yields_omitted
  | case2 => exact hwith _ _ yields_omitted yields_omitted
  | case3 levels ih ih' => exact hwith _ _ ih ih'

end Yields

/-- All the blocks that a parser finds are on lines. -/
abbrev Orderly (p : BlockParser) : Prop :=
  Yields (fun _ => True) OnLines p

section Containers

variable {inner : BlockParser} {lines : Array Line} {scope : Scope} {start stop : Nat}

theorem onLines_quote? {c : Syntax × Blocks} (hi : Orderly inner)
    (h : quote? inner lines scope start stop = some c) : OnLines c.1 := by
  unfold quote? at h
  dsimp only at h
  split at h
  · cases h
  · split at h
    · cases h
      exact onLines_container rfl (Int.natCast_nonneg start)
        (show "blockquote" ≠ "inline" by decide) (hi _ _ _ _ trivial)
    · cases h

theorem onLines_listItem (hi : Orderly inner) (mark : ItemMark) :
    ∀ s ∈ (listItem inner lines scope mark start stop).found, OnLines s := by
  unfold listItem
  dsimp only
  split
  · exact List.forall_mem_nil _
  · exact hi _ _ _ _ trivial

theorem onLines_listItems (hi : Orderly inner) (room : Nat) (mark : ItemMark) (blank : Bool) :
    ∀ s ∈ (listItems inner lines scope stop room mark start blank).found, OnLines s := by
  induction room generalizing mark start blank with
  | zero => exact List.forall_mem_nil _
  | succ room ih =>
    have hitem (next : Nat) : OnLines (.node
        { kind := "list_item", tag := "li", lines := some ((start : Int), (next : Int)) }
        (listItem inner lines scope mark start stop).found) :=
      onLines_container rfl (Int.natCast_nonneg start) (show "list_item" ≠ "inline" by decide)
        (onLines_listItem hi mark)
    rw [listItems]
    dsimp only
    split
    · exact List.forall_mem_cons.mpr ⟨hitem _, List.forall_mem_nil _⟩
    · exact List.forall_mem_cons.mpr ⟨hitem _, ih _ _⟩

theorem head_hideParagraph (s : Syntax) :
    (hideParagraph s).kind = s.kind ∧ (hideParagraph s).head.lines = s.head.lines := by
  cases s with
  | node h cs =>
    rw [hideParagraph, Syntax.kind, Syntax.head]
    split <;> exact ⟨rfl, rfl⟩

/-- A piece is counted if another one with the same lines, kind and contents is. -/
theorem Counted.congr {s t : Syntax} (h : Counted s) (hk : t.kind = s.kind)
    (hl : t.head.lines = s.head.lines) (hc : t.children = s.children) : Counted t := by
  obtain ⟨h', cs'⟩ := t
  have hl' : h'.lines = s.head.lines := hl
  cases hc
  cases h with
  | text hkind hcount =>
    refine .text (hk.trans hkind) ?_
    rw [SyntaxHead.IsCounted, hl']
    exact hcount
  | block hcount hcs hholds =>
    refine .block ?_ hcs ?_
    · rw [SyntaxHead.IsCounted, hl']
      exact hcount
    · have hkind : h'.kind = _ := hk
      rw [hkind]
      exact hholds

theorem counted_hideParagraph {s : Syntax} (h : Counted s) : Counted (hideParagraph s) := by
  obtain ⟨hk, hl⟩ := head_hideParagraph s
  refine h.congr hk hl ?_
  cases s with
  | node h cs => rfl

theorem onLines_hideParagraphs {s : Syntax} (h : OnLines s) : OnLines (hideParagraphs s) := by
  obtain ⟨hl, hk, hcounted⟩ := h
  cases hcounted with
  | text hinline _ => exact absurd hinline hk
  | block hcount hcs hholds =>
    refine ⟨hl, hk, .block hcount (fun c hc => ?_) (hholds.imp_right fun hne c hc => ?_)⟩
    · obtain ⟨d, hd, rfl⟩ := List.mem_map.mp hc
      exact counted_hideParagraph (hcs d hd)
    · obtain ⟨d, hd, rfl⟩ := List.mem_map.mp hc
      rw [(head_hideParagraph d).1]
      exact hne d hd

theorem onLines_list? {c : Syntax × Blocks} (hi : Orderly inner)
    (h : list? inner lines scope start stop = some c) : OnLines c.1 := by
  unfold list? at h
  split at h
  · cases h
  next mark hmark =>
    cases h
    refine onLines_container rfl (Int.natCast_nonneg start) ?_ fun s hs => ?_
    · dsimp only
      split
      · exact (by decide : "bullet_list" ≠ "inline")
      · exact (by decide : "ordered_list" ≠ "inline")
    · split at hs
      · obtain ⟨item, hitem, rfl⟩ := List.mem_map.mp hs
        exact onLines_hideParagraphs (onLines_listItems hi _ mark false item hitem)
      · exact onLines_listItems hi _ mark false s hs

end Containers

/-- **One block.**  Each rule gives a block on lines, if the parsers of contents do. -/
theorem orderly_blockAt {quoted item : BlockParser} (hq : Orderly quoted) (hi : Orderly item) :
    Orderly (blockAt quoted item) := by
  intro lines scope start stop _
  refine Finds.getD ?_ (List.forall_mem_cons.mpr
    ⟨onLines_paragraph lines scope start, List.forall_mem_nil _⟩)
  refine (finds_ofFound fun b => onLines_table?).orElse ?_
  refine (finds_ofFound fun b => onLines_codeBlock?).orElse ?_
  refine (finds_ofFound fun b => onLines_fence?).orElse ?_
  refine (finds_ofContainer fun c => onLines_quote? hq).orElse ?_
  refine (finds_ofFound fun b => onLines_thematicBreak?).orElse ?_
  refine (finds_ofContainer fun c => onLines_list? hi).orElse ?_
  refine (finds_ofDefinition _).orElse ?_
  refine (finds_ofFound fun b => onLines_elementBlock?).orElse ?_
  refine (finds_ofFound fun b => onLines_rawTextBlock?).orElse ?_
  refine (finds_ofFound fun b => onLines_signHeading?).orElse ?_
  exact finds_ofFound fun b => onLines_underlinedHeading?

/-! ### Documents -/

theorem readTexts_eq_map (definitions : List Definition) (pieces : List Syntax) :
    readTexts definitions pieces = pieces.map (readText definitions) := by
  induction pieces with
  | nil => rw [readTexts, List.map_nil]
  | cons s rest ih => rw [readTexts, List.map_cons, ih]

theorem head_readText (definitions : List Definition) (s : Syntax) :
    (readText definitions s).head = s.head := by
  cases s with
  | node h cs =>
    rw [readText]
    split <;> rfl

theorem counted_readText (definitions : List Definition) {s : Syntax} (h : Counted s) :
    Counted (readText definitions s) := by
  induction h with
  | text hk hl =>
    rw [readText, if_pos hk]
    exact .text hk hl
  | @block h cs hl hcs hholds ih =>
    rw [readText]
    split
    next hk => exact .text hk hl
    next =>
      rw [readTexts_eq_map]
      refine .block hl (fun c hc => ?_) (hholds.imp_right fun hne c hc => ?_)
      · obtain ⟨d, hd, rfl⟩ := List.mem_map.mp hc
        exact ih d hd
      · obtain ⟨d, hd, rfl⟩ := List.mem_map.mp hc
        rw [Syntax.kind, head_readText]
        exact hne d hd

/-- **The blocks of every document are on lines that are counted from its start.** -/
theorem onLines_parseSyntax {text : List Char} {pieces : List Syntax}
    (h : parseSyntax text = .ok pieces) : ∀ s ∈ pieces, OnLines s := by
  unfold parseSyntax at h
  dsimp only at h
  split at h
  · cases h
  · cases h
    intro s hs
    rw [readTexts_eq_map] at hs
    obtain ⟨t, ht, rfl⟩ := List.mem_map.mp hs
    have honLines : OnLines t :=
      yields_blockParser (fun _ _ => orderly_blockAt) blockLevels _ _ _ _ trivial t ht
    refine ⟨?_, ?_, counted_readText _ honLines.counted⟩
    · rw [head_readText]
      exact honLines.isSome
    · rw [Syntax.kind, head_readText]
      exact honLines.ne_text

end Mdx.Markdown
