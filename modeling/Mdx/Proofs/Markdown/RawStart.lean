import Mdx.Proofs.Element.Start
import Mdx.Proofs.Generic.Regular
import Mdx.Proofs.Markdown.BlockLines
import Mdx.Proofs.Markdown.RawBlock

/-!
# How blocks of raw markup start

A block is raw because of how its first line goes on after the indent: markup starts there, or an instruction,
a declaration or a section of character data.  The content of the block is that of its lines with a part of
their indent, so something may come before the start.  That is blanks as a rule; in a list item the indent of
the first line covers the item's mark, of which something may be left as well where a quotation in another one
counts its tab stops anew.

`Laid` is what the lines of a document have in common at every depth: there are only blanks and marks in their
indent, and all but the last of them have a line feed.  Quotations and items keep it (`laid_quoteLines`,
`indented_itemLine`), so the content of every raw block of a document starts as its first line does
(`startsRaw_parseBlocks`).
-/

namespace Mdx.Markdown

open Mdx.Generic (Within)

/-! ### Indents -/

/-- A character of an indent: a blank, or a part of an item's mark. -/
def isIndentMark (c : Char) : Bool :=
  Text.isIndent c || c.isDigit || ['-', '+', '*', '.', ')'].contains c

/-- Only blanks and marks are in the indent of a line. -/
def Line.Indented (l : Line) : Prop :=
  ∀ c ∈ l.text.take l.shift, isIndentMark c = true

theorem isIndentMark_of_isIndent {c : Char} (h : Text.isIndent c = true) : isIndentMark c = true := by
  rw [isIndentMark, h]
  rfl

theorem isIndentMark_of_measure {extra column : Nat} {x : List Char} {c : Char}
    (h : c ∈ x.take (Line.measure extra 0 column x).1) : isIndentMark c = true := by
  rw [Line.measure_fst, Nat.zero_add, ← List.prefix_iff_eq_take.mp (List.takeWhile_prefix _)] at h
  exact isIndentMark_of_isIndent (List.mem_takeWhile_imp h)

theorem indented_ofChars (x : List Char) (ended : Bool) : (Line.ofChars x ended).Indented :=
  fun _ hc => isIndentMark_of_measure hc

theorem indented_quotedLine (l : Line) : (quotedLine l).Indented :=
  fun _ hc => isIndentMark_of_measure hc

/-- A text starts with a mark. -/
def StartsWithMark (mark : ItemMark) (s : List Char) : Prop :=
  ∀ c ∈ s.take mark.width, isIndentMark c = true

theorem startsWithMark_of_bulletMark? {s : List Char} {mark : ItemMark} (h : bulletMark? s = some mark) :
    StartsWithMark mark s := by
  unfold bulletMark? at h
  split at h
  next c rest =>
    split at h
    next hmark =>
      cases h
      simp only [Bool.and_eq_true, Bool.or_eq_true, beq_iff_eq] at hmark
      have hc : isIndentMark c = true := by
        rcases hmark.1 with (rfl | rfl) | rfl <;> decide
      intro d hd
      rwa [List.mem_singleton.mp hd]
    next => cases h
  next => cases h

theorem startsWithMark_of_orderedMark? {s : List Char} {mark : ItemMark}
    (h : orderedMark? s = some mark) : StartsWithMark mark s := by
  unfold orderedMark? at h
  dsimp only at h
  split at h
  next =>
    split at h
    next c rest hdrop =>
      split at h
      next hmark =>
        cases h
        simp only [Bool.and_eq_true, Bool.or_eq_true, beq_iff_eq] at hmark
        have hc : isIndentMark c = true := by
          rcases hmark.1 with rfl | rfl <;> decide
        have htake : s.take ((s.takeWhile Char.isDigit).length + 1) = s.takeWhile Char.isDigit ++ [c] := by
          rw [List.take_add, hdrop, ← List.prefix_iff_eq_take.mp (List.takeWhile_prefix _)]
          rfl
        intro d hd
        rw [htake] at hd
        rcases List.mem_append.mp hd with hd | hd
        · have hdigit : d.isDigit = true := List.mem_takeWhile_imp hd
          simp [isIndentMark, hdigit]
        · rwa [List.mem_singleton.mp hd]
      next => cases h
    next => cases h
  next => cases h

theorem indented_itemLine {l : Line} {mark : ItemMark} (hl : l.Indented)
    (hmark : StartsWithMark mark l.content) : (itemLine l mark).2.Indented := by
  intro c hc
  -- the old indent, the mark, and the blanks after it
  have hsplit : (itemLine l mark).2.text.take (itemLine l mark).2.shift =
      l.text.take l.shift ++ l.content.take mark.width ++
        (l.content.drop mark.width).take
          (Line.measure l.base 0 (l.indent.toNat + mark.width) (l.content.drop mark.width)).1 := by
    have hshift : (itemLine l mark).2.shift = l.shift + mark.width + _ := rfl
    rw [hshift, List.take_add, List.take_add, ← List.drop_drop]
    rfl
  rw [hsplit] at hc
  rcases List.mem_append.mp hc with hc | hc
  · rcases List.mem_append.mp hc with hc | hc
    · exact hl c hc
    · exact hmark c hc
  · exact isIndentMark_of_measure hc

theorem startText?_eq_some {scope : Scope} {l : Line} {s : List Char} (h : startText? scope l = some s) :
    l.content = s := by
  unfold startText? at h
  split at h
  · cases h
  · exact Option.some.inj h

/-! ### Lines -/

/-- Only blanks and marks are in the indents of the lines, and all but the last have a line feed. -/
structure Laid (lines : Array Line) : Prop where
  indented : ∀ i : Nat, (lineAt lines i).Indented
  ended : ∀ i : Nat, i + 1 < lines.size → (lineAt lines i).ended = true

theorem lineAt_setIfInBounds (lines : Array Line) (i j : Nat) (l : Line) :
    lineAt (lines.setIfInBounds i l) j = if i = j ∧ j < lines.size then l else lineAt lines j := by
  rw [lineAt, lineAt, Array.getD_eq_getD_getElem?, Array.getElem?_setIfInBounds,
    Array.getD_eq_getD_getElem?]
  by_cases hij : i = j
  · subst hij
    by_cases hi : i < lines.size
    · simp [hi]
    · simp [hi]
  · simp [hij]

/-- A line may be replaced by another one that is indented and ends alike. -/
theorem Laid.set {lines : Array Line} (h : Laid lines) {i : Nat} {l : Line} (hl : l.Indented)
    (hend : l.ended = (lineAt lines i).ended) : Laid (lines.setIfInBounds i l) := by
  constructor
  · intro j
    rw [lineAt_setIfInBounds]
    split
    · exact hl
    · exact h.indented j
  · intro j hj
    rw [Array.size_setIfInBounds] at hj
    rw [lineAt_setIfInBounds]
    split
    next hij => rw [hend, hij.1, h.ended j hj]
    next => exact h.ended j hj

theorem laid_linesOf (text : List Char) : Laid (linesOf text) := by
  constructor
  · intro i
    by_cases hi : i < (linesOf text).size
    · rw [(lineAt_linesOf hi).2]
      exact indented_ofChars _ _
    · rw [lineAt_of_lacking (Nat.le_of_not_lt hi)]
      exact List.forall_mem_nil _
  · intro i hi
    rw [(lineAt_linesOf (by omega)).2]
    exact decide_eq_true (lineAt_linesOf hi).1

theorem laid_quoteLines {scope : Scope} {stop room next : Nat} {blank : Bool} {lines : Array Line}
    (h : Laid lines) : Laid (quoteLines scope stop room next blank lines).1 := by
  induction room generalizing next blank lines with
  | zero => exact h
  | succ room ih =>
    rw [quoteLines]
    dsimp only
    split
    · exact h
    · split
      · exact ih (h.set (indented_quotedLine _) rfl)
      · split
        · exact h
        · split
          · exact h.set (h.indented next) rfl
          · exact ih (h.set (h.indented next) rfl)

/-! ### Contents of raw blocks -/

/-- **Of a line's indent blanks and marks are left**, and what comes after the indent is whole. -/
theorem exists_strip {base shift width : Nat} (y : List Char) (x : List Char) (column index : Nat)
    (hshift : index + x.length = shift) :
    ∃ pre : List Char, Line.strip base shift width column index (x ++ '<' :: y) = pre ++ '<' :: y ∧
      ∀ c ∈ pre, c = ' ' ∨ c ∈ x := by
  have hfill (n : Nat) : ∀ c ∈ List.replicate n ' ', c = ' ' := fun c => List.eq_of_mem_replicate
  induction x generalizing column index with
  | nil =>
    have hindex : ¬index < shift := by
      rw [← hshift]
      exact Nat.lt_irrefl _
    rw [List.nil_append, Line.strip]
    split
    · exact ⟨[], by simp [hindex], List.forall_mem_nil _⟩
    · exact ⟨_, rfl, fun c hc => .inl (hfill _ c hc)⟩
  | cons c x ih =>
    rw [List.length_cons] at hshift
    have hrest (column : Nat) : ∃ pre : List Char,
        Line.strip base shift width column (index + 1) (x ++ '<' :: y) = pre ++ '<' :: y ∧
          ∀ d ∈ pre, d = ' ' ∨ d ∈ c :: x := by
      obtain ⟨pre, hpre, hmem⟩ := ih column (index + 1) (by omega)
      exact ⟨pre, hpre, fun d hd => (hmem d hd).imp_right (List.mem_cons_of_mem c)⟩
    have hindex : (c == ' ' || decide (index < shift)) = true := by
      rw [Bool.or_eq_true, decide_eq_true_eq]
      exact .inr (by omega)
    rw [List.cons_append, Line.strip, if_pos hindex]
    split
    · split <;> exact hrest _
    · refine ⟨List.replicate (column - width) ' ' ++ c :: x, by simp, fun d hd => ?_⟩
      exact (List.mem_append.mp hd).imp_left (hfill _ d)

theorem exists_body {l : Line} (hl : l.Indented) {rest : List Char} (hcontent : l.content = '<' :: rest)
    (width : Nat) :
    ∃ pre : List Char, l.body width = pre ++ l.content ∧ ∀ c ∈ pre, isIndentMark c = true := by
  have hshift : 0 + (l.text.take l.shift).length = l.shift := by
    have hlength := congrArg List.length hcontent
    rw [Line.content, List.length_drop, List.length_cons] at hlength
    rw [Nat.zero_add, List.length_take]
    omega
  obtain ⟨pre, hpre, hmem⟩ := @exists_strip l.base l.shift width rest (l.text.take l.shift) 0 0 hshift
  refine ⟨pre, ?_, fun c hc => ?_⟩
  · rw [Line.body, hcontent, ← hpre, ← hcontent, Line.content, List.take_append_drop]
  · rcases hmem c hc with rfl | hc
    · decide
    · exact hl c hc

/-- **The content of a raw block starts as its first line does**, after what is left of the indent. -/
theorem exists_content {lines : Array Line} (h : Laid lines) {start next : Nat} (hnext : start < next)
    {rest : List Char} (hcontent : (lineAt lines start).content = '<' :: rest) (width : Nat) :
    ∃ pre u : List Char,
      joinWholeBodies width (linesFrom lines start next) = pre ++ ((lineAt lines start).content ++ u) ∧
        (∀ c ∈ pre, isIndentMark c = true) ∧ ∀ c ∈ u.head?, c = '\n' := by
  have hstart : start < lines.size := by
    by_contra hout
    rw [lineAt_of_lacking (Nat.le_of_not_lt hout)] at hcontent
    cases hcontent
  obtain ⟨pre, hbody, hpre⟩ := exists_body (h.indented start) hcontent width
  refine ⟨pre, (lineAt lines start).ending ++ joinWholeBodies width (linesFrom lines (start + 1) next), ?_,
    hpre, ?_⟩
  · rw [linesFrom_cons hnext hstart, joinWholeBodies, List.flatMap_cons, hbody]
    simp [joinWholeBodies]
  · rw [Line.ending]
    split
    next =>
      intro c hc
      exact (Option.some.inj hc).symm
    next hended =>
      -- without a line feed it is the last line
      have hlast : lines.size ≤ start + 1 := Nat.le_of_not_lt fun hlt => hended (h.ended start hlt)
      have hnone : linesFrom lines (start + 1) next = [] := by
        simp [linesFrom, hlast]
      rw [hnone]
      intro c hc
      cases hc

theorem le_blankLine (lines : Array Line) (stop room next : Nat) : next ≤ blankLine lines stop room next := by
  induction room generalizing next with
  | zero => exact Nat.le_refl next
  | succ room ih =>
    rw [blankLine]
    split
    · exact Nat.le_refl next
    · exact Nat.le_of_succ_le (ih (next + 1))

theorem le_rawTextEndLine (lines : Array Line) (scope : Scope) (closer : List Char) (stop room next : Nat) :
    next ≤ rawTextEndLine lines scope closer stop room next := by
  induction room generalizing next with
  | zero => exact Nat.le_refl next
  | succ room ih =>
    rw [rawTextEndLine]
    split
    · exact Nat.le_refl next
    · split
      · exact Nat.le_succ next
      · exact Nat.le_of_succ_le (ih (next + 1))

/-- After blanks and marks of items, markup starts or raw text does. -/
def StartsRaw (s : List Char) : Prop :=
  ∃ pre w : List Char, s = pre ++ w ∧ (∀ c ∈ pre, isIndentMark c = true) ∧
    (Element.startsHere w = true ∨ (rawTextEnd? w).isSome = true)

/-! ### Blocks at every depth -/

/-- The raw blocks in a piece, and the piece itself if it is one, start as they should. -/
inductive RawSound : Syntax → Prop
  | node {h : SyntaxHead} {cs : List Syntax} (hraw : h.kind = "html_block" → StartsRaw h.content.toList)
      (hcs : ∀ c ∈ cs, RawSound c) : RawSound (.node h cs)

theorem RawSound.within {pieces : List Syntax} (h : ∀ s ∈ pieces, RawSound s) {s : Syntax}
    (hs : Within s pieces) (hk : s.kind = "html_block") : StartsRaw s.head.content.toList := by
  induction hs with
  | here hmem =>
    cases h _ hmem with
    | node hraw hcs => exact hraw hk
  | inside hmem _ ih =>
    cases h _ hmem with
    | node hraw hcs => exact ih hcs

theorem rawSound_of_ne {h : SyntaxHead} {cs : List Syntax} (hk : h.kind ≠ "html_block")
    (hcs : ∀ c ∈ cs, RawSound c) : RawSound (.node h cs) :=
  .node (fun hraw => absurd hraw hk) hcs

theorem rawSound_leaf {h : SyntaxHead} (hk : h.kind ≠ "html_block") : RawSound (.node h []) :=
  rawSound_of_ne hk (List.forall_mem_nil _)

theorem rawSound_single {h : SyntaxHead} {c : Syntax} (hk : h.kind ≠ "html_block") (hc : RawSound c) :
    RawSound (.node h [c]) :=
  rawSound_of_ne hk (List.forall_mem_cons.mpr ⟨hc, List.forall_mem_nil _⟩)

theorem rawSound_inlineText (content : List Char) (start stop : Nat) :
    RawSound (inlineText content start stop) :=
  rawSound_leaf (show "inline" ≠ "html_block" by decide)

theorem rawSound_tableRow {tag : String} (htag : tag ≠ "html_block") (line : Nat) (aligns : List String)
    (cells : List (List Char)) : RawSound (tableRow tag line aligns cells) := by
  refine rawSound_of_ne (show "tr" ≠ "html_block" by decide) ?_
  induction aligns generalizing cells with
  | nil => exact List.forall_mem_nil _
  | cons align aligns ih =>
    cases cells with
    | nil => exact List.forall_mem_cons.mpr ⟨rawSound_single htag (rawSound_inlineText _ _ _), ih []⟩
    | cons text cells =>
      exact List.forall_mem_cons.mpr ⟨rawSound_single htag (rawSound_inlineText _ _ _), ih cells⟩

theorem rawSound_tableRows (lines : Array Line) (scope : Scope) (aligns : List String)
    (stop room next : Nat) (missing : Int) :
    ∀ r ∈ (tableRows lines scope aligns stop room next missing).rows, RawSound r := by
  induction room generalizing next missing with
  | zero => exact List.forall_mem_nil _
  | succ room ih =>
    rw [tableRows]
    dsimp only
    split
    · exact List.forall_mem_nil _
    · split
      · exact List.forall_mem_nil _
      · split
        · exact List.forall_mem_nil _
        · exact List.forall_mem_cons.mpr
            ⟨rawSound_tableRow (show "td" ≠ "html_block" by decide) next aligns _, ih (next + 1) _⟩

section Blocks

variable {lines : Array Line} {scope : Scope} {start stop : Nat} {b : FoundBlock}

theorem rawSound_table? (h : table? lines scope start stop = some b) : RawSound b.piece := by
  unfold table? at h
  split at h
  · cases h
  next cells aligns heq =>
    cases h
    refine rawSound_of_ne (show "table" ≠ "html_block" by decide) ?_
    refine List.forall_mem_cons.mpr ⟨?_, fun c hc => ?_⟩
    · exact rawSound_single (show "thead" ≠ "html_block" by decide)
        (rawSound_tableRow (show "th" ≠ "html_block" by decide) start aligns cells)
    · split at hc
      · cases hc
      · rw [List.mem_singleton.mp hc]
        exact rawSound_of_ne (show "tbody" ≠ "html_block" by decide)
          (rawSound_tableRows lines scope aligns stop _ _ _)

theorem rawSound_codeBlock? (h : codeBlock? lines scope start stop = some b) : RawSound b.piece := by
  unfold codeBlock? at h
  split at h
  · cases h
    exact rawSound_leaf (show "code_block" ≠ "html_block" by decide)
  · cases h

theorem rawSound_fence? (h : fence? lines scope start stop = some b) : RawSound b.piece := by
  unfold fence? at h
  dsimp only at h
  split at h
  · cases h
  · cases h
    exact rawSound_leaf (show "fence" ≠ "html_block" by decide)

theorem rawSound_thematicBreak? (h : thematicBreak? lines scope start = some b) : RawSound b.piece := by
  unfold thematicBreak? at h
  split at h
  · split at h
    · cases h
      exact rawSound_leaf (show "hr" ≠ "html_block" by decide)
    · cases h
  · cases h

theorem rawSound_headingBlock (depth : Nat) (text : List Char) (start textEnd next : Nat) :
    RawSound (headingBlock depth text start textEnd next).piece :=
  rawSound_single (show "heading" ≠ "html_block" by decide) (rawSound_inlineText _ _ _)

theorem rawSound_signHeading? (h : signHeading? lines scope start = some b) : RawSound b.piece := by
  unfold signHeading? at h
  split at h
  · cases h
  · cases h
    exact rawSound_headingBlock ..

theorem rawSound_underlinedHeading? (h : underlinedHeading? lines scope start stop = some b) :
    RawSound b.piece := by
  unfold underlinedHeading? at h
  split at h
  · cases h
  · split at h
    · cases h
    · cases h
      exact rawSound_headingBlock ..

/-- What starts the content of the first line and does not depend on the lines after it starts the block. -/
theorem rawSound_rawBlock (hl : Laid lines) {next : Nat} (hnext : start < next) {rest : List Char}
    (hcontent : (lineAt lines start).content = '<' :: rest)
    (hstarts : ∀ u : List Char, (∀ c ∈ u.head?, c = '\n') →
      Element.startsHere ((lineAt lines start).content ++ u) = true ∨
        (rawTextEnd? ((lineAt lines start).content ++ u)).isSome = true) :
    RawSound (rawBlock lines scope start next).piece := by
  obtain ⟨pre, u, hjoin, hpre, hu⟩ := exists_content hl hnext hcontent scope.indent
  refine .node (fun _ => ?_) (List.forall_mem_nil _)
  exact ⟨pre, _, String.toList_ofList.trans hjoin, hpre, hstarts u hu⟩

theorem rawSound_elementBlock? (hl : Laid lines) (h : elementBlock? lines scope start stop = some b) :
    RawSound b.piece := by
  obtain ⟨hstarts, rfl⟩ := elementBlock?_eq_some h
  obtain ⟨rest, hcontent, -⟩ := Element.startsHere_iff.mp hstarts
  refine rawSound_rawBlock hl (Nat.lt_of_succ_le (le_blankLine _ _ _ _)) hcontent fun u hu => .inl ?_
  rw [Element.startsHere_append hu]
  exact hstarts

theorem rawTextEnd?_append {s closer : List Char} (h : rawTextEnd? s = some closer) (u : List Char) :
    (∃ rest, s = '<' :: rest) ∧ rawTextEnd? (s ++ u) = some closer := by
  unfold rawTextEnd? at h
  split at h
  next rest => exact ⟨⟨_, rfl⟩, h⟩
  next c rest =>
    refine ⟨⟨_, rfl⟩, ?_⟩
    split at h
    next halpha => exact (if_pos halpha).trans h
    next halpha =>
      split at h
      next hdata =>
        have hmore : "<![CDATA[".toList.isPrefixOf ('<' :: '!' :: c :: rest ++ u) = true :=
          List.isPrefixOf_iff_prefix.mpr
            ((List.isPrefixOf_iff_prefix.mp hdata).trans (List.prefix_append _ u))
        exact (if_neg halpha).trans ((if_pos hmore).trans h)
      next => cases h
  next => cases h

theorem rawSound_rawTextBlock? (hl : Laid lines) (h : rawTextBlock? lines scope start stop = some b) :
    RawSound b.piece := by
  unfold rawTextBlock? at h
  dsimp only at h
  split at h
  next => cases h
  next closer hcloser =>
    cases h
    obtain ⟨s, hs, hend⟩ := Option.bind_eq_some_iff.mp hcloser
    obtain rfl := startText?_eq_some hs
    obtain ⟨⟨rest, hcontent⟩, -⟩ := rawTextEnd?_append hend []
    refine rawSound_rawBlock hl ?_ hcontent fun u _ => .inr ?_
    · split
      · exact Nat.lt_succ_self start
      · exact Nat.lt_of_succ_le (le_rawTextEndLine _ _ _ _ _ _)
    · rw [(rawTextEnd?_append hend u).2]
      rfl

end Blocks

section Containers

variable {inner : BlockParser} {lines : Array Line} {scope : Scope} {start stop : Nat}

theorem rawSound_quote? {c : Syntax × Blocks} (hi : Yields Laid RawSound inner) (hl : Laid lines)
    (h : quote? inner lines scope start stop = some c) : RawSound c.1 := by
  unfold quote? at h
  dsimp only at h
  split at h
  · cases h
  · split at h
    · cases h
      exact rawSound_of_ne (show "blockquote" ≠ "html_block" by decide)
        (hi _ _ _ _ (laid_quoteLines (hl.set (indented_quotedLine _) rfl)))
    · cases h

theorem rawSound_listItem (hi : Yields Laid RawSound inner) (hl : Laid lines) {mark : ItemMark}
    (hmark : StartsWithMark mark (lineAt lines start).content) :
    ∀ s ∈ (listItem inner lines scope mark start stop).found, RawSound s := by
  unfold listItem
  dsimp only
  split
  · exact List.forall_mem_nil _
  · exact hi _ _ _ _ (hl.set (indented_itemLine (hl.indented start) hmark) rfl)

theorem startsWithMark_of_nextItem? {mark other : ItemMark} {next : Nat}
    (h : nextItem? lines scope mark next stop = some other) :
    StartsWithMark other (lineAt lines next).content := by
  unfold nextItem? at h
  dsimp only at h
  split at h
  next => cases h
  next =>
    split at h
    next m hm =>
      split at h
      next =>
        obtain rfl := Option.some.inj h
        split at hm
        · exact startsWithMark_of_orderedMark? hm
        · exact startsWithMark_of_bulletMark? hm
      next => cases h
    next => cases h

theorem startsWithMark_of_listMark? {l : Line} {mark : ItemMark} (h : listMark? scope l = some mark) :
    StartsWithMark mark l.content := by
  unfold listMark? at h
  split at h
  next => cases h
  next s hs =>
    obtain rfl := startText?_eq_some hs
    split at h
    next => cases h
    next =>
      rcases Option.or_eq_some_iff.mp h with hordered | ⟨-, hbullet⟩
      · exact startsWithMark_of_orderedMark? hordered
      · exact startsWithMark_of_bulletMark? hbullet

theorem rawSound_listItems (hi : Yields Laid RawSound inner) (hl : Laid lines) (room : Nat) {mark : ItemMark}
    (blank : Bool) (hmark : StartsWithMark mark (lineAt lines start).content) :
    ∀ s ∈ (listItems inner lines scope stop room mark start blank).found, RawSound s := by
  induction room generalizing mark start blank with
  | zero => exact List.forall_mem_nil _
  | succ room ih =>
    have hitem (next : Nat) : RawSound (.node
        { kind := "list_item", tag := "li", lines := some ((start : Int), (next : Int)) }
        (listItem inner lines scope mark start stop).found) :=
      rawSound_of_ne (show "list_item" ≠ "html_block" by decide) (rawSound_listItem hi hl hmark)
    rw [listItems]
    dsimp only
    split
    next => exact List.forall_mem_cons.mpr ⟨hitem _, List.forall_mem_nil _⟩
    next other hother =>
      exact List.forall_mem_cons.mpr ⟨hitem _, ih _ (startsWithMark_of_nextItem? hother)⟩

theorem rawSound_hideParagraph {s : Syntax} (h : RawSound s) : RawSound (hideParagraph s) := by
  cases h with
  | node hraw hcs =>
    rw [hideParagraph]
    split
    · exact .node hraw hcs
    · exact .node hraw hcs

theorem rawSound_hideParagraphs {s : Syntax} (h : RawSound s) : RawSound (hideParagraphs s) := by
  cases h with
  | node hraw hcs =>
    refine .node hraw fun c hc => ?_
    obtain ⟨d, hd, rfl⟩ := List.mem_map.mp hc
    exact rawSound_hideParagraph (hcs d hd)

theorem rawSound_list? {c : Syntax × Blocks} (hi : Yields Laid RawSound inner) (hl : Laid lines)
    (h : list? inner lines scope start stop = some c) : RawSound c.1 := by
  unfold list? at h
  split at h
  · cases h
  next mark hmark =>
    cases h
    have hitems : ∀ s ∈ (listItems inner lines scope stop (stop - start) mark start false).found, RawSound s :=
      rawSound_listItems hi hl _ false (startsWithMark_of_listMark? hmark)
    refine rawSound_of_ne ?_ fun s hs => ?_
    · dsimp only
      split
      · exact (by decide : "bullet_list" ≠ "html_block")
      · exact (by decide : "ordered_list" ≠ "html_block")
    · split at hs
      · obtain ⟨item, hitem, rfl⟩ := List.mem_map.mp hs
        exact rawSound_hideParagraphs (hitems item hitem)
      · exact hitems s hs

end Containers

/-- **One block.** -/
theorem rawSound_blockAt {quoted item : BlockParser} (hq : Yields Laid RawSound quoted)
    (hi : Yields Laid RawSound item) : Yields Laid RawSound (blockAt quoted item) := by
  intro lines scope start stop hl
  refine Finds.getD ?_ (List.forall_mem_cons.mpr ⟨?_, List.forall_mem_nil _⟩)
  · refine (finds_ofFound fun b => rawSound_table?).orElse ?_
    refine (finds_ofFound fun b => rawSound_codeBlock?).orElse ?_
    refine (finds_ofFound fun b => rawSound_fence?).orElse ?_
    refine (finds_ofContainer fun c => rawSound_quote? hq hl).orElse ?_
    refine (finds_ofFound fun b => rawSound_thematicBreak?).orElse ?_
    refine (finds_ofContainer fun c => rawSound_list? hi hl).orElse ?_
    refine (finds_ofDefinition _).orElse ?_
    refine (finds_ofFound fun b => rawSound_elementBlock? hl).orElse ?_
    refine (finds_ofFound fun b => rawSound_rawTextBlock? hl).orElse ?_
    refine (finds_ofFound fun b => rawSound_signHeading?).orElse ?_
    exact finds_ofFound fun b => rawSound_underlinedHeading?
  · exact rawSound_single (show "paragraph" ≠ "html_block" by decide) (rawSound_inlineText _ _ _)

/-- **The raw blocks of every document start with markup or raw text**, after blanks and marks of items. -/
theorem startsRaw_parseBlocks (text : List Char) {s : Syntax} (hs : Within s (parseBlocks text).found)
    (hk : s.kind = "html_block") : StartsRaw s.head.content.toList :=
  RawSound.within
    (yields_blockParser (fun _ _ => rawSound_blockAt) blockLevels _ _ _ _ (laid_linesOf text)) hs hk

/-! ### The result -/

section Result

open Mdx.Element (startsHere startsHere_iff startsHere_dropEndWhile MarkupAt markupAt_append markupAt_slice tokens
  textToken textNodes elementNode spanEnd? parseFragment Placement)

theorem dropEndWhile_append {p : Char → Bool} {x y : List Char} {c : Char} (hc : c ∈ y) (hp : p c = false) :
    Text.dropEndWhile p (x ++ y) = x ++ Text.dropEndWhile p y := by
  rw [Text.dropEndWhile, Text.dropEndWhile, List.reverse_append, List.dropWhile_append, if_neg, List.reverse_append,
    List.reverse_reverse]
  intro hall
  have hpass := List.dropWhile_eq_nil_iff.mp (List.isEmpty_iff.mp hall) c (List.mem_reverse.mpr hc)
  rw [hp] at hpass
  cases hpass

/-- A raw block that markup starts has it in the tree, after what is left of the indent. -/
theorem markupAt_htmlNode {h : SyntaxHead} {pre w : List Char} (hcontent : h.content.toList = pre ++ w)
    (hpre : ∀ c ∈ pre, isIndentMark c = true) (hw : startsHere w = true) (position : Option Position) :
    MarkupAt ((Generic.htmlNode position h).value.getD "").toList pre.length := by
  have hinert (c : Char) (hc : isIndentMark c = false) : c ∉ pre := by
    intro hmem
    rw [hpre c hmem] at hc
    cases hc
  have hvalue : ((Generic.htmlNode position h).value.getD "").toList =
      pre ++ Text.dropEndWhile (· == '\n') w := by
    obtain ⟨rest, rfl, -⟩ := startsHere_iff.mp hw
    refine String.toList_ofList.trans ?_
    rw [hcontent]
    exact dropEndWhile_append List.mem_cons_self (by decide)
  rw [hvalue]
  exact markupAt_append (hinert '<' (by decide)) (hinert '\x7b' (by decide))
    ((startsHere_dropEndWhile w).trans hw)

/-- **Where the pattern has markup start, the lexer never has text.**

* Of a text that the pattern accepts, the lexer gives a first token that starts at the first character and is
  no text, or it fails before any token.
* The content of every raw block, however deep in a document, is what is left of an indent and a text that the
  pattern accepts, and then its first tag or comment is at the start of that text, or it has a fault; or it
  is raw text of another kind, which the pattern refuses.
* A span that is cut out of running text has its first tag or comment at its first character, or a fault.
* What is read of such a text has a comment or an element at that place, if it is not an error. -/
theorem markup_start_is_never_text :
    (∀ w : List Char, startsHere w = true →
      (∃ (t : Element.Token) (ts : List Element.Token),
          (tokens w).1 = t :: ts ∧ t.start = 0 ∧ t.kind ≠ .text) ∨
        (tokens w).1 = [] ∧ (tokens w).2 ≠ none) ∧
    (∀ (text : List Char) (s : Syntax), Within s (parseBlocks text).found → s.kind = "html_block" →
      ∃ pre w : List Char, s.head.content.toList = pre ++ w ∧ (∀ c ∈ pre, isIndentMark c = true) ∧
        (startsHere w = true ∧ (∀ position : Option Position,
            MarkupAt ((Generic.htmlNode position s.head).value.getD "").toList pre.length) ∨
          startsHere w = false ∧ (rawTextEnd? w).isSome = true)) ∧
    (∀ (src : List Char) (pos limit e : Nat), spanEnd? src pos limit = some e →
      MarkupAt (slice src pos e) 0) ∧
    ∀ (src : List Char) (k : Nat) (place : Placement) (ns : List Node), MarkupAt src k →
      parseFragment src place = .ok ns →
        (∃ t ∈ (tokens src).1, t.start = k ∧ t.kind = .comment) ∨
          ∃ (stop : Nat) (children rest : List Node),
            ns = (textToken 0 k).flatMap (textNodes src place) ++
              elementNode src place k stop children :: rest := by
  refine ⟨fun w hw => ?_, fun text s hs hk => ?_, fun src pos limit e => markupAt_slice,
    fun src k place ns hmarkup => hmarkup.nodes⟩
  · cases markupAt_append List.not_mem_nil List.not_mem_nil hw with
    | token htokens hstart hkind => exact .inl ⟨_, _, htokens, hstart, hkind⟩
    | fault htokens hfault => exact .inr ⟨htokens, Option.isSome_iff_ne_none.mp hfault⟩
  · obtain ⟨pre, w, hcontent, hpre, hstarts⟩ := startsRaw_parseBlocks text hs hk
    refine ⟨pre, w, hcontent, hpre, ?_⟩
    cases hw : startsHere w with
    | true => exact .inl ⟨rfl, markupAt_htmlNode hcontent hpre hw⟩
    | false => exact .inr ⟨rfl, hstarts.resolve_left (by rw [hw]; decide)⟩

/-- An item in a quotation, with a tag that is not closed. -/
def quotedTag : List Char :=
  ['>', ' ', '-', ' ', '<', 'b', '\n']

/-- An element in running text. -/
def spanText : List Char :=
  ['x', ' ', '<', 'b', '/', '>', ' ', 'y']

theorem markup_start_is_never_text_item :
    (startsHere ['<', 'b'] = true ∧ (tokens ['<', 'b']).1 = [] ∧ (tokens ['<', 'b']).2 ≠ none) ∧
    (∃ s : Syntax, Within s (parseBlocks quotedTag).found ∧ s.kind = "html_block" ∧
      ∃ pre w : List Char, s.head.content.toList = pre ++ w ∧
        (startsHere w = true ∧ (∀ position : Option Position,
            MarkupAt ((Generic.htmlNode position s.head).value.getD "").toList pre.length) ∨
          startsHere w = false ∧ (rawTextEnd? w).isSome = true)) ∧
    spanEnd? spanText 2 8 = some 6 ∧ MarkupAt (slice spanText 2 6) 0 ∧
    ∃ ns : List Node, parseFragment (slice spanText 2 6) {} = .ok ns ∧
      ∃ (stop : Nat) (children rest : List Node),
        ns = (textToken 0 0).flatMap (textNodes (slice spanText 2 6) {}) ++
          elementNode (slice spanText 2 6) {} 0 stop children :: rest := by
  obtain ⟨htext, hblock, hspan, hread⟩ := markup_start_is_never_text
  have hstarts : startsHere ['<', 'b'] = true := by decide +kernel
  have hnone : (tokens ['<', 'b']).1 = [] := by decide +kernel
  have hend : spanEnd? spanText 2 8 = some 6 := by decide +kernel
  have hmarkup := hspan spanText 2 8 6 hend
  refine ⟨⟨hstarts, ?_⟩, ?_, hend, hmarkup, ?_⟩
  · rcases htext _ hstarts with ⟨t, ts, htokens, -⟩ | hfault
    · rw [hnone] at htokens
      cases htokens
    · exact hfault
  · -- the quotation has a list, the list an item and the item the block
    have hkinds : ((parseBlocks quotedTag).found.flatMap fun quote => quote.children.flatMap fun list =>
        list.children.flatMap fun item => item.children.map Syntax.kind) = ["html_block"] := by
      decide +kernel
    have hmem : "html_block" ∈ _ := hkinds.symm ▸ List.mem_singleton_self "html_block"
    simp only [List.mem_flatMap, List.mem_map] at hmem
    obtain ⟨quote, hquote, list, hlist, item, hitem, s, hs, hk⟩ := hmem
    have hwithin : Within s (parseBlocks quotedTag).found :=
      .inside hquote (.inside hlist (.inside hitem (.here hs)))
    obtain ⟨pre, w, hcontent, -, hw⟩ := hblock quotedTag s hwithin hk
    exact ⟨s, hwithin, hk, pre, w, hcontent, hw⟩
  · cases hns : parseFragment (slice spanText 2 6) {} with
    | error e =>
      have hok : (parseFragment (slice spanText 2 6) {}).toOption.isSome = true := by decide +kernel
      rw [hns] at hok
      cases hok
    | ok ns =>
      have hkinds : ∀ t ∈ (tokens (slice spanText 2 6)).1, t.kind ≠ .comment := by decide +kernel
      refine ⟨ns, rfl, (hread _ 0 {} ns hmarkup hns).resolve_left ?_⟩
      rintro ⟨t, ht, -, hcomment⟩
      exact hkinds t ht hcomment

end Result

end Mdx.Markdown
