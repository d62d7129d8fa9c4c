import Mdx.Proofs.Generic.Lines
import Mdx.Proofs.Generic.Regular

/-!
# The nodes of a document lie in its text

A position is inside a text if its offsets are in order and in the text (`Position.Inside`).  The spans
of a line index are, since offsets are moved into the text (`LineIndex.inside_span`); so are the positions
of lines, since a line starts before the next one does and none starts after the text
(`inside_linesPosition?`).

Hence every position in the tree of a document is inside its text, whatever lines its blocks claim, as
long as none is counted back from the end (`sited_ofSyntax`).
-/

namespace Mdx

/-! ### Positions in a text -/

/-- The position is inside a text of this length: its offsets are in order and in the text. -/
def Position.Inside (length : Nat) (p : Position) : Prop :=
  0 ≤ p.start.offset ∧ p.start.offset ≤ p.stop.offset ∧ p.stop.offset ≤ (length : Int)

namespace LineIndex

/-- The span of two offsets in order is inside the text, wherever the offsets are. -/
theorem inside_span (ix : LineIndex) {start stop : Int} (h : start ≤ stop) :
    (ix.span start stop).Inside ix.length := by
  have hstart : (ix.span start stop).start.offset = (min start.toNat ix.length : Nat) := rfl
  have hstop : (ix.span start stop).stop.offset = (min stop.toNat ix.length : Nat) := rfl
  rw [Position.Inside, hstart, hstop]
  omega

/-- The span from the start of a line to the end of this line or of a later one is inside the text. -/
theorem inside_lines (text : List Char) {i j : Nat} (h : i ≤ j) :
    ((ofText text).span ((ofText text).starts.getD i 0 : Nat) ((ofText text).lineEnd j : Nat)).Inside
      text.length :=
  inside_span _ (Int.ofNat_le.mpr (start_le_lineEnd_of_le text h))

end LineIndex

namespace Generic

open Mdx.Markdown
open Mdx.Node (Everywhere everywhere_nil everywhere_cons)

variable {text : List Char}

/-- **The position of lines is inside the text**, also where the text has fewer lines. -/
theorem inside_linesPosition? {first next : Int} {p : Position} (hfirst : 0 ≤ first)
    (h : linesPosition? (.ofText text) first next = some p) : p.Inside text.length := by
  rw [linesPosition?_eq hfirst] at h
  cases h
  exact LineIndex.inside_lines text (by omega)

/-! ### Nodes in a text -/

/-- No piece, at any depth, has its first line counted back from the end. -/
def SoundLines (pieces : List Syntax) : Prop :=
  ∀ s : Syntax, Within s pieces → ∀ lines ∈ s.head.lines, 0 ≤ lines.1

theorem soundLines_nil : SoundLines [] :=
  fun _ hs => absurd hs not_within_nil

theorem soundLines_cons {t : Syntax} {rest : List Syntax} :
    SoundLines (t :: rest) ↔
      (∀ lines ∈ t.head.lines, 0 ≤ lines.1) ∧ SoundLines t.children ∧ SoundLines rest :=
  forall_within_cons

/-- The position, if there is one, is inside the text. -/
def PlacedAt (text : List Char) (position : Option Position) : Prop :=
  ∀ p ∈ position, p.Inside text.length

theorem placedAt_none : PlacedAt text none := by
  intro p hp
  cases hp

theorem placedAt_blockPosition {h : SyntaxHead} {position : Option Position}
    (hl : ∀ lines ∈ h.lines, 0 ≤ lines.1)
    (hp : blockPosition (.ofText text) h = .ok position) : PlacedAt text position := by
  unfold blockPosition at hp
  split at hp
  · cases hp
    exact placedAt_none
  next lines hlines =>
    split at hp
    next p hsome =>
      cases hp
      intro q hq
      cases hq
      exact inside_linesPosition? (hl lines hlines) hsome
    · cases hp

/-- A node of a document with this text: it has a kind of documents, and its position, if there is one,
is inside the text. -/
structure Sited (text : List Char) (x : Node) : Prop where
  kind : x.kind ∈ Vocabulary.generic
  inside : PlacedAt text x.position

theorem everywhere_leaf {h : NodeHead} {rest : List Node} (hk : h.kind ∈ Vocabulary.generic)
    (hp : PlacedAt text h.position) (hrest : Everywhere (Sited text) rest) :
    Everywhere (Sited text) (.leaf h :: rest) :=
  everywhere_cons.mpr ⟨⟨hk, hp⟩, everywhere_nil, hrest⟩

theorem everywhere_branch {h : NodeHead} {cs rest : List Node} (hk : h.kind ∈ Vocabulary.generic)
    (hp : PlacedAt text h.position) (hc : Everywhere (Sited text) cs)
    (hrest : Everywhere (Sited text) rest) : Everywhere (Sited text) (.branch h cs :: rest) :=
  everywhere_cons.mpr ⟨⟨hk, hp⟩, hc, hrest⟩

theorem sited_inlineContent {pieces : List Syntax} {ns : List Node}
    (h : inlineContent pieces = .ok ns) : Everywhere (Sited text) ns := by
  intro x hx
  have hgeneric : inlineKinds ⊆ Vocabulary.generic := by decide
  obtain ⟨hk, hp⟩ := inline_inlineContent h x hx
  refine ⟨hgeneric hk, ?_⟩
  rw [hp]
  exact placedAt_none

/-! ### Blocks -/

theorem sited_cellNodes {pieces : List Syntax} {ns : List Node} (h : cellNodes pieces = .ok ns) :
    Everywhere (Sited text) ns := by
  induction pieces generalizing ns with
  | nil =>
    cases h
    exact everywhere_nil
  | cons s rest ih =>
    rw [cellNodes] at h
    obtain ⟨children, hchildren, h⟩ := exists_ok_of_bind h
    obtain ⟨others, hothers, h⟩ := exists_ok_of_bind h
    cases h
    exact everywhere_branch (by decide) placedAt_none (sited_inlineContent hchildren) (ih hothers)

theorem sited_rowNodes {pieces : List Syntax} {ns : List Node}
    (h : rowNodes (.ofText text) pieces = .ok ns) (hl : SoundLines pieces) :
    Everywhere (Sited text) ns := by
  induction pieces generalizing ns with
  | nil =>
    cases h
    exact everywhere_nil
  | cons s rest ih =>
    obtain ⟨hs, -, hrest⟩ := soundLines_cons.mp hl
    rw [rowNodes] at h
    obtain ⟨cells, hcells, h⟩ := exists_ok_of_bind h
    obtain ⟨position, hposition, h⟩ := exists_ok_of_bind h
    obtain ⟨others, hothers, h⟩ := exists_ok_of_bind h
    cases h
    exact everywhere_branch (by simp [Vocabulary.generic]) (placedAt_blockPosition hs hposition)
      (sited_cellNodes hcells) (ih hothers hrest)

theorem SoundLines.rows {sections : List Syntax} (h : SoundLines sections) :
    SoundLines (sections.flatMap Syntax.children) := by
  intro s hs
  cases hs with
  | here hmem =>
    obtain ⟨t, ht, hst⟩ := List.mem_flatMap.mp hmem
    exact h s (.inside ht (.here hst))
  | inside hmem hs =>
    obtain ⟨t, ht, hst⟩ := List.mem_flatMap.mp hmem
    exact h s (.inside ht (.inside hst hs))

theorem sited_leafBlock {position : Option Position} {h : SyntaxHead} {cs : List Syntax} {n : Node}
    (hn : leafBlock (.ofText text) position h cs = .ok n) (hp : PlacedAt text position)
    (hl : SoundLines cs) : n.position = position ∧ Everywhere (Sited text) [n] := by
  unfold leafBlock at hn
  split at hn
  next =>
    obtain ⟨children, hchildren, hn⟩ := exists_ok_of_bind hn
    cases hn
    exact ⟨rfl, everywhere_branch (by simp [Vocabulary.generic]) hp (sited_inlineContent hchildren)
      everywhere_nil⟩
  next hk =>
    obtain ⟨children, hchildren, hn⟩ := exists_ok_of_bind hn
    obtain ⟨depth, hdepth, hn⟩ := exists_ok_of_bind hn
    cases hn
    exact ⟨rfl, everywhere_branch (by simp [Vocabulary.generic]) hp (sited_inlineContent hchildren)
      everywhere_nil⟩
  next =>
    cases hn
    exact ⟨rfl, everywhere_leaf (by simp [Vocabulary.generic]) hp everywhere_nil⟩
  next =>
    cases hn
    exact ⟨rfl, everywhere_leaf (by simp [Vocabulary.generic]) hp everywhere_nil⟩
  next =>
    cases hn
    exact ⟨rfl, everywhere_leaf (by simp [Vocabulary.generic]) hp everywhere_nil⟩
  next =>
    cases hn
    exact ⟨rfl, everywhere_leaf (by simp [Vocabulary.generic]) hp everywhere_nil⟩
  next =>
    obtain ⟨rows, hrows, hn⟩ := exists_ok_of_bind hn
    cases hn
    exact ⟨rfl, everywhere_branch (by simp [Vocabulary.generic]) hp (sited_rowNodes hrows hl.rows)
      everywhere_nil⟩
  next => cases hn

mutual

theorem sited_block : ∀ (s : Syntax) {n : Node}, block (.ofText text) s = .ok n →
    (∀ lines ∈ s.head.lines, 0 ≤ lines.1) → SoundLines s.children →
      blockPosition (.ofText text) s.head = .ok n.position ∧ Everywhere (Sited text) [n]
  | .node h cs, n, hn, hs, hcs => by
    rw [block] at hn
    split at hn
    · cases hn
    next position hposition =>
      have hp : PlacedAt text position := placedAt_blockPosition hs hposition
      split at hn
      · split at hn
        · cases hn
        next children hchildren =>
          cases hn
          exact ⟨hposition, everywhere_branch (by simp [Vocabulary.generic]) hp
            (sited_blocks cs hchildren hcs).2 everywhere_nil⟩
      · split at hn
        · split at hn
          · cases hn
          next children hchildren =>
            rw [listNode] at hn
            obtain ⟨start, -, hn⟩ := exists_ok_of_bind hn
            cases hn
            exact ⟨hposition, everywhere_branch (by simp [Vocabulary.generic]) hp
              (sited_items cs hchildren hcs) everywhere_nil⟩
        · obtain ⟨heq, hplaced⟩ := sited_leafBlock hn hp hcs
          exact ⟨heq ▸ hposition, hplaced⟩

/-- **The nodes of blocks, and all nodes in them, stand in the text**, and a block that has lines
has a position. -/
theorem sited_blocks : ∀ (pieces : List Syntax) {ns : List Node},
    blocks (.ofText text) pieces = .ok ns → SoundLines pieces →
      (∀ n ∈ ns, ∃ s ∈ pieces, blockPosition (.ofText text) s.head = .ok n.position) ∧
        Everywhere (Sited text) ns
  | [], ns, hns, hl => by
    rw [blocks] at hns
    cases hns
    exact ⟨List.forall_mem_nil _, everywhere_nil⟩
  | s :: rest, ns, hns, hl => by
    obtain ⟨hs, hcs, hrest⟩ := soundLines_cons.mp hl
    rw [blocks] at hns
    split at hns
    · cases hns
    next n hn =>
      split at hns
      · cases hns
      next others hothers =>
        cases hns
        obtain ⟨hposition, hfirst⟩ := sited_block s hn hs hcs
        obtain ⟨hpositions, hothers⟩ := sited_blocks rest hothers hrest
        refine ⟨List.forall_mem_cons.mpr ⟨⟨s, List.mem_cons_self, hposition⟩, ?_⟩,
          hfirst.append hothers⟩
        intro m hm
        obtain ⟨t, ht, hposition⟩ := hpositions m hm
        exact ⟨t, List.mem_cons_of_mem s ht, hposition⟩

theorem sited_items {tight : Bool} : ∀ (pieces : List Syntax) {ns : List Node},
    items (.ofText text) tight pieces = .ok ns → SoundLines pieces → Everywhere (Sited text) ns
  | [], ns, hns, hl => by
    rw [items] at hns
    cases hns
    exact everywhere_nil
  | .node h cs :: rest, ns, hns, hl => by
    obtain ⟨hs, hcs, hrest⟩ := soundLines_cons.mp hl
    rw [items] at hns
    split at hns
    · cases hns
    next children hchildren =>
      split at hns
      · cases hns
      next position hposition =>
        split at hns
        · cases hns
        next others hothers =>
          cases hns
          exact everywhere_branch (by simp [Vocabulary.generic])
            (placedAt_blockPosition hs hposition) (sited_blocks cs hchildren hcs).2
            (sited_items rest hothers hrest)

end

theorem isSome_blockPosition {ix : LineIndex} {h : SyntaxHead} {position : Option Position}
    (hl : h.lines.isSome) (hp : blockPosition ix h = .ok position) : position.isSome := by
  obtain ⟨lines, hlines⟩ := Option.isSome_iff_exists.mp hl
  rw [blockPosition, hlines] at hp
  dsimp only at hp
  split at hp <;> cases hp
  rfl

/-- **The tree of a document stands in its text**: it has kinds of documents, the positions in it
are inside the text, the root has one, and so has each block that has lines. -/
theorem sited_ofSyntax {pieces : List Syntax} {tree : Node} (h : ofSyntax text pieces = .ok tree)
    (hl : SoundLines pieces) :
    tree.kind = "root" ∧ tree.position.isSome ∧ (∀ x ∈ tree.flatten, Sited text x) ∧
      ((∀ s ∈ pieces, s.head.lines.isSome) → ∀ n ∈ tree.children, n.position.isSome) := by
  rw [ofSyntax] at h
  obtain ⟨children, hchildren, h⟩ := exists_ok_of_bind h
  cases h
  obtain ⟨hpositions, hplaced⟩ := sited_blocks pieces hchildren hl
  refine ⟨rfl, rfl, ?_, fun hroot => ?_⟩
  · have hspan : PlacedAt text (some ((LineIndex.ofText text).span 0 (text.length : Nat))) := by
      rintro p ⟨⟩
      exact LineIndex.inside_span _ (Int.natCast_nonneg text.length)
    exact everywhere_branch (by simp [Vocabulary.generic]) hspan hplaced everywhere_nil
  · intro n hn
    obtain ⟨s, hs, hposition⟩ := hpositions n hn
    exact isSome_blockPosition (hroot s hs) hposition

theorem validate_ofSyntax {pieces : List Syntax} {tree : Node} (h : ofSyntax text pieces = .ok tree)
    (hl : SoundLines pieces) : tree.validate Vocabulary.generic "parse" = .ok () :=
  have hsited := sited_ofSyntax h hl
  Node.validate_eq_ok_iff.mpr ⟨hsited.1, fun x hx => (hsited.2.2.1 x hx).kind⟩

end Generic

end Mdx
