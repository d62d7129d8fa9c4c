import Mathlib.Data.List.Forall2
import Mdx.Proofs.Fault.Result
import Mdx.Proofs.Generic.Lines
import Mdx.Proofs.Markdown.BlockLines
import Mdx.Proofs.Node.Order

/-!
# The shape of a document's tree

The nodes of a piece of syntax depend on the document's text in their positions only.  From one list of
pieces with counted lines, trees are made for two texts, or for neither of them, and the trees are the
same but for the positions (`alike_blocks`).
-/

namespace Mdx.Generic

open Mdx.Markdown
open Mdx.Node (bareList bareList_cons bare_branch)

variable {text text' : List Char}

/-! ### Positions -/

theorem exists_blockPosition (text : List Char) {h : SyntaxHead} (hl : h.IsCounted) :
    ∃ position : Option Position, blockPosition (.ofText text) h = .ok position := by
  unfold blockPosition
  split
  · exact ⟨none, rfl⟩
  next lines hlines =>
    obtain ⟨p, hp, -⟩ := exists_linesPosition? text (hl lines hlines)
    rw [hp]
    exact ⟨some p, rfl⟩

/-! ### Blocks -/

/-- Two nodes of one piece: they are the same but for their positions, which are those of the piece. -/
structure SamePiece (text text' : List Char) (h : SyntaxHead) (n n' : Node) : Prop where
  shape : n.bare = n'.bare
  position : blockPosition (.ofText text) h = .ok n.position
  position' : blockPosition (.ofText text') h = .ok n'.position

theorem bareList_eq_of_samePiece {pieces : List Syntax} {ns ns' : List Node}
    (h : List.Forall₂ (fun n n' => ∃ s ∈ pieces, SamePiece text text' s.head n n') ns ns') :
    bareList ns = bareList ns' := by
  induction h with
  | nil => rfl
  | cons hn _ ih =>
    obtain ⟨s, -, hsame⟩ := hn
    rw [bareList_cons, bareList_cons, hsame.shape, ih]

theorem alike_rowNodes {pieces : List Syntax}
    (hl : ∀ s ∈ pieces, s.head.IsCounted) :
    Alike (fun ns ns' => bareList ns = bareList ns') (rowNodes (.ofText text) pieces)
      (rowNodes (.ofText text') pieces) := by
  induction pieces with
  | nil => exact .ok rfl
  | cons s rest ih =>
    obtain ⟨hs, hrest⟩ := List.forall_mem_cons.mp hl
    rw [rowNodes, rowNodes]
    refine (Alike.refl (cellNodes s.children) fun cells => rfl).bind fun cells cells' hcells => ?_
    obtain ⟨p, hp⟩ := exists_blockPosition text hs
    obtain ⟨p', hp'⟩ := exists_blockPosition text' hs
    rw [hp, hp']
    refine (ih hrest).bind fun ns ns' hns => .ok ?_
    rw [bareList_cons, bareList_cons, hns, bare_branch, bare_branch, hcells]

theorem alike_leafBlock
    {position position' : Option Position} {h : SyntaxHead} {cs : List Syntax}
    (hrows : h.kind = "table" → ∀ s ∈ cs.flatMap Syntax.children, s.head.IsCounted) :
    Alike (fun n n' => n.bare = n'.bare ∧ n.position = position ∧ n'.position = position')
      (leafBlock (.ofText text) position h cs) (leafBlock (.ofText text') position' h cs) := by
  unfold leafBlock
  split
  · refine (Alike.refl (inlineContent cs) fun children => rfl).bind fun children _ hc => ?_
    subst hc
    exact .ok ⟨rfl, rfl, rfl⟩
  · refine (Alike.refl (inlineContent cs) fun children => rfl).bind fun children _ hc => ?_
    refine (Alike.refl (headingDepth h.tag) fun depth => rfl).bind fun depth _ hd => ?_
    subst hc hd
    exact .ok ⟨rfl, rfl, rfl⟩
  · exact .ok ⟨rfl, rfl, rfl⟩
  · exact .ok ⟨rfl, rfl, rfl⟩
  · exact .ok ⟨rfl, rfl, rfl⟩
  · exact .ok ⟨rfl, rfl, rfl⟩
  next hk =>
    refine (alike_rowNodes (hrows hk)).bind fun rows rows' hrows => .ok ⟨?_, rfl, rfl⟩
    rw [bare_branch, bare_branch, hrows]
  · exact .error

theorem alike_listNode {position position' : Option Position} {h : SyntaxHead} {tight : Bool}
    {items items' : List Node} (hitems : bareList items = bareList items') :
    Alike (fun n n' => n.bare = n'.bare ∧ n.position = position ∧ n'.position = position')
      (listNode position h tight items) (listNode position' h tight items') := by
  refine (Alike.refl (listStart h) fun start => rfl).bind fun start _ hs => .ok ⟨?_, rfl, rfl⟩
  subst hs
  rw [bare_branch, bare_branch, hitems]

theorem block_text (text : List Char) {h : SyntaxHead} (cs : List Syntax) (hk : h.kind = "inline") :
    ∃ e : Failure, block (.ofText text) (.node h cs) = .error e := by
  rw [block]
  split
  next e he => exact ⟨e, rfl⟩
  next position hposition =>
    rw [if_neg (by rw [hk]; decide), if_neg (by rw [hk]; decide), leafBlock, hk]
    exact ⟨_, rfl⟩

theorem ne_text_of_holds {h : SyntaxHead} {cs : List Syntax} {kind : String} (hk : h.kind = kind)
    (hkind : kind ∉ textHolders) (hholds : h.kind ∈ textHolders ∨ ∀ c ∈ cs, c.kind ≠ "inline") :
    ∀ c ∈ cs, c.kind ≠ "inline" :=
  hholds.resolve_left (hk ▸ hkind)

mutual

theorem alike_block : ∀ (s : Syntax),
    Counted s → Alike (SamePiece text text' s.head) (block (.ofText text) s) (block (.ofText text') s)
  | .node h cs, hs => by
    cases hs with
    | text hk hl =>
      obtain ⟨e, he⟩ := block_text text cs hk
      obtain ⟨e', he'⟩ := block_text text' cs hk
      rw [he, he']
      exact .error
    | block hl hcs hholds =>
      obtain ⟨p, hp⟩ := exists_blockPosition text hl
      obtain ⟨p', hp'⟩ := exists_blockPosition text' hl
      rw [block, block, hp, hp']
      dsimp only
      split
      · rcases alike_blocks cs hcs with ⟨ns, ns', hns, hns', hall⟩ | ⟨e, e', he, he'⟩
        · rw [hns, hns']
          refine .ok ⟨?_, hp, hp'⟩
          rw [bare_branch, bare_branch, bareList_eq_of_samePiece hall]
        · rw [he, he']
          exact .error
      · split
        next hlist =>
          have hitems : ∀ c ∈ cs, Counted c ∧ c.kind ≠ "inline" := by
            have hne : ∀ c ∈ cs, c.kind ≠ "inline" := by
              rcases Bool.or_eq_true_iff.mp hlist with hk | hk
              · exact ne_text_of_holds (of_decide_eq_true hk) (by decide) hholds
              · exact ne_text_of_holds (of_decide_eq_true hk) (by decide) hholds
            exact fun c hc => ⟨hcs c hc, hne c hc⟩
          rcases alike_items (isTightList cs) cs hitems with
            ⟨ns, ns', hns, hns', hall⟩ | ⟨e, e', he, he'⟩
          · rw [hns, hns']
            refine (alike_listNode hall).mono ?_
            rintro n n' ⟨hshape, rfl, rfl⟩
            exact ⟨hshape, hp, hp'⟩
          · rw [he, he']
            exact .error
        · have hrows : h.kind = "table" → ∀ s ∈ cs.flatMap Syntax.children, s.head.IsCounted := by
            intro hk s hs
            obtain ⟨c, hc, hs⟩ := List.mem_flatMap.mp hs
            have hne := ne_text_of_holds hk (by decide) hholds c hc
            exact ((hcs c hc).children hne s hs).head
          refine (alike_leafBlock hrows).mono ?_
          rintro n n' ⟨hshape, rfl, rfl⟩
          exact ⟨hshape, hp, hp'⟩

/-- **The nodes of blocks for two texts** are the same but for their positions. -/
theorem alike_blocks :
    ∀ (pieces : List Syntax), (∀ s ∈ pieces, Counted s) →
      Alike (List.Forall₂ fun n n' => ∃ s ∈ pieces, SamePiece text text' s.head n n')
        (blocks (.ofText text) pieces) (blocks (.ofText text') pieces)
  | [], _ => by
    rw [blocks, blocks]
    exact .ok .nil
  | s :: rest, hl => by
    obtain ⟨hs, hrest⟩ := List.forall_mem_cons.mp hl
    rw [blocks, blocks]
    rcases alike_block s hs with ⟨n, n', hn, hn', hsame⟩ | ⟨e, e', he, he'⟩
    · rw [hn, hn']
      rcases alike_blocks rest hrest with ⟨ns, ns', hns, hns', hall⟩ | ⟨e, e', he, he'⟩
      · rw [hns, hns']
        refine .ok (.cons ⟨s, List.mem_cons_self, hsame⟩ (hall.imp ?_))
        rintro m m' ⟨t, ht, hsame⟩
        exact ⟨t, List.mem_cons_of_mem s ht, hsame⟩
      · rw [he, he']
        exact .error
    · rw [he, he']
      exact .error

theorem alike_items (tight : Bool) :
    ∀ (pieces : List Syntax), (∀ s ∈ pieces, Counted s ∧ s.kind ≠ "inline") →
      Alike (fun ns ns' => bareList ns = bareList ns') (items (.ofText text) tight pieces)
        (items (.ofText text') tight pieces)
  | [], _ => by
    rw [items, items]
    exact .ok rfl
  | .node h cs :: rest, hl => by
    obtain ⟨⟨hs, hk⟩, hrest⟩ := List.forall_mem_cons.mp hl
    obtain ⟨p, hp⟩ := exists_blockPosition text hs.head
    obtain ⟨p', hp'⟩ := exists_blockPosition text' hs.head
    have hp : blockPosition (.ofText text) h = .ok p := hp
    have hp' : blockPosition (.ofText text') h = .ok p' := hp'
    rw [items, items, hp, hp']
    rcases alike_blocks cs (hs.children hk) with
      ⟨ns, ns', hns, hns', hall⟩ | ⟨e, e', he, he'⟩
    · rw [hns, hns']
      rcases alike_items tight rest hrest with ⟨ms, ms', hms, hms', hsame⟩ | ⟨e, e', he, he'⟩
      · rw [hms, hms']
        refine .ok ?_
        rw [bareList_cons, bareList_cons, bare_branch, bare_branch, bareList_eq_of_samePiece hall,
          hsame]
      · rw [he, he']
        exact .error
    · rw [he, he']
      exact .error

end

end Mdx.Generic
