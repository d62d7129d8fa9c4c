import Mdx.Proofs.Module.Renderable
import Mdx.Proofs.Node.Unplaced

/-!
# Modules without positions

The code of a module does not depend on positions (`generate_bare`).  They are put into failures, and
nothing else reads them: neither the sorting of the top-level nodes (`partsFrom_bare`) nor rendering
(`render_bare`).
-/

namespace Mdx.Module

open Node

/-! ### One node -/

theorem tagName_bare (h : NodeHead) : tagName h.bare = seen Failure.unplaced id (tagName h) := by
  unfold tagName
  rw [h.props_bare]
  cases h.props.lookup "tagName" with
  | none => rfl
  | some tag =>
    dsimp only
    split <;> rfl

theorem tagIn_unplaced (tags : List String) (tag : Json) :
    tagIn tags tag = seen Failure.unplaced id (tagIn tags tag) := by
  cases tag <;> rfl

theorem renderEmpty_bare (parent : Option String) (h : NodeHead) :
    renderEmpty parent h.bare = seen Failure.unplaced id (renderEmpty parent h) := by
  refine seen_bind (tagName_bare h) fun tag _ => ?_
  refine seen_bind (tagIn_unplaced voidTags tag) fun void _ => ?_
  cases void <;> rfl

theorem renderPlain_bare (parent : Option String) (h : NodeHead) :
    renderPlain parent h.bare = seen Failure.unplaced id (renderPlain parent h) := by
  unfold renderPlain
  rw [h.kind_bare]
  split <;> rfl

theorem anyBlock_bare (ns : List Node) :
    anyBlock (bareList ns) = seen Failure.unplaced id (anyBlock ns) := by
  induction ns with
  | nil => rfl
  | cons n rest ih =>
    have hprop : n.bare.prop? "tagName" = n.prop? "tagName" := by cases n <;> rfl
    have htag := tagIn_unplaced blockTags ((n.prop? "tagName").getD .null)
    rw [bareList_cons, anyBlock, anyBlock, kind_bare, hprop]
    split
    · cases hin : tagIn blockTags ((n.prop? "tagName").getD .null) with
      | error e =>
        rw [hin] at htag
        exact congrArg Except.error (Except.error.inj htag)
      | ok block =>
        cases block with
        | true => rfl
        | false => exact ih
    · exact ih

/-! ### All nodes -/

mutual

/-- **A node is rendered without its positions as it is with them.** -/
theorem render_bare (parent : Option String) :
    ∀ n : Node, render parent n.bare = seen Failure.unplaced id (render parent n)
  | .leaf h => by
    rw [bare_leaf, render, render, h.kind_bare]
    split
    · exact renderEmpty_bare parent h
    · exact renderPlain_bare parent h
  | .branch h cs => by
    have hnil : (bareList cs).isEmpty = cs.isEmpty := by cases cs <;> rfl
    show render parent (.branch h.bare (bareList cs)) = _
    rw [render, render, hnil, h.kind_bare]
    split
    · split
      · exact renderEmpty_bare parent h
      · refine seen_bind (tagName_bare h) fun tag _ => ?_
        refine seen_bind (renderList_bare (some tag.plain) cs) fun rendered _ => ?_
        exact seen_bind (anyBlock_bare cs) fun block _ => rfl
    · exact renderPlain_bare parent h

theorem renderList_bare (parent : Option String) :
    ∀ ns : List Node, renderList parent (bareList ns) = seen Failure.unplaced id (renderList parent ns)
  | [] => rfl
  | n :: rest => by
    rw [bareList_cons, renderList, renderList]
    refine seen_bind (render_bare parent n) fun first _ => ?_
    exact seen_bind (renderList_bare parent rest) fun others _ => rfl

end

/-! ### Documents -/

/-- The parts with nodes that have no positions. -/
def Parts.bare (p : Parts) : Parts :=
  { p with body := bareList p.body }

theorem partsFrom_bare (ns : List Node) : ∀ layout : Option String,
    partsFrom layout (bareList ns) = seen Failure.unplaced Parts.bare (partsFrom layout ns) := by
  induction ns with
  | nil => exact fun _ => rfl
  | cons n rest ih =>
    intro layout
    have htext : n.bare.text = n.text := by cases n <;> rfl
    rw [bareList_cons, partsFrom.eq_def layout (n.bare :: _), partsFrom.eq_def layout (n :: _)]
    dsimp only
    rw [kind_bare, htext]
    split
    · exact seen_bind (ih layout) fun _ _ => rfl
    · split
      · exact seen_bind (ih _) fun _ _ => rfl
      · rfl
      · exact ih _
    · exact seen_bind (ih layout) fun _ _ => rfl

/-- **Positions do not matter to the code of a module.** -/
theorem generate_bare (runtime : Option String) (tree : Node) :
    generate runtime tree.bare = seen Failure.unplaced id (generate runtime tree) := by
  by_cases hroot : tree.kind = "root"
  · rw [generate_eq runtime hroot, generate_eq runtime ((kind_bare tree).trans hroot), children_bare]
    refine seen_bind (partsFrom_bare tree.children none) fun parts _ => ?_
    exact seen_bind (renderList_bare none parts.body) fun rendered _ => rfl
  · unfold generate
    rw [kind_bare, if_pos hroot, if_pos hroot]
    rfl

end Mdx.Module
