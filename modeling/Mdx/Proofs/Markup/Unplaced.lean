import Mdx.Proofs.Markup.Derivation
import Mdx.Proofs.Node.Unplaced

/-!
# The mapping to markup does not look at positions

A node's shape is told by its kind and its properties (`shapeOf_bare`), and its markup is assembled in
the same way with and without a position (`assemble_bare`).  So nodes without positions are mapped, in
whatever place, as the nodes are (`map_bare`), and a tree likewise (`ofExtended_bare`).
-/

namespace Mdx.Markup

open Mdx.Node

/-! ### One node -/

theorem headingTag_bare (h : NodeHead) :
    headingTag h.bare = seen Failure.unplaced id (headingTag h) := by
  rw [headingTag, headingTag, h.props_bare]
  cases ((h.props.lookup "depth").getD (.int 1)).toInteger with
  | error fault => exact congrArg Except.error (Failure.unplaced_ofInteger fault).symm
  | ok depth =>
    dsimp only
    split <;> rfl

theorem alignments_bare (h : NodeHead) :
    alignments h.bare = seen Failure.unplaced id (alignments h) := by
  show alignments h = _
  unfold alignments
  split
  · rfl
  · split
    · rfl
    · split <;> rfl

theorem shapeOf_bare (h : NodeHead) : shapeOf h.bare = seen Failure.unplaced id (shapeOf h) := by
  unfold shapeOf
  rw [h.kind_bare]
  split
  · rfl
  · split
    · rfl
    · -- only a heading and a table have something to read
      split <;> try rfl
      · exact seen_map (headingTag_bare h) fun _ => rfl
      · exact seen_map (alignments_bare h) fun _ => rfl

theorem textLeaf_bare (kind : String) (position : Option Position) (h : NodeHead) :
    textLeaf kind none h.bare = (textLeaf kind position h).bare := by
  rw [textLeaf, textLeaf, h.misfit?_bare]
  cases h.misfit? <;> rfl

theorem bareList_tableSections (rows : List Node) :
    tableSections (bareList rows) = bareList (tableSections rows) := by
  rcases rows with _ | ⟨first, _ | ⟨second, rest⟩⟩ <;> rfl

/-- The markup of a node is put together in the same way without positions. -/
theorem assemble_bare (h : NodeHead) (cs : List Node) (s : Shape) :
    assemble h.bare (bareList cs) s = (assemble h cs s).bare := by
  cases s with
  | text => exact textLeaf_bare h.kind h.position h
  | code =>
    show elementFor h.bare "pre" [] [Node.element "code" (codeProperties h.bare) none [_]] = _
    rw [textLeaf_bare "text" none h]
    rfl
  | table aligns =>
    show elementFor h.bare "table" [] (tableSections (bareList cs)) = _
    rw [bareList_tableSections]
    rfl
  | kept | image | wrapped _ _ | list _ _ _ | item _ | row => rfl

/-! ### Lists of nodes -/

theorem joined_bare {first first' rest rest' : Except Failure (List Node)}
    (hf : first' = seen Failure.unplaced bareList first)
    (hr : rest' = seen Failure.unplaced bareList rest) :
    joined first' rest' = seen Failure.unplaced bareList (joined first rest) := by
  subst hf hr
  cases first with
  | error e => rfl
  | ok xs =>
    cases rest with
    | error e => rfl
    | ok ys => exact congrArg Except.ok (bareList_append xs ys).symm

/-- The nodes are mapped in every place as they are without positions. -/
def BlindTo (cs : List Node) : Prop :=
  ∀ role : Role, role.map (bareList cs) = seen Failure.unplaced bareList (role.map cs)

section Cons

variable {n : Node} {rest : List Node}

theorem ofNode_bare (hc : BlindTo n.children) :
    ofNode n.bare = seen Failure.unplaced bare (ofNode n) := by
  have hshape : shapeOf n.bare.head = seen Failure.unplaced id (shapeOf n.head) := by
    rw [head_bare, shapeOf_bare]
  cases hs : shapeOf n.head with
  | error e =>
    rw [hs] at hshape
    rw [ofNode_error hs, ofNode_error hshape]
    rfl
  | ok s =>
    rw [hs] at hshape
    by_cases hk : s = .kept
    · subst hk
      rw [ofNode_kept hs, ofNode_kept hshape]
      rfl
    · have hcontents : contents n.bare.children s =
          seen Failure.unplaced bareList (contents n.children s) := by
        rw [children_bare]
        cases hrole : s.role? with
        | none =>
          rw [contents_of_role_none hrole, contents_of_role_none hrole]
          rfl
        | some role =>
          rw [contents_of_role hrole, contents_of_role hrole]
          exact hc role
      rw [ofNode_eq hs hk, ofNode_eq hshape hk, head_bare]
      exact seen_map hcontents fun ms => assemble_bare n.head ms s

theorem map_bare_cons_plain {role : Role} (hp : role.Plain n) (hc : BlindTo n.children)
    (hr : BlindTo rest) :
    role.map (bareList (n :: rest)) = seen Failure.unplaced bareList (role.map (n :: rest)) := by
  have hp' : role.Plain n.bare := by
    cases role with
    | nodes => trivial
    | items tight => exact fun hk => hp (kind_bare n ▸ hk)
    | contents tight => exact fun hk => hp (kind_bare n ▸ hk)
    | rows tag aligns => exact hp
    | cells tag aligns => exact hp
  rw [bareList_cons, Role.map_cons_plain hp, Role.map_cons_plain hp']
  exact joined_bare (seen_map (ofNode_bare hc) fun _ => rfl) (hr role)

theorem map_bare_cons (role : Role) (hc : BlindTo n.children) (hr : BlindTo rest) :
    role.map (bareList (n :: rest)) = seen Failure.unplaced bareList (role.map (n :: rest)) := by
  by_cases hp : role.Plain n
  · exact map_bare_cons_plain hp hc hr
  have hchildren (inner : Role) : inner.map n.bare.children =
      seen Failure.unplaced bareList (inner.map n.children) := by
    rw [children_bare]
    exact hc inner
  rw [bareList_cons]
  cases role with
  | nodes => exact absurd trivial hp
  | items tight =>
    have hk : n.kind = "listItem" := not_not.mp hp
    rw [map_cons_item hk, map_cons_item ((kind_bare n).trans hk), head_bare]
    exact joined_bare (seen_map (hchildren _) fun _ => rfl) (hr _)
  | contents tight =>
    obtain ⟨rfl, hk⟩ : tight = true ∧ n.kind = "paragraph" := not_not.mp hp
    rw [map_cons_paragraph hk, map_cons_paragraph ((kind_bare n).trans hk)]
    exact joined_bare (hchildren _) (hr _)
  | rows tag aligns =>
    rw [map_cons_row, map_cons_row, kind_bare, head_bare]
    refine joined_bare (seen_map (g := bare) ?_ fun _ => rfl) (hr _)
    split
    · exact seen_map (hchildren _) fun _ => rfl
    · rw [position_bare]
      rfl
  | cells tag aligns =>
    rw [map_cons_cell, map_cons_cell, kind_bare, head_bare]
    refine joined_bare (seen_map (g := bare) ?_ fun _ => rfl) (hr _)
    split
    · exact seen_map (hchildren _) fun _ => rfl
    · rw [position_bare]
      rfl

end Cons

/-- **Nodes are mapped without positions as they are with them.** -/
theorem map_bare (cs : List Node) : BlindTo cs := by
  induction hn : sizeOfList cs using Nat.strong_induction_on generalizing cs with
  | _ k ih =>
    subst hn
    intro role
    cases cs with
    | nil =>
      rw [bareList_nil, role.map_nil]
      rfl
    | cons n rest =>
      have hsize : sizeOfList (n :: rest) = 1 + sizeOfList n.children + sizeOfList rest := by
        rw [sizeOfList, size_eq]
      exact map_bare_cons role (ih _ (by omega) n.children rfl) (ih _ (by omega) rest rfl)

/-! ### Markup trees -/

theorem checked_bare {check check' : Except StructureError Unit}
    (h : check' = seen StructureError.unplaced id check) :
    checked check' = seen Failure.unplaced id (checked check) := by
  subst h
  cases check <;> rfl

/-- **Positions do not matter to the markup tree.** -/
theorem ofExtended_bare (tree : Node) :
    ofExtended tree.bare = seen Failure.unplaced bare (ofExtended tree) := by
  have hnodes : ofNodes tree.bare.children = seen Failure.unplaced bareList (ofNodes tree.children) := by
    rw [children_bare]
    exact map_bare tree.children .nodes
  unfold ofExtended
  refine seen_bind (checked_bare (validate_bare tree _ _)) fun _ _ => ?_
  refine seen_bind hnodes fun children _ => ?_
  rw [position_bare, props_bare]
  have hroot := validate_bare
    (.branch { kind := "root", position := tree.position, props := tree.props } children)
    Vocabulary.markup "stage2"
  refine seen_bind (checked_bare hroot) fun _ _ => ?_
  rfl

end Mdx.Markup
