import Mdx.Proofs.Markup.Mapping

/-!
# The mapping as a relation

The functions that map nodes to markup differ in what the nodes are to their parent: nodes of no
special place, the children of a list, of an item, of a table or of a row.  `Role` names these places,
and `Maps role cs ms` says that in such a place the nodes `cs` become `ms`.  There is one rule for each
thing that may happen to the first node, so a fact on all markup is one induction on `Maps`, whatever
the nesting of lists, tables and the rest.

`map_eq_ok_iff` says that the relation is the mapping.
-/

namespace Mdx.Markup

open Mdx.Node (sizeOfList size_eq)

/-- What nodes are to their parent. -/
inductive Role where
  /-- Nodes of no special place. -/
  | nodes
  /-- The children of a list. -/
  | items (tight : Bool)
  /-- The children of an item. -/
  | contents (tight : Bool)
  /-- The children of a table; the cells of the first one have the given tag. -/
  | rows (tag : String) (aligns : List Json)
  /-- The children of a row. -/
  | cells (tag : String) (aligns : List Json)

/-- The markup of nodes in their place. -/
def Role.map : Role → List Node → Except Failure (List Node)
  | nodes => ofNodes
  | items tight => ofItems tight
  | contents tight => ofContents tight
  | rows tag aligns => ofRows tag aligns
  | cells tag aligns => ofCells tag aligns

/-- Whether a node in this place is mapped as it would be anywhere. -/
def Role.Plain (n : Node) : Role → Prop
  | nodes => True
  | items _ => n.kind ≠ "listItem"
  | contents tight => ¬(tight = true ∧ n.kind = "paragraph")
  | rows _ _ => False
  | cells _ _ => False

/-- The place of the children of a node with this shape, if they are looked at. -/
def Shape.role? : Shape → Option Role
  | kept | text | code | image => none
  | wrapped _ _ => some .nodes
  | list _ _ tight => some (.items tight)
  | item tight => some (.contents tight)
  | table aligns => some (.rows "th" aligns)
  | row => some (.cells "td" [])

/-- In their place, the nodes of the first list become those of the second. -/
inductive Maps : Role → List Node → List Node → Prop
  | nil {role : Role} : Maps role [] []
  | kept {role : Role} {n : Node} {rest ms : List Node} (hp : role.Plain n)
      (hs : shapeOf n.head = .ok .kept) (hr : Maps role rest ms) : Maps role (n :: rest) (n :: ms)
  | leaf {role : Role} {n : Node} {s : Shape} {rest ms : List Node} (hp : role.Plain n)
      (hs : shapeOf n.head = .ok s) (hk : s ≠ .kept) (hn : s.role? = none)
      (hr : Maps role rest ms) : Maps role (n :: rest) (assemble n.head [] s :: ms)
  | node {role inner : Role} {n : Node} {s : Shape} {rest cs ms : List Node} (hp : role.Plain n)
      (hs : shapeOf n.head = .ok s) (hn : s.role? = some inner) (hc : Maps inner n.children cs)
      (hr : Maps role rest ms) : Maps role (n :: rest) (assemble n.head cs s :: ms)
  | item {tight : Bool} {n : Node} {rest cs ms : List Node} (hk : n.kind = "listItem")
      (hc : Maps (.contents tight) n.children cs) (hr : Maps (.items tight) rest ms) :
      Maps (.items tight) (n :: rest) (elementFor n.head "li" [] cs :: ms)
  | paragraph {n : Node} {rest cs ms : List Node} (hk : n.kind = "paragraph")
      (hc : Maps .nodes n.children cs) (hr : Maps (.contents true) rest ms) :
      Maps (.contents true) (n :: rest) (cs ++ ms)
  | row {tag : String} {aligns : List Json} {n : Node} {rest cs ms : List Node}
      (hk : n.kind = "tableRow") (hc : Maps (.cells tag aligns) n.children cs)
      (hr : Maps (.rows "td" aligns) rest ms) :
      Maps (.rows tag aligns) (n :: rest) (elementFor n.head "tr" [] cs :: ms)
  | cell {tag : String} {aligns : List Json} {n : Node} {rest cs ms : List Node}
      (hk : n.kind = "tableCell") (hc : Maps .nodes n.children cs)
      (hr : Maps (.cells tag aligns.tail) rest ms) :
      Maps (.cells tag aligns) (n :: rest) (elementFor n.head tag (cellProperties aligns) cs :: ms)

/-! ### The first node -/

theorem Role.map_nil (role : Role) : role.map [] = .ok [] := by
  cases role with
  | nodes => exact ofNodes.eq_1
  | items tight => exact ofItems.eq_1 tight
  | contents tight => exact ofContents.eq_1 tight
  | rows tag aligns => exact ofRows.eq_1 tag aligns
  | cells tag aligns => exact ofCells.eq_1 tag aligns

theorem contents_of_role_none {s : Shape} (hn : s.role? = none) (cs : List Node) :
    contents cs s = .ok [] := by
  cases s with
  | kept | text | code | image => rfl
  | wrapped _ _ | list _ _ _ | item _ | table _ | row => cases hn

theorem contents_of_role {s : Shape} {role : Role} (hn : s.role? = some role) (cs : List Node) :
    contents cs s = role.map cs := by
  cases s with
  | kept | text | code | image => cases hn
  | wrapped _ _ | list _ _ _ | item _ | table _ | row => cases hn; rfl

theorem ne_kept_of_role {s : Shape} {role : Role} (hn : s.role? = some role) : s ≠ .kept := by
  rintro rfl
  cases hn

/-- A node that is mapped as anywhere is followed by the markup of the rest. -/
theorem Role.map_cons_plain {role : Role} {n : Node} (hp : role.Plain n) (rest : List Node) :
    role.map (n :: rest) = joined ((ofNode n).map ([·])) (role.map rest) := by
  cases role with
  | nodes => exact ofNodes.eq_2 n rest
  | items tight =>
    show ofItems tight (n :: rest) = _
    rw [ofItems_cons, ofItem, if_neg hp]
    rfl
  | contents tight =>
    show ofContents tight (n :: rest) = _
    rw [ofContents_cons, ofContent, if_neg (by simpa [Role.Plain] using hp)]
    rfl
  | rows tag aligns => exact absurd hp id
  | cells tag aligns => exact absurd hp id

section Step

variable {n : Node} {rest : List Node}

theorem map_cons_item {tight : Bool} (hk : n.kind = "listItem") :
    (Role.items tight).map (n :: rest) =
      joined (((Role.contents tight).map n.children).map fun cs => [elementFor n.head "li" [] cs])
        ((Role.items tight).map rest) := by
  show ofItems tight (n :: rest) = _
  rw [ofItems_cons, ofItem, if_pos hk]
  rfl

theorem map_cons_paragraph (hk : n.kind = "paragraph") :
    (Role.contents true).map (n :: rest) =
      joined (Role.nodes.map n.children) ((Role.contents true).map rest) := by
  show ofContents true (n :: rest) = _
  rw [ofContents_cons, ofContent, if_pos (by simp [hk])]
  rfl

theorem map_cons_row (tag : String) (aligns : List Json) :
    (Role.rows tag aligns).map (n :: rest) =
      joined ((if n.kind = "tableRow" then
          ((Role.cells tag aligns).map n.children).map (elementFor n.head "tr" [])
        else .error (.structural ⟨.rowExpected n.kind, n.position⟩)).map ([·]))
        ((Role.rows "td" aligns).map rest) := by
  show ofRows tag aligns (n :: rest) = _
  rw [ofRows, ofRow_eq]
  rfl

theorem map_cons_cell (tag : String) (aligns : List Json) :
    (Role.cells tag aligns).map (n :: rest) =
      joined ((if n.kind = "tableCell" then
          (Role.nodes.map n.children).map (elementFor n.head tag (cellProperties aligns))
        else .error (.structural ⟨.cellExpected n.kind, n.position⟩)).map ([·]))
        ((Role.cells tag aligns.tail).map rest) := by
  show ofCells tag aligns (n :: rest) = _
  rw [ofCells, ofCell_eq]
  rfl

end Step

/-! ### The relation is the mapping -/

theorem Maps.map_eq {role : Role} {cs ms : List Node} (h : Maps role cs ms) :
    role.map cs = .ok ms := by
  induction h with
  | nil => exact Role.map_nil _
  | kept hp hs hr ih =>
    rw [Role.map_cons_plain hp, ofNode_kept hs, ih]
    rfl
  | leaf hp hs hk hn hr ih =>
    rw [Role.map_cons_plain hp, ofNode_eq hs hk, contents_of_role_none hn, ih]
    rfl
  | node hp hs hn hc hr ihc ihr =>
    rw [Role.map_cons_plain hp, ofNode_eq hs (ne_kept_of_role hn), contents_of_role hn, ihc, ihr]
    rfl
  | item hk hc hr ihc ihr =>
    rw [map_cons_item hk, ihc, ihr]
    rfl
  | paragraph hk hc hr ihc ihr =>
    rw [map_cons_paragraph hk, ihc, ihr]
    rfl
  | row hk hc hr ihc ihr =>
    rw [map_cons_row, if_pos hk, ihc, ihr]
    rfl
  | cell hk hc hr ihc ihr =>
    rw [map_cons_cell, if_pos hk, ihc, ihr]
    rfl

section OfMap

variable {n : Node} {rest : List Node}

/-- What the induction over trees gives for some nodes, in every place. -/
def Known (cs : List Node) : Prop :=
  ∀ (role : Role) (ms : List Node), role.map cs = .ok ms → Maps role cs ms

theorem maps_cons_plain {role : Role} {ms : List Node} (hp : role.Plain n) (hc : Known n.children)
    (hr : Known rest) (h : role.map (n :: rest) = .ok ms) : Maps role (n :: rest) ms := by
  rw [Role.map_cons_plain hp] at h
  obtain ⟨xs, ys, hxs, hys, rfl⟩ := joined_eq_ok_iff.mp h
  obtain ⟨m, hm, rfl⟩ := exists_ok_of_map hxs
  have hrest := hr role ys hys
  cases hs : shapeOf n.head with
  | error e =>
    rw [ofNode_error hs] at hm
    cases hm
  | ok s =>
    by_cases hk : s = .kept
    · subst hk
      rw [ofNode_kept hs] at hm
      cases hm
      exact .kept hp hs hrest
    · rw [ofNode_eq hs hk] at hm
      obtain ⟨cs, hcs, rfl⟩ := exists_ok_of_map hm
      cases hn : s.role? with
      | none =>
        rw [contents_of_role_none hn] at hcs
        cases hcs
        exact .leaf hp hs hk hn hrest
      | some inner =>
        rw [contents_of_role hn] at hcs
        exact .node hp hs hn (hc inner cs hcs) hrest

theorem maps_cons {role : Role} {ms : List Node} (hc : Known n.children) (hr : Known rest)
    (h : role.map (n :: rest) = .ok ms) : Maps role (n :: rest) ms := by
  by_cases hp : role.Plain n
  · exact maps_cons_plain hp hc hr h
  cases role with
  | nodes => exact absurd trivial hp
  | items tight =>
    have hk : n.kind = "listItem" := not_not.mp hp
    rw [map_cons_item hk] at h
    obtain ⟨xs, ys, hxs, hys, rfl⟩ := joined_eq_ok_iff.mp h
    obtain ⟨cs, hcs, rfl⟩ := exists_ok_of_map hxs
    exact .item hk (hc _ cs hcs) (hr _ ys hys)
  | contents tight =>
    obtain ⟨rfl, hk⟩ : tight = true ∧ n.kind = "paragraph" := not_not.mp hp
    rw [map_cons_paragraph hk] at h
    obtain ⟨xs, ys, hxs, hys, rfl⟩ := joined_eq_ok_iff.mp h
    exact .paragraph hk (hc _ xs hxs) (hr _ ys hys)
  | rows tag aligns =>
    rw [map_cons_row] at h
    obtain ⟨xs, ys, hxs, hys, rfl⟩ := joined_eq_ok_iff.mp h
    obtain ⟨m, hm, rfl⟩ := exists_ok_of_map hxs
    split at hm
    next hk =>
      obtain ⟨cs, hcs, rfl⟩ := exists_ok_of_map hm
      exact .row hk (hc _ cs hcs) (hr _ ys hys)
    · cases hm
  | cells tag aligns =>
    rw [map_cons_cell] at h
    obtain ⟨xs, ys, hxs, hys, rfl⟩ := joined_eq_ok_iff.mp h
    obtain ⟨m, hm, rfl⟩ := exists_ok_of_map hxs
    split at hm
    next hk =>
      obtain ⟨cs, hcs, rfl⟩ := exists_ok_of_map hm
      exact .cell hk (hc _ cs hcs) (hr _ ys hys)
    · cases hm

end OfMap

/-- Every list of nodes maps by the rules: the children of a node and the nodes after it are
smaller lists. -/
theorem known (cs : List Node) : Known cs := by
  induction hn : sizeOfList cs using Nat.strong_induction_on generalizing cs with
  | _ k ih =>
    subst hn
    cases cs with
    | nil =>
      intro role ms h
      rw [role.map_nil] at h
      cases h
      exact .nil
    | cons n rest =>
      have hsize : sizeOfList (n :: rest) = 1 + sizeOfList n.children + sizeOfList rest := by
        rw [sizeOfList, size_eq]
      intro role ms h
      exact maps_cons (ih _ (by omega) n.children rfl) (ih _ (by omega) rest rfl) h

/-- **The relation is the mapping.** -/
theorem map_eq_ok_iff {role : Role} {cs ms : List Node} :
    role.map cs = .ok ms ↔ Maps role cs ms :=
  ⟨known cs role ms, Maps.map_eq⟩

end Mdx.Markup
