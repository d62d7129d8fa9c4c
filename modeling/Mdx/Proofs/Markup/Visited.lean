import Mdx.Proofs.Markup.Derivation
import Mdx.Proofs.Node.Reach

/-!
# What the mapping visits

The mapping goes down a tree and stops at texts, code, images and the nodes that it keeps whole.  If it
succeeds, all nodes that it visits are regular (`regular_of_isOk`).  If it fails, the failure is due to
one of them, which has no shape or has a child that does not belong there (`blames_of_map`).
-/

namespace Mdx.Markup

open Mdx.Node (Reaches forall_reaches_iff sizeOfList size_eq)

/-! ### Visited nodes -/

/-- The kinds of nodes below which the mapping does not look. -/
def closedKinds : List String :=
  ["text", "inlineCode", "code", "image"] ++ Vocabulary.special

/-- The mapping comes from the first node to the second. -/
def Visited (n x : Node) : Prop :=
  Reaches (fun m => m.kind ∉ closedKinds) n x

theorem descends_iff {h : NodeHead} {s : Shape} (hs : shapeOf h = .ok s) :
    s.descends = true ↔ h.kind ∉ closedKinds := by
  have hf := fits_of_shapeOf hs
  have hspecial : ∀ kind ∈ Vocabulary.special, kind ∈ closedKinds := by decide
  have hwrapped : ∀ kind ∈ wrappedKinds, kind ∉ closedKinds := by decide
  cases s with
  | kept => simpa [Shape.descends] using hspecial h.kind hf
  | text =>
    have hk : h.kind ∈ closedKinds := by rcases hf with hk | hk <;> rw [hk] <;> decide
    simpa [Shape.descends] using hk
  | wrapped tag properties => simpa [Shape.descends] using hwrapped h.kind hf.1
  | list tag properties tight =>
    rw [hf.1]
    exact ⟨fun _ => by decide, fun _ => rfl⟩
  | item tight | table aligns | row =>
    rw [show h.kind = _ from hf]
    exact ⟨fun _ => by decide, fun _ => rfl⟩
  | code | image =>
    rw [show h.kind = _ from hf]
    refine ⟨fun hd => ?_, fun hno => absurd (by decide) hno⟩
    cases hd

theorem kind_open_of_role {h : NodeHead} {s : Shape} {role : Role} (hs : shapeOf h = .ok s)
    (hn : s.role? = some role) : h.kind ∉ closedKinds := by
  refine (descends_iff hs).mp ?_
  cases s with
  | kept | text | code | image => cases hn
  | wrapped _ _ | list _ _ _ | item _ | table _ | row => rfl

/-- If a node maps, all nodes that are visited from it are regular, and none is raw markup. -/
theorem regular_of_isOk {n : Node} (h : (ofNode n).isOk = true) :
    ∀ x : Node, Visited n x → Regular x ∧ x.kind ≠ "html" := by
  induction n using Node.induction with
  | step n ih =>
    obtain ⟨s, hs, hchildren⟩ := isOk_ofNode_iff.mp h
    have hne : n.kind ≠ "html" := by
      intro hk
      have hmem : n.kind ∈ Vocabulary.extended := kind_mem_extended hs
      rw [hk] at hmem
      exact absurd hmem (by decide)
    refine forall_reaches_iff.mpr ⟨⟨⟨.inr ⟨s, hs⟩, fun c hc => ?_⟩, hne⟩, fun hopen c hc => ?_⟩
    · by_cases hclosed : n.kind ∈ closedKinds
      · have hnone : ∀ kind ∈ closedKinds, childKind? kind = none := by decide
        rw [admits, hnone n.kind hclosed]
        rfl
      · exact (hchildren ((descends_iff hs).mpr hclosed) c hc).1
    · exact ih c hc (hchildren ((descends_iff hs).mpr hopen) c hc).2

/-! ### What a failure is due to -/

/-- The failure is due to the node: it has no shape, or it has a child that does not belong there. -/
inductive AtFault (n : Node) : Failure → Prop
  | shape {f : Failure} (hs : shapeOf n.head = .error f) : AtFault n f
  | child {c : Node} {e : StructureError} (hc : c ∈ n.children) (hno : admits n.kind c = false) :
      AtFault n (.structural e)

/-- Whether a node may stand in a place. -/
def Role.admits (c : Node) : Role → Bool
  | rows _ _ => c.kind == "tableRow"
  | cells _ _ => c.kind == "tableCell"
  | nodes | items _ | contents _ => true

/-- The failure is due to a node that does not belong in this place, or to one that is visited. -/
def Blames (role : Role) (cs : List Node) (f : Failure) : Prop :=
  (∃ c ∈ cs, role.admits c = false ∧ ∃ e : StructureError, f = .structural e) ∨
    ∃ c ∈ cs, ∃ x : Node, Visited c x ∧ AtFault x f

theorem admits_of_role {h : NodeHead} {s : Shape} {role : Role} (hs : shapeOf h = .ok s)
    (hn : s.role? = some role) (c : Node) : role.admits c = admits h.kind c := by
  have hf := fits_of_shapeOf hs
  cases s with
  | kept | text | code | image => cases hn
  | wrapped tag properties =>
    have hall : ∀ kind ∈ wrappedKinds, childKind? kind = none := by decide
    cases hn
    rw [admits, hall h.kind hf.1]
    rfl
  | list tag properties tight =>
    cases hn
    rw [hf.1]
    rfl
  | item tight | table aligns | row =>
    cases hn
    rw [show h.kind = _ from hf]
    rfl

theorem error_of_joined {first rest : Except Failure (List Node)} {f : Failure}
    (h : joined first rest = .error f) : first = .error f ∨ rest = .error f := by
  cases first with
  | error e => exact .inl h
  | ok xs =>
    cases rest with
    | error e => exact .inr h
    | ok ys => cases h

section Blames

variable {role inner : Role} {f : Failure} {n : Node} {rest : List Node}

/-- What is due to a node's children is due to the node or to one that is visited from it. -/
theorem Blames.parent (hk : n.kind ∉ closedKinds) (ha : ∀ c : Node, inner.admits c = admits n.kind c)
    (h : Blames inner n.children f) : ∃ x : Node, Visited n x ∧ AtFault x f := by
  rcases h with ⟨c, hc, hno, e, rfl⟩ | ⟨c, hc, x, hx, hfault⟩
  · exact ⟨n, .here n, .child hc ((ha c).symm.trans hno)⟩
  · exact ⟨x, .down hk hc hx, hfault⟩

theorem Blames.head (h : ∃ x : Node, Visited n x ∧ AtFault x f) : Blames role (n :: rest) f :=
  .inr ⟨n, List.mem_cons_self, h⟩

theorem Blames.misplaced {e : StructureError} (h : role.admits n = false) :
    Blames role (n :: rest) (.structural e) :=
  .inl ⟨n, List.mem_cons_self, h, e, rfl⟩

theorem Blames.tail (ha : ∀ c : Node, inner.admits c = role.admits c) (h : Blames inner rest f) :
    Blames role (n :: rest) f := by
  rcases h with ⟨c, hc, hno, he⟩ | ⟨c, hc, hx⟩
  · exact .inl ⟨c, List.mem_cons_of_mem n hc, (ha c).symm.trans hno, he⟩
  · exact .inr ⟨c, List.mem_cons_of_mem n hc, hx⟩

/-- A node that is mapped as anywhere fails with its shape, or through its children. -/
theorem atFault_of_ofNode
    (hc : ∀ inner : Role, inner.map n.children = .error f → Blames inner n.children f)
    (h : ofNode n = .error f) : ∃ x : Node, Visited n x ∧ AtFault x f := by
  cases hs : shapeOf n.head with
  | error e =>
    rw [ofNode_error hs] at h
    cases h
    exact ⟨n, .here n, .shape hs⟩
  | ok s =>
    by_cases hk : s = .kept
    · subst hk
      rw [ofNode_kept hs] at h
      cases h
    · rw [ofNode_eq hs hk] at h
      have hcontents := error_of_map h
      cases hn : s.role? with
      | none =>
        rw [contents_of_role_none hn] at hcontents
        cases hcontents
      | some inner =>
        rw [contents_of_role hn] at hcontents
        exact (hc inner hcontents).parent (kind_open_of_role hs hn) (admits_of_role hs hn)

end Blames

/-- **What the failure of the mapping is due to**, in whatever place the nodes are.  The induction is on
the number of nodes: the children of the first node and the nodes after it are fewer. -/
theorem blames_of_map (cs : List Node) :
    ∀ (role : Role) (f : Failure), role.map cs = .error f → Blames role cs f := by
  induction hn : sizeOfList cs using Nat.strong_induction_on generalizing cs with
  | _ k ih =>
    subst hn
    cases cs with
    | nil =>
      intro role f h
      rw [role.map_nil] at h
      cases h
    | cons n rest =>
      have hsize : sizeOfList (n :: rest) = 1 + sizeOfList n.children + sizeOfList rest := by
        rw [sizeOfList, size_eq]
      have hchildren := ih _ (by omega) n.children rfl
      have hrest := ih _ (by omega) rest rfl
      intro role f h
      by_cases hp : role.Plain n
      · rw [Role.map_cons_plain hp] at h
        rcases error_of_joined h with hnode | hnodes
        · exact .head (atFault_of_ofNode (fun inner => hchildren inner f) (error_of_map hnode))
        · exact (hrest role f hnodes).tail fun _ => rfl
      -- the node is an item, a paragraph of a tight item, or in the place of a row or a cell
      cases role with
      | nodes => exact absurd trivial hp
      | items tight =>
        have hk : n.kind = "listItem" := not_not.mp hp
        rw [map_cons_item hk] at h
        rcases error_of_joined h with hnode | hnodes
        · refine .head ((hchildren _ f (error_of_map hnode)).parent (by rw [hk]; decide) fun c => ?_)
          rw [hk]
          rfl
        · exact (hrest _ f hnodes).tail fun _ => rfl
      | contents tight =>
        obtain ⟨rfl, hk⟩ : tight = true ∧ n.kind = "paragraph" := not_not.mp hp
        rw [map_cons_paragraph hk] at h
        rcases error_of_joined h with hnode | hnodes
        · refine .head ((hchildren _ f hnode).parent (by rw [hk]; decide) fun c => ?_)
          rw [hk]
          rfl
        · exact (hrest _ f hnodes).tail fun _ => rfl
      | rows tag aligns =>
        rw [map_cons_row] at h
        rcases error_of_joined h with hnode | hnodes
        · have hrow := error_of_map hnode
          split at hrow
          next hk =>
            refine .head ((hchildren _ f (error_of_map hrow)).parent (by rw [hk]; decide) fun c => ?_)
            rw [hk]
            rfl
          next hk =>
            cases hrow
            exact .misplaced (beq_eq_false_iff_ne.mpr hk)
        · exact (hrest _ f hnodes).tail fun _ => rfl
      | cells tag aligns =>
        rw [map_cons_cell] at h
        rcases error_of_joined h with hnode | hnodes
        · have hcell := error_of_map hnode
          split at hcell
          next hk =>
            refine .head ((hchildren _ f (error_of_map hcell)).parent (by rw [hk]; decide) fun c => ?_)
            rw [hk]
            rfl
          next hk =>
            cases hcell
            exact .misplaced (beq_eq_false_iff_ne.mpr hk)
        · exact (hrest _ f hnodes).tail fun _ => rfl

end Mdx.Markup
