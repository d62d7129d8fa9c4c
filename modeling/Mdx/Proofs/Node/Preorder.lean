import Mathlib.Data.List.Chain
import Mdx.Proofs.Node.Order
import Mdx.Proofs.Node.Walk

/-!
# All ways through a tree are in preorder

Trees are listed from a stack, walked by a visitor, searched for kinds and checked against a vocabulary.  The order
of all these is that of `Node.preorder`, by recursion: a node, and then its children one after another.  A walk
that goes on at every node makes the visits of `Node.visitsBelow`, which are the nodes in this order, each with
the nodes that lead to it from the root.
-/

namespace Mdx.Node

open Mdx.Walk (Visit Edited)

/-! ### Preorder -/

mutual

/-- The nodes of a tree, each before its children. -/
def preorder : Node → List Node
  | .leaf h => [.leaf h]
  | .branch h cs => .branch h cs :: preorderList cs

/-- The nodes of trees, one tree after another. -/
def preorderList : List Node → List Node
  | [] => []
  | n :: rest => n.preorder ++ preorderList rest

end

mutual

/-- The nodes of a tree in preorder, each with the nodes from the root down to its parent; those above the tree
are given. -/
def visitsBelow (ancestors : List Node) : Node → List Visit
  | .leaf h => [⟨ancestors, .leaf h⟩]
  | .branch h cs => ⟨ancestors, .branch h cs⟩ :: visitsBelowList (ancestors ++ [.branch h cs]) cs

/-- The nodes of trees in preorder, each with its ancestors. -/
def visitsBelowList (ancestors : List Node) : List Node → List Visit
  | [] => []
  | n :: rest => n.visitsBelow ancestors ++ visitsBelowList ancestors rest

end

theorem preorder_eq (n : Node) : n.preorder = n :: preorderList n.children := by
  cases n with
  | leaf h => rfl
  | branch h cs => rw [preorder, children]

theorem preorderList_append (xs ys : List Node) :
    preorderList (xs ++ ys) = preorderList xs ++ preorderList ys := by
  induction xs with
  | nil => rfl
  | cons n rest ih => rw [List.cons_append, preorderList, preorderList, ih, List.append_assoc]

/-- The trees of a stack are listed in preorder, those further down after those above them. -/
theorem flattenStack_eq_preorderList (stack : List Node) : flattenStack stack = preorderList stack := by
  induction stack using flattenStack.induct with
  | case1 => rw [flattenStack_nil, preorderList]
  | case2 n rest ih =>
    rw [flattenStack_cons, ih, preorderList_append, preorderList, preorder_eq, List.cons_append]

theorem flatten_eq_preorder (tree : Node) : tree.flatten = tree.preorder := by
  rw [flatten, flattenStack_eq_preorderList, preorderList, preorderList, List.append_nil]

/-! ### Visits in preorder -/

mutual

theorem map_node_visitsBelow (ancestors : List Node) :
    ∀ n : Node, (n.visitsBelow ancestors).map Visit.node = n.preorder
  | .leaf _ => rfl
  | .branch h cs => by
    rw [visitsBelow, preorder, List.map_cons, map_node_visitsBelowList _ cs]

theorem map_node_visitsBelowList (ancestors : List Node) :
    ∀ ns : List Node, (visitsBelowList ancestors ns).map Visit.node = preorderList ns
  | [] => rfl
  | n :: rest => by
    rw [visitsBelowList, preorderList, List.map_append, map_node_visitsBelow ancestors n,
      map_node_visitsBelowList ancestors rest]

end

/-- The rule of a visitor that goes on at every node. -/
def keepAll : Walk.Rule := fun _ _ => .keep

mutual

theorem edited_keepAll (ancestors : List Node) :
    ∀ n : Node, Edited keepAll ancestors [n] (n.visitsBelow ancestors) [n]
  | .leaf h => by
    have hnode : Edited keepAll ancestors [.leaf h] _ _ := .opened rfl .nil .nil
    exact hnode
  | .branch h cs => by
    have hinner := edited_keepAll_list (ancestors ++ [.branch h cs]) cs
    have hnode : Edited keepAll ancestors [.branch h cs] _ _ := .opened rfl hinner .nil
    rw [List.append_nil] at hnode
    exact hnode

theorem edited_keepAll_list (ancestors : List Node) :
    ∀ ns : List Node, Edited keepAll ancestors ns (visitsBelowList ancestors ns) ns
  | [] => .nil
  | n :: rest => (edited_keepAll ancestors n).append (edited_keepAll_list ancestors rest)

end

/-- The ancestors of a visit and its node are a path from the root down: each node after the first is a child of
the one before it. -/
def IsPath (root : Node) (v : Visit) : Prop :=
  [root] <+: v.ancestors ++ [v.node] ∧ (v.ancestors ++ [v.node]).IsChain fun p c => c ∈ p.children

theorem IsPath.child {root n c : Node} {ancestors : List Node} (h : IsPath root ⟨ancestors, n⟩)
    (hc : c ∈ n.children) : IsPath root ⟨ancestors ++ [n], c⟩ := by
  refine ⟨h.1.trans (List.prefix_append _ _), ?_⟩
  refine List.isChain_append.mpr ⟨h.2, .singleton c, ?_⟩
  intro p hp d hd
  rw [List.getLast?_concat] at hp
  cases hp
  cases hd
  exact hc

mutual

/-- The nodes of a tree are visited with the path from the root, if the tree itself is. -/
theorem isPath_of_mem_visitsBelow {root : Node} (ancestors : List Node) : ∀ n : Node,
    IsPath root ⟨ancestors, n⟩ → ∀ v ∈ n.visitsBelow ancestors, IsPath root v
  | .leaf h, hn => List.forall_mem_singleton.mpr hn
  | .branch h cs, hn => by
    rw [visitsBelow, List.forall_mem_cons]
    exact ⟨hn, isPath_of_mem_visitsBelowList _ cs fun c hc => hn.child hc⟩

theorem isPath_of_mem_visitsBelowList {root : Node} (ancestors : List Node) : ∀ ns : List Node,
    (∀ n ∈ ns, IsPath root ⟨ancestors, n⟩) → ∀ v ∈ visitsBelowList ancestors ns, IsPath root v
  | [], _ => fun v hv => absurd hv List.not_mem_nil
  | n :: rest, hns => by
    rw [visitsBelowList, List.forall_mem_append]
    rw [List.forall_mem_cons] at hns
    exact ⟨isPath_of_mem_visitsBelow ancestors n hns.1, isPath_of_mem_visitsBelowList ancestors rest hns.2⟩

end

/-! ### The first node that does not fit -/

/-- **The check stops at the first node** whose kind is not in the vocabulary. -/
theorem checkKinds_eq_error {vocabulary : List String} {stage : String} {ns : List Node} {n : Node}
    (h : ns.find? (fun n => n.kind ∉ vocabulary) = some n) :
    checkKinds vocabulary stage ns = .error ⟨.unknownKind stage n.kind, n.position⟩ := by
  induction ns with
  | nil => cases h
  | cons m rest ih =>
    rw [checkKinds, checkKind]
    by_cases hm : m.kind ∈ vocabulary
    · rw [List.find?_cons_of_neg (by simpa using hm)] at h
      have hcontains : vocabulary.contains m.head.kind = true := List.contains_iff_mem.mpr hm
      rw [if_pos hcontains]
      exact ih h
    · rw [List.find?_cons_of_pos (by simpa using hm)] at h
      cases h
      have hcontains : ¬ vocabulary.contains n.head.kind = true :=
        fun hc => hm (List.contains_iff_mem.mp hc)
      rw [if_neg hcontains]
      rfl

/-- **All ways through a tree are in preorder.**  The list from a stack is the recursive one.  A walk that goes on
at every node visits the nodes of that list, each with the path that leads to it from the root, and leaves the
tree as it is.  A search gives the nodes of that list that have one of the kinds.  A tree passes the check of a
vocabulary exactly if its top is a root and the nodes of that list have kinds of the vocabulary.  If the top is
no root, the check names its kind, without a position; if it is one, the check gives the kind and the position
of the first node of that list that does not fit. -/
theorem traversals_are_in_preorder (tree : Node) :
    tree.flatten = tree.preorder ∧
    (∀ {σ : Type} (visit : Visitor σ) (s : σ) (bound : Nat),
      (∀ (s : σ) (ancestors : List Node) (n : Node),
        (visit s ancestors n).2 = { move := .descend, node := n }) →
      tree.preorder.length ≤ bound + 1 →
      tree.walk visit bound s = some (Walk.stateAfter visit s (tree.visitsBelow []), .ok tree)) ∧
    (tree.visitsBelow []).map Visit.node = tree.preorder ∧
    (∀ v ∈ tree.visitsBelow [], IsPath tree v) ∧
    (∀ kinds : List String, tree.findAll kinds = tree.preorder.filter (·.kind ∈ kinds)) ∧
    (∀ (vocabulary : List String) (stage : String),
      (tree.validate vocabulary stage = .ok () ↔
        tree.kind = "root" ∧ ∀ n ∈ tree.preorder, n.kind ∈ vocabulary) ∧
      (tree.kind ≠ "root" →
        tree.validate vocabulary stage = .error ⟨.notRooted stage tree.kind, none⟩) ∧
      (tree.kind = "root" → ∀ n : Node, tree.preorder.find? (·.kind ∉ vocabulary) = some n →
        tree.validate vocabulary stage = .error ⟨.unknownKind stage n.kind, n.position⟩)) := by
  refine ⟨flatten_eq_preorder tree, ?_, map_node_visitsBelow [] tree, ?_, ?_, ?_⟩
  · intro σ visit s bound hkeep hbound
    have hobeys : Walk.Obeys visit keepAll := fun s v => hkeep s v.ancestors v.node
    refine Walk.walk_of_edited hobeys (edited_keepAll [] tree) ?_ s
    rwa [← List.length_map (f := Visit.node), map_node_visitsBelow]
  · exact isPath_of_mem_visitsBelow [] tree ⟨List.prefix_refl _, .singleton tree⟩
  · intro kinds
    rw [findAll, flatten_eq_preorder]
    exact List.filter_congr fun n _ => List.contains_eq_mem n.kind kinds
  · intro vocabulary stage
    refine ⟨?_, fun htop => if_neg htop, fun htop n hn => ?_⟩
    · rw [validate_eq_ok_iff, flatten_eq_preorder]
    · rw [validate, if_pos htop, flatten_eq_preorder]
      exact checkKinds_eq_error hn

/-- A document with two nodes of no known kind. -/
def mysteries : Node :=
  .ofChildren
    [.branch { kind := "paragraph" }
      [.ofText "a" none, .leaf { kind := "mystery", position := some ⟨⟨1, 2, 1⟩, ⟨1, 4, 3⟩⟩ }],
     .branch { kind := "enigma" } []]

/-- The first of two nodes of no known kind is reported, and a walk comes to all nodes. -/
theorem traversals_are_in_preorder_mysteries :
    (mysteries.kind = "root" ∧ mysteries.preorder.length ≤ 4 + 1) ∧
    mysteries.preorder.map kind = ["root", "paragraph", "text", "mystery", "enigma"] ∧
    mysteries.walk (Walk.recorder keepAll) 4 [] = some (mysteries.visitsBelow [], .ok mysteries) ∧
    mysteries.validate Vocabulary.generic "parse" =
      .error ⟨.unknownKind "parse" "mystery", some ⟨⟨1, 2, 1⟩, ⟨1, 4, 3⟩⟩⟩ := by
  obtain ⟨-, hwalk, -, -, -, hcheck⟩ := traversals_are_in_preorder mysteries
  refine ⟨⟨rfl, Nat.le_refl 5⟩, rfl, ?_, ?_⟩
  · rw [hwalk (Walk.recorder keepAll) [] 4 (fun _ _ _ => rfl) (Nat.le_refl 5), Walk.stateAfter_recorder,
      List.nil_append]
  · exact (hcheck Vocabulary.generic "parse").2.2 rfl _ rfl

/-- A tree whose top is no root is reported without a position, although every node of it has one. -/
theorem unrooted_tree_is_reported_without_position :
    ∃ e : StructureError,
      (Node.branch { kind := "paragraph", position := some ⟨⟨1, 1, 0⟩, ⟨1, 2, 1⟩⟩ } []).validate
        Vocabulary.generic "parse" = .error e ∧
      ∀ n ∈ (Node.branch { kind := "paragraph", position := some ⟨⟨1, 1, 0⟩, ⟨1, 2, 1⟩⟩ } []).preorder,
        e.position ≠ n.position := by
  refine ⟨⟨.notRooted "parse" "paragraph", none⟩, rfl, ?_⟩
  intro n hn
  obtain rfl := List.mem_singleton.mp hn
  intro hposition
  cases hposition

end Mdx.Node
