import Mdx.Proofs.Node.Order

/-!
# Nodes on the way down a tree

A stage that goes down a tree need not look everywhere: below the nodes of some kinds it looks no further.
With `Open` for the nodes whose children it looks at, `Reaches Open n x` says that it comes from `n` to
`x`.  What holds of all nodes that it comes to holds of the first one and, if that is open, of all that it
comes to from the children (`forall_reaches_iff`).
-/

namespace Mdx.Node

/-- The second node is the first, or is reached from it through the children of open nodes. -/
inductive Reaches (Open : Node → Prop) : Node → Node → Prop
  | here (n : Node) : Reaches Open n n
  | down {n c x : Node} (ho : Open n) (hc : c ∈ n.children) (hx : Reaches Open c x) :
      Reaches Open n x

section Reaches

variable {Open : Node → Prop} {n x : Node}

theorem Reaches.exists_child (h : Reaches Open n x) (hne : x ≠ n) :
    Open n ∧ ∃ c ∈ n.children, Reaches Open c x := by
  cases h with
  | here => exact absurd rfl hne
  | down ho hc hx => exact ⟨ho, _, hc, hx⟩

theorem Reaches.mem_flatten (h : Reaches Open n x) : x ∈ n.flatten := by
  induction h with
  | here n => exact Node.mem_flatten.mpr (.inl rfl)
  | down ho hc hx ih => exact Node.mem_flatten.mpr (.inr ⟨_, hc, ih⟩)

theorem Reaches.size_le (h : Reaches Open n x) : x.size ≤ n.size := by
  induction h with
  | here n => exact Nat.le_refl _
  | down ho hc hx ih => exact Nat.le_trans ih (Nat.le_of_lt (size_lt_of_mem hc))

theorem Reaches.ne_of_child {c : Node} (hc : c ∈ n.children) (h : Reaches Open c x) : x ≠ n := by
  rintro rfl
  exact absurd (size_lt_of_mem hc) (Nat.not_lt.mpr h.size_le)

/-- **All nodes that are reached**: the first one and, if it is open, those reached from its children. -/
theorem forall_reaches_iff {P : Node → Prop} :
    (∀ x : Node, Reaches Open n x → P x) ↔
      P n ∧ (Open n → ∀ c ∈ n.children, ∀ x : Node, Reaches Open c x → P x) := by
  constructor
  · exact fun h => ⟨h n (.here n), fun ho c hc x hx => h x (.down ho hc hx)⟩
  · rintro ⟨hn, hbelow⟩ x hx
    cases hx with
    | here => exact hn
    | down ho hc hx => exact hbelow ho _ hc x hx

/-- Some node that is reached: the first one or, if that is open, one reached from a child. -/
theorem exists_reaches_iff {P : Node → Prop} :
    (∃ x : Node, Reaches Open n x ∧ P x) ↔
      P n ∨ Open n ∧ ∃ c ∈ n.children, ∃ x : Node, Reaches Open c x ∧ P x := by
  constructor
  · rintro ⟨x, hx, hp⟩
    cases hx with
    | here => exact .inl hp
    | down ho hc hx => exact .inr ⟨ho, _, hc, x, hx, hp⟩
  · rintro (hp | ⟨ho, c, hc, x, hx, hp⟩)
    · exact ⟨n, .here n, hp⟩
    · exact ⟨x, .down ho hc hx, hp⟩

end Reaches

end Mdx.Node
