import Mdx.Fault.Failure
import Mdx.Node.Vocabulary
import Mdx.Proofs.Node.Order

/-!
# Results without positions

Positions are for diagnostics only.  That a step of a stage does not look at them is said by an equation:
on the tree without positions it gives what it gives on the tree, seen without positions.  A result is
seen through a view of failures and a view of values (`seen`); the view of failures leaves out the place
and keeps all else (`Failure.unplaced`).

Steps with this property may be done one after another (`seen_bind`).  Here are the ones that look at a
tree as a whole: the check of a vocabulary (`validate_bare`) and the joining of texts
(`literalText_bare`).
-/

namespace Mdx

/-! ### Failures without places -/

/-- The error without its place. -/
def StructureError.unplaced (e : StructureError) : StructureError :=
  { e with position := none }

/-- The error without its place. -/
def GenerationError.unplaced (e : GenerationError) : GenerationError :=
  { e with position := none }

/-- The failure without its place, if it has one. -/
def Failure.unplaced : Failure → Failure
  | .structural e => .structural e.unplaced
  | .generation e => .generation e.unplaced
  | f => f

theorem Failure.unplaced_ofInteger (fault : Json.IntegerFault) :
    (Failure.ofInteger fault).unplaced = .ofInteger fault := by
  cases fault <;> rfl

/-! ### Results seen through views -/

/-- A result through a view of failures and a view of values. -/
def seen {ε δ α β : Type} (f : ε → δ) (g : α → β) : Except ε α → Except δ β
  | .ok a => .ok (g a)
  | .error e => .error (f e)

section Seen

variable {ε δ α β γ κ : Type} {f : ε → δ} {g : α → β} {g' : γ → κ}

/-- One step after another, each of which is blind to what the views leave out. -/
theorem seen_bind {x : Except ε α} {y : Except δ β} {k : α → Except ε γ} {k' : β → Except δ κ}
    (hx : y = seen f g x) (hk : ∀ a : α, x = .ok a → k' (g a) = seen f g' (k a)) :
    y >>= k' = seen f g' (x >>= k) := by
  subst hx
  cases x with
  | error e => rfl
  | ok a => exact hk a rfl

theorem seen_map {x : Except ε α} {y : Except δ β} {u : α → γ} {u' : β → κ} (hx : y = seen f g x)
    (hu : ∀ a : α, u' (g a) = g' (u a)) : y.map u' = seen f g' (x.map u) := by
  subst hx
  cases x with
  | error e => rfl
  | ok a => exact congrArg Except.ok (hu a)

theorem exists_of_seen_eq {x y : Except ε α} (h : seen f g x = seen f g y) :
    (∃ a b : α, x = .ok a ∧ y = .ok b ∧ g a = g b) ∨
      ∃ e d : ε, x = .error e ∧ y = .error d ∧ f e = f d := by
  cases x with
  | error e =>
    cases y with
    | error d => exact .inr ⟨e, d, rfl, rfl, Except.error.inj h⟩
    | ok b => cases h
  | ok a =>
    cases y with
    | error d => cases h
    | ok b => exact .inl ⟨a, b, rfl, rfl, Except.ok.inj h⟩

end Seen

/-! ### Trees without positions -/

/-- The head without its position. -/
def NodeHead.bare (h : NodeHead) : NodeHead :=
  { h with position := none }

namespace NodeHead

@[simp] theorem kind_bare (h : NodeHead) : h.bare.kind = h.kind := rfl

@[simp] theorem value_bare (h : NodeHead) : h.bare.value = h.value := rfl

@[simp] theorem props_bare (h : NodeHead) : h.bare.props = h.props := rfl

@[simp] theorem misfit?_bare (h : NodeHead) : h.bare.misfit? = h.misfit? := rfl

end NodeHead

namespace Node

@[simp] theorem bare_leaf (h : NodeHead) : (leaf h).bare = leaf h.bare := rfl

@[simp] theorem head_bare (n : Node) : n.bare.head = n.head.bare := by
  cases n <;> rfl

@[simp] theorem position_bare (n : Node) : n.bare.position = none := by
  cases n <;> rfl

@[simp] theorem value_bare (n : Node) : n.bare.value = n.value := by
  cases n <;> rfl

@[simp] theorem props_bare (n : Node) : n.bare.props = n.props := by
  cases n <;> rfl

theorem bareList_eq_map (ns : List Node) : bareList ns = ns.map bare := by
  induction ns with
  | nil => rfl
  | cons n rest ih => rw [bareList_cons, ih, List.map_cons]

theorem bareList_reverse (ns : List Node) : bareList ns.reverse = (bareList ns).reverse := by
  rw [bareList_eq_map, bareList_eq_map, List.map_reverse]

mutual

theorem literalText_bare : ∀ n : Node, n.bare.literalText = n.literalText
  | .leaf h => rfl
  | .branch h cs => by
    rw [bare_branch, literalText, literalText, literalTexts_bare cs]

theorem literalTexts_bare : ∀ ns : List Node, literalTexts (bareList ns) = literalTexts ns
  | [] => rfl
  | n :: rest => by
    rw [bareList_cons, literalTexts, literalTexts, literalText_bare n, literalTexts_bare rest]

end

/-! ### The check of a vocabulary -/

theorem checkKinds_bare (vocabulary : List String) (stage : String) (ns : List Node) :
    checkKinds vocabulary stage (ns.map bare) =
      seen StructureError.unplaced id (checkKinds vocabulary stage ns) := by
  induction ns with
  | nil => rfl
  | cons n rest ih =>
    rw [List.map_cons, checkKinds, checkKinds, checkKind, checkKind, head_bare]
    by_cases hk : vocabulary.contains n.head.kind = true
    · rw [if_pos hk, show vocabulary.contains n.head.bare.kind = true from hk, if_pos rfl]
      exact ih
    · rw [if_neg hk, if_neg (show ¬vocabulary.contains n.head.bare.kind = true from hk)]
      rfl

/-- **A tree passes a check without its positions if and only if it does with them**, and otherwise
fails for the same reason. -/
theorem validate_bare (tree : Node) (vocabulary : List String) (stage : String) :
    tree.bare.validate vocabulary stage =
      seen StructureError.unplaced id (tree.validate vocabulary stage) := by
  rw [validate, validate, kind_bare, flatten_bare, checkKinds_bare]
  split <;> rfl

end Node

end Mdx
