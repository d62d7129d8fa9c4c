import Mdx.Proofs.Extended.Unplaced
import Mdx.Proofs.Markup.Unplaced
import Mdx.Proofs.Module.Unplaced
import Mdx.Written.Stage

/-!
# Positions never matter

Two runs of a stage are compared, on a tree and on the same tree without positions.  `SameOutcome` says
that both succeed or both fail: the results are equal once their positions are left out, and the failures
once their places are.  A stage all of whose runs compare like this is `Blind` to positions.

The three stages are blind, and so they are on trees as they are written, where the kind or the value of a
node may be a misfit: which misfit is met first does not depend on positions either (`refusal_bare`,
`extendFailure?_bare`, `generateFailure?_bare`).
-/

namespace Mdx

/-- Two outcomes, of which the second has no positions: results that are equal after `erase`, or failures
that differ in their places only. -/
inductive SameOutcome {α : Type} (erase : α → α) : Except Failure α → Except Failure α → Prop
  | ok {a b : α} (h : b = erase a) : SameOutcome erase (.ok a) (.ok b)
  | error {e d : Failure} (h : d = e.unplaced) : SameOutcome erase (.error e) (.error d)

/-- A stage that does with a tree what it does with the tree without positions. -/
def Blind {α : Type} (erase : α → α) (stage : Node → Except Failure α) : Prop :=
  ∀ tree : Node, SameOutcome erase (stage tree) (stage tree.bare)

theorem blind_of_seen {α : Type} {erase : α → α} {stage : Node → Except Failure α}
    (h : ∀ tree : Node, stage tree.bare = seen Failure.unplaced erase (stage tree)) :
    Blind erase stage := by
  intro tree
  rw [h tree]
  cases stage tree with
  | ok a => exact .ok rfl
  | error e => exact .error rfl

namespace Written

open Node

/-! ### Refused trees -/

theorem kind_bare (n : Node) : kind n.bare = kind n := by
  cases n <;> rfl

theorem stranger?_bare (vocabulary : List String) (ns : List Node) :
    stranger? vocabulary (ns.map bare) = (stranger? vocabulary ns).map bare := by
  rw [stranger?, List.find?_map, stranger?]
  congr 2
  funext n
  exact congrArg (!vocabulary.contains ·) n.kind_bare

theorem lookupFailure?_unplaced (v : Json) :
    lookupFailure? v = (lookupFailure? v).map Failure.unplaced := by
  cases v <;> rfl

theorem refusal_bare (vocabulary : List String) (tree : Node) (failure : Failure) :
    refusal vocabulary tree.bare failure.unplaced = (refusal vocabulary tree failure).unplaced := by
  have hfound : ((stranger? vocabulary tree.bare.flatten).bind fun n => lookupFailure? (kind n)) =
      ((stranger? vocabulary tree.flatten).bind fun n => lookupFailure? (kind n)).map
        Failure.unplaced := by
    rw [flatten_bare, stranger?_bare]
    cases stranger? vocabulary tree.flatten with
    | none => rfl
    | some n =>
      show lookupFailure? (kind n.bare) = (lookupFailure? (kind n)).map Failure.unplaced
      rw [kind_bare]
      exact lookupFailure?_unplaced (kind n)
  unfold refusal
  rw [tree.kind_bare, hfound]
  split
  · exact Option.getD_map _ _ _
  · rfl

/-! ### Misfits that the first stage reads -/

mutual

theorem hasMisfit_bare : ∀ n : Node, hasMisfit n.bare = hasMisfit n
  | .leaf h => rfl
  | .branch h cs => by
    rw [bare_branch, hasMisfit, hasMisfit, anyMisfit_bare cs]

theorem anyMisfit_bare : ∀ ns : List Node, anyMisfit (bareList ns) = anyMisfit ns
  | [] => rfl
  | n :: rest => by
    rw [bareList_cons, anyMisfit, anyMisfit, hasMisfit_bare n, anyMisfit_bare rest]

end

theorem isReadParagraph_bare (n : Node) : isReadParagraph false n.bare = isReadParagraph false n := by
  rw [isReadParagraph, isReadParagraph, n.kind_bare]
  rfl

theorem extendFailure?_bare (tree : Node) :
    extendFailure? false tree.bare = (extendFailure? false tree).map Failure.unplaced := by
  have hread : (fun n => isReadParagraph false n && hasMisfit n) ∘ bare =
      fun n => isReadParagraph false n && hasMisfit n := by
    funext n
    rw [Function.comp, isReadParagraph_bare, hasMisfit_bare]
  have hmarkup (n : Node) :
      (if n.bare.kind = "html" then n.bare.head.misfit?.map markupFailure else none) =
        (if n.kind = "html" then n.head.misfit?.map markupFailure else none).map
          Failure.unplaced := by
    rw [n.kind_bare, head_bare, NodeHead.misfit?_bare]
    split
    · cases n.head.misfit? with
      | none => rfl
      | some v => cases v <;> rfl
    · rfl
  unfold extendFailure?
  rw [children_bare, bareList_eq_map, List.any_map, hread, flatten_bare, List.findSome?_map]
  split
  · rfl
  · rw [List.map_findSome?]
    exact congrArg (List.findSome? · tree.flatten) (funext hmarkup)

theorem extend_bare (tree : Node) :
    extend none tree.bare = seen Failure.unplaced bare (extend none tree) := by
  unfold extend
  rw [Extended.ofGeneric_bare]
  cases Extended.ofGeneric none tree with
  | error e => exact congrArg Except.error (refusal_bare _ tree (.structural e))
  | ok result =>
    dsimp only [seen, Option.isSome_none]
    rw [extendFailure?_bare]
    cases extendFailure? false tree <;> rfl

theorem toMarkup_bare (tree : Node) :
    toMarkup tree.bare = seen Failure.unplaced bare (toMarkup tree) := by
  unfold toMarkup
  rw [Markup.ofExtended_bare]
  cases Markup.ofExtended tree with
  | error failure => exact congrArg Except.error (refusal_bare _ tree failure)
  | ok result => rfl

/-! ### Misfits that are rendered -/

theorem headFailure?_bare (h : NodeHead) :
    headFailure? h.bare = (headFailure? h).map Failure.unplaced := by
  unfold headFailure?
  rw [h.kind_bare, h.misfit?_bare]
  split
  · cases h.misfit? <;> rfl
  · cases h.misfit? <;> rfl
  · cases h.misfit? <;> rfl
  · rfl

mutual

theorem renderFailure?_bare :
    ∀ n : Node, renderFailure? n.bare = (renderFailure? n).map Failure.unplaced
  | .leaf h => by
    rw [bare_leaf, renderFailure?, renderFailure?, headFailure?_bare]
  | .branch h cs => by
    show renderFailure? (.branch h.bare (bareList cs)) = _
    rw [renderFailure?, renderFailure?, headFailure?_bare, renderFailures?_bare cs, h.kind_bare]
    split <;> rfl

theorem renderFailures?_bare :
    ∀ ns : List Node, renderFailures? (bareList ns) = (renderFailures? ns).map Failure.unplaced
  | [] => rfl
  | n :: rest => by
    rw [bareList_cons, renderFailures?, renderFailures?, renderFailure?_bare n,
      renderFailures?_bare rest, Option.map_or]

end

theorem findSome?_misfit_bare (k : String) (ns : List Node) :
    ((bareList ns).findSome? fun n => if n.kind = k then n.head.misfit? else none) =
      ns.findSome? fun n => if n.kind = k then n.head.misfit? else none := by
  rw [bareList_eq_map, List.findSome?_map]
  congr 1
  funext n
  rw [Function.comp, n.kind_bare, head_bare, NodeHead.misfit?_bare]

theorem generateFailure?_bare (ns : List Node) :
    generateFailure? (bareList ns) = (generateFailure? ns).map Failure.unplaced := by
  simp only [generateFailure?, findSome?_misfit_bare, renderFailures?_bare, Option.map_or,
    Option.map_map]
  rfl

theorem generate_bare (runtime : Option String) (tree : Node) :
    generate runtime tree.bare = seen Failure.unplaced id (generate runtime tree) := by
  refine seen_bind (Module.generate_bare runtime tree) fun code _ => ?_
  rw [children_bare, generateFailure?_bare]
  cases generateFailure? tree.children <;> rfl

/-! ### All stages -/

/-- **Positions never influence what a stage does.** -/
theorem positions_never_matter (runtime : Option String) :
    Blind Node.bare (fun tree => (Extended.ofGeneric none tree).mapError Failure.structural) ∧
    Blind Node.bare Markup.ofExtended ∧
    Blind id (Module.generate runtime) ∧
    Blind Node.bare (extend none) ∧
    Blind Node.bare toMarkup ∧
    Blind id (generate runtime) := by
  refine ⟨blind_of_seen fun tree => ?_, blind_of_seen Markup.ofExtended_bare,
    blind_of_seen (Module.generate_bare runtime), blind_of_seen extend_bare,
    blind_of_seen toMarkup_bare, blind_of_seen (generate_bare runtime)⟩
  rw [Extended.ofGeneric_bare]
  cases Extended.ofGeneric none tree <;> rfl

end Written

end Mdx
