import Mdx.Fault.Structure
import Mdx.Node.Basic

/-!
# Walks

A walk visits the nodes of a tree in document order and makes the visitor's edits as it goes. For
each node the visitor says whether to go on into its children, to pass over them or to remove the
node; it may leave another node in the node's place, whose children are then visited in turn, and it
may add nodes at the end of the parent's children, which are visited later.

A visitor that keeps adding nodes would keep a walk going for ever, so a walk has a bound on its
visits and gives no tree if that is too small.
-/

namespace Mdx

/-- What to do with a visited node. -/
inductive Move where
  | descend
  | skip
  | remove
deriving DecidableEq, Repr, Inhabited

/-- A visitor's answer: what to do, the node that stands in its place from now on, and the nodes
added at the end of its parent's children. -/
structure Verdict where
  move : Move
  node : Node
  added : List Node := []

/-- A visitor with a state; it sees the nodes from the root down to the parent, then the node. -/
abbrev Visitor (σ : Type) := σ → List Node → Node → σ × Verdict

namespace Walk

/-- Visits the nodes that are pending, `done` being the siblings before them, last first. -/
def siblings {σ : Type} (visit : Visitor σ) :
    (bound : Nat) → σ → (ancestors done pending : List Node) → Option (σ × List Node)
  | _, s, _, done, [] => some (s, done.reverse)
  | 0, _, _, _, _ :: _ => none
  | bound + 1, s, ancestors, done, child :: rest =>
      match visit s ancestors child with
      | (s, verdict) =>
          let rest := rest ++ verdict.added
          match verdict.move, verdict.node with
          | .remove, _ => siblings visit bound s ancestors done rest
          | .skip, n => siblings visit bound s ancestors (n :: done) rest
          | .descend, .leaf h => siblings visit bound s ancestors (.leaf h :: done) rest
          | .descend, .branch h cs =>
              match siblings visit bound s (ancestors ++ [.branch h cs]) [] cs with
              | none => none
              | some (s, cs) => siblings visit bound s ancestors (.branch h cs :: done) rest

end Walk

/-- Walks a tree with at most `bound` visits below the root. -/
def Node.walk {σ : Type} (visit : Visitor σ) (bound : Nat) (s : σ) (tree : Node) :
    Option (σ × Except StructureError Node) :=
  match visit s [] tree with
  | (s, verdict) =>
      match verdict.move, verdict.node with
      | .remove, _ => some (s, .error ⟨.rootRemoved, tree.position⟩)
      | .skip, n => some (s, .ok n)
      | .descend, .leaf h => some (s, .ok (.leaf h))
      | .descend, .branch h cs =>
          (Walk.siblings visit bound s [.branch h cs] [] cs).map fun (s, cs) =>
            (s, .ok (.branch h cs))

end Mdx
