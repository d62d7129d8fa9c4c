import Mdx.Node.Vocabulary
import Mdx.Transform.Context

/-!
# Transforms

A transform looks at a tree in its context and may do three things: change the tree that it was
given, change the context, and reply. A reply is nothing, the tree itself, another tree to go on
with, or a failure; a reply with a value that is no tree is a mistake of the transform.
-/

namespace Mdx

/-- What a transform replies. -/
inductive Reply where
  | nothing
  /-- The tree that was given to the transform. -/
  | itself
  /-- Another tree. -/
  | tree (other : Draft)
  /-- A value that is no tree. -/
  | value (v : Json)
  | failure (cause : Failure)
deriving Inhabited

/-- What a transform leaves behind: the tree it was given, the context, and its reply. -/
structure Outcome where
  tree : Draft
  context : Context
  reply : Reply
deriving Inhabited

/-- A named transform. -/
structure Transform where
  name : String
  apply : Draft → Context → Outcome
deriving Inhabited

/-- How a configuration refers to a transform. -/
inductive TransformRef where
  | itself (transform : Transform)
  /-- A name or an import path, if the value is a text. -/
  | value (v : Json)
deriving Inhabited

/-- A transform that did not finish: the stage, its place in the list, its name and the cause. -/
structure TransformError where
  stage : String
  index : Nat
  name : String
  cause : Failure
deriving Repr

/-- The text of a transform's error. -/
def TransformError.message (e : TransformError) : String :=
  "Transform #" ++ toString e.index ++ " (" ++ e.name ++ ") failed during " ++ e.stage ++ ": " ++
    e.cause.message

end Mdx
