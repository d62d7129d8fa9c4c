import Mdx.Fault.Failure
import Mdx.Node.Vocabulary
import Mdx.Node.Walk

/-!
# Edits of drafts

The ways in which a transform finds and changes nodes. A draft that holds a value that is no node
cannot be searched or walked: the attempt fails at that value.
-/

namespace Mdx.Draft

/-- The failure of asking a value that is no node for what nodes have. -/
def strayFailure (value : Json) (need : String) : Failure :=
  .lacking ("'" ++ value.kindName ++ "' object has no attribute '" ++ need ++ "'")

/-- The draft as a tree, if all its values are nodes. -/
def tree (d : Draft) : Except Failure Node :=
  match d.strays with
  | [] => .ok d.toNode
  | v :: _ => .error (strayFailure v "type")

/-- The nodes of the given kinds in document order. -/
def findAll (d : Draft) (kinds : List String) : Except Failure (List Node) := do
  return (← d.tree).findAll kinds

/-- The draft with every node of the given kinds changed. -/
def editAll (d : Draft) (kinds : List String) (f : NodeHead → NodeHead) : Except Failure Draft := do
  let _ ← d.tree
  return d.mapHeads fun h => if kinds.contains h.kind then f h else h

/-- A visitor that removes the nodes of the given kinds. -/
def remover (kinds : List String) : Visitor Unit := fun s _ n =>
  (s, { move := if kinds.contains n.kind then .remove else .descend, node := n })

/-- The draft without the nodes of the given kinds; its root cannot be removed. -/
def removeAll (d : Draft) (kinds : List String) : Except Failure Draft := do
  let n ← d.tree
  match n.walk (remover kinds) n.size () with
  | some (_, .ok n) => return .ofNode n
  | some (_, .error e) => throw (.structural e)
  | none => return d

/-- An item of a list, an index below zero counting from the end. -/
def item? {α : Type} (items : List α) (index : Int) : Option α :=
  let i := if index < 0 then index + items.length else index
  if i < 0 then none else items[i.toNat]?

/-- The child that an index leads to. -/
def child {α : Type} (children : Option (List α)) (index : Int) : Except Failure α :=
  match children with
  | none => .error (.badKind "'NoneType' object is not subscriptable")
  | some items =>
      match item? items index with
      | some a => .ok a
      | none => .error (.outOfRange "list index out of range")

/-- The node that a path of child indices leads to. -/
def nodeAt : Node → List Int → Except Failure Node
  | n, [] => .ok n
  | n, i :: path => do nodeAt (← child n.children? i) path

/-- The position of the node that a path of child indices leads to. -/
def positionAt (d : Draft) : List Int → Except Failure (Option Position)
  | [] => .ok d.head.position
  | i :: path => do
      match ← child d.items i with
      | .node n => return (← nodeAt n path).position
      | .stray v => throw (strayFailure v (if path.isEmpty then "position" else "children"))

end Mdx.Draft
