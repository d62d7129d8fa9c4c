import Mdx.Fault.Failure
import Mdx.Node.Serial
import Mdx.Node.Vocabulary

/-!
# Trees as they are written

In the interchange format the kind or the value of a node may be anything, not only a text. Such a
misfit is kept among the node's properties, and most operations pass over it. Here are the ones that
come across it: a kind can only be looked up if it is no list and no object, and only texts can be
joined.
-/

namespace Mdx.Written

/-- The kind of a node as it was written. -/
def kind (n : Node) : Json :=
  (n.prop? "type").getD (.str n.kind)

/-- The value of a node as it was written. -/
def value (n : Node) : Json :=
  match n.value with
  | some s => .str s
  | none => (n.prop? "value").getD .null

/-- The properties of a node apart from misfits. -/
def props (n : Node) : Json.Members :=
  n.props.filter fun m => !Node.reservedKeys.contains m.1

mutual

/-- Whether there is a misfit among the texts of a tree. -/
def hasMisfit : Node → Bool
  | .leaf h => h.kind != "break" && h.misfit?.isSome
  | .branch h cs => h.kind != "break" && anyMisfit cs

/-- Whether there is a misfit among the texts of trees. -/
def anyMisfit : List Node → Bool
  | [] => false
  | n :: rest => hasMisfit n || anyMisfit rest

end

/-- The failure of joining texts and other values. -/
def notJoined : Failure :=
  .badKind "sequence item: expected str instance"

/-- The texts of a tree, joined; a leaf gives whatever value it has. -/
def text (n : Node) : Except Failure Json :=
  match n with
  | .leaf h => .ok ((if h.kind = "break" then none else h.misfit?).getD (.str n.literalText))
  | .branch _ _ => if hasMisfit n then .error notJoined else .ok (.str n.literalText)

/-- The failure of looking up a list or an object. -/
def lookupFailure? : Json → Option Failure
  | .arr _ => some (.badKind "unhashable type: 'list'")
  | .obj _ => some (.badKind "unhashable type: 'dict'")
  | _ => none

/-- The nodes of the given kinds in document order. -/
def findAll (tree : Node) (kinds : List Json) : Except Failure (List Node) :=
  match tree.flatten.findSome? fun n => lookupFailure? (kind n) with
  | some failure => .error failure
  | none => .ok (tree.flatten.filter fun n => kinds.contains (kind n))

/-- The first node of a tree whose kind is not in a vocabulary. -/
def stranger? (vocabulary : List String) (nodes : List Node) : Option Node :=
  nodes.find? fun n => !vocabulary.contains n.kind

/-- The failure of a tree below a root that a vocabulary refuses. -/
def refusal (vocabulary : List String) (tree : Node) (failure : Failure) : Failure :=
  if tree.kind = "root" then
    ((stranger? vocabulary tree.flatten).bind fun n => lookupFailure? (kind n)).getD failure
  else failure

/-- The nodes of a draft that come before its first stray value. -/
def nodesBeforeStray : List DraftItem → List Node
  | .node n :: rest => n.flatten ++ nodesBeforeStray rest
  | _ => []

/-- Checks that a draft is a tree that has a root at its top and nodes of the vocabulary only. -/
def validate (d : Draft) (vocabulary : List String) (stage : String) : Except Failure Unit :=
  match d.validate vocabulary stage with
  | .ok _ => .ok ()
  | .error e =>
      let sound := Node.ofParts d.head (d.items.map fun items => nodesBeforeStray items)
      .error (refusal vocabulary sound (.structural e))

end Mdx.Written
