import Mdx.Module.Render
import Mdx.Text.Basic

/-!
# Generated modules

A module has, in this order, its imports, its named exports, the layout and the component that
renders the rest of the document. A statement `export default` gives the layout; there may be one.
-/

namespace Mdx.Module

/-- The module that `MDXTag` comes from, unless another is asked for. -/
def defaultRuntime : String :=
  "@mdx-js/tag"

/-- The module that a value names for `MDXTag` to come from; an empty value names none. -/
def runtimeOf (v : Json) : Option String :=
  if v.isEmpty then none else some v.plain

/-- The text after blanks, of which there has to be one at least. -/
def afterBlanks? : List Char → Option (List Char)
  | [] => none
  | c :: rest => if Text.isBlank c then some (rest.dropWhile Text.isBlank) else none

/-- The text after a word. -/
def afterWord? (word : List Char) (s : List Char) : Option (List Char) :=
  if word.isPrefixOf s then some (s.drop word.length) else none

/-- The expression without one semicolon at its end, and without the blanks before it. -/
def withoutSemicolon (s : List Char) : List Char :=
  match s.getLast? with
  | some ';' => Text.trimEnd s.dropLast
  | _ => s

/-- The expression of a default export: what follows `export` and `default`, blanks after each. -/
def defaultExpression? (value : List Char) : Option (List Char) := do
  let s ← afterWord? "export".toList (Text.trim value)
  let s ← afterBlanks? s
  let s ← afterWord? "default".toList s
  let s ← afterBlanks? s
  return withoutSemicolon s

/-- The top-level nodes of a document by what becomes of them. -/
structure Parts where
  imports : List String := []
  exports : List String := []
  layout : Option String := none
  body : List Node := []

/-- Sorts top-level nodes into parts; a layout may have been found before them. -/
def partsFrom (layout : Option String) : List Node → Except Failure Parts
  | [] => .ok { layout := layout }
  | n :: rest =>
      match n.kind with
      | "import" => do
          let parts ← partsFrom layout rest
          return { parts with imports := n.text :: parts.imports }
      | "export" =>
          match defaultExpression? n.text.toList, layout with
          | none, _ => do
              let parts ← partsFrom layout rest
              return { parts with exports := n.text :: parts.exports }
          | some _, some _ => .error (.generation ⟨.secondDefault, none⟩)
          | some expression, none => partsFrom (some (String.ofList expression)) rest
      | _ => do
          let parts ← partsFrom layout rest
          return { parts with body := n :: parts.body }

/-- The import of the component, unless the host has it in scope. -/
def runtimeImport : Option String → List String
  | none => []
  | some runtime =>
      if runtime.isEmpty then [] else ["import \x7b MDXTag \x7d from '" ++ runtime ++ "'"]

/-- Lines as one text; none if there are no lines. -/
def joinLines (lines : List String) : List String :=
  if lines.isEmpty then [] else ["\n".intercalate lines]

/-- The component around the rendered contents. -/
def component (layout : Option String) (content : String) : String :=
  "export default (\x7bcomponents, ...props\x7d) => <MDXTag name=\"wrapper\"" ++
    (if layout.isSome then " Layout=\x7bMDXLayout\x7d layoutProps=\x7bprops\x7d" else "") ++
    " components=\x7bcomponents\x7d>\n" ++
    (if content.isEmpty then "" else content ++ "\n") ++ "</MDXTag>"

/-- The code of the module for a markup tree. -/
def generate (runtime : Option String) (tree : Node) : Except Failure String := do
  if tree.kind ≠ "root" then throw (.generation ⟨.notRooted tree.kind, none⟩)
  let parts ← partsFrom none tree.children
  let rendered ← renderList none parts.body
  let sections :=
    joinLines (runtimeImport runtime ++ parts.imports) ++ joinLines parts.exports ++
      (match parts.layout with
        | some expression => ["const MDXLayout = " ++ expression]
        | none => []) ++
      [component parts.layout ("\n".intercalate rendered)]
  return "\n\n".intercalate sections ++ "\n"

end Mdx.Module
