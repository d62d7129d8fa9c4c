import Mdx.Proofs.Module.Layout

/-!
# Statements are hoisted in order

The top-level nodes of a document are of three classes: imports, exports and what is rendered.  The
generator goes through them once, with a place for the layout that it fills at the first default export
and an error at the second.  Only exports touch that place (`layoutFrom`), and all else that it makes of
the nodes is three lists, each in the order of the document (`partsFrom_eq`).  So a module depends on the
order within the classes and not on how they are interleaved.
-/

namespace Mdx.Module

/-! ### The parts by class -/

/-- The layout after the given exports, where one may have been found before them. -/
def layoutFrom (found : Option String) : List Node → Except Failure (Option String)
  | [] => .ok found
  | n :: rest =>
      match defaultExpression? n.text.toList, found with
      | none, _ => layoutFrom found rest
      | some _, some _ => .error (.generation ⟨.secondDefault, none⟩)
      | some expression, none => layoutFrom (some (String.ofList expression)) rest

/-- The nodes by class, each class in the order of the document, and a layout. -/
def partsOf (cs : List Node) (layout : Option String) : Parts where
  imports := (cs.filter (·.kind = "import")).map Node.text
  exports := (cs.filter fun n => n.kind = "export" ∧ ¬DefaultExport n).map Node.text
  layout := layout
  body := cs.filter isContent

section Step

variable {n : Node} {rest : List Node}

theorem partsOf_import (hk : n.kind = "import") :
    partsOf (n :: rest) =
      fun l => { partsOf rest l with imports := n.text :: (partsOf rest l).imports } := by
  have hc : isContent n = false := by rw [isContent, hk]; rfl
  funext l
  simp [partsOf, hk, hc]

theorem partsOf_named (hk : n.kind = "export") (hd : ¬DefaultExport n) :
    partsOf (n :: rest) =
      fun l => { partsOf rest l with exports := n.text :: (partsOf rest l).exports } := by
  have hc : isContent n = false := by rw [isContent, hk]; rfl
  funext l
  simp [partsOf, hk, hd, hc]

theorem partsOf_default (hd : DefaultExport n) : partsOf (n :: rest) = partsOf rest := by
  have hc : isContent n = false := by rw [isContent, hd.1]; rfl
  funext l
  simp [partsOf, hd.1, hd, hc]

theorem partsOf_content (hc : isContent n = true) :
    partsOf (n :: rest) = fun l => { partsOf rest l with body := n :: (partsOf rest l).body } := by
  have hk := hc
  rw [isContent, Bool.and_eq_true, bne_iff_ne, bne_iff_ne] at hk
  funext l
  simp [partsOf, hk.1, hk.2, hc]

end Step

/-- **The parts of a document are its classes**, with the layout that the exports give. -/
theorem partsFrom_eq (found : Option String) (cs : List Node) :
    partsFrom found cs = (layoutFrom found (cs.filter (·.kind = "export"))).map (partsOf cs) := by
  induction cs generalizing found with
  | nil => rfl
  | cons n rest ih =>
    by_cases hk : n.kind = "export"
    · rw [List.filter_cons_of_pos (by simpa using hk)]
      by_cases hd : DefaultExport n
      · obtain ⟨e, he⟩ := Option.isSome_iff_exists.mp (defaultExport_iff.mp hd).2
        rw [partsFrom.eq_def, layoutFrom.eq_def, partsOf_default hd]
        cases found with
        | none => simp only [hk, he, ih]
        | some expression =>
          simp only [hk, he]
          rfl
      · rw [partsFrom_named hk hd, layoutFrom.eq_def, partsOf_named hk hd, ih]
        simp only [defaultExpression?_eq_none hk hd]
        cases layoutFrom found (rest.filter (·.kind = "export")) <;> rfl
    · rw [List.filter_cons_of_neg (by simpa using hk)]
      by_cases hc : isContent n = true
      · rw [partsFrom_content hc, partsOf_content hc, ih]
        cases layoutFrom found (rest.filter (·.kind = "export")) <;> rfl
      · have hi : n.kind = "import" := (kind_of_not_isContent hc).resolve_right hk
        rw [partsFrom_import hi, partsOf_import hi, ih]
        cases layoutFrom found (rest.filter (·.kind = "export")) <;> rfl

/-- The named exports are among the exports, so what they are depends on the exports only. -/
theorem filter_named_eq (cs : List Node) :
    cs.filter (fun n => n.kind = "export" ∧ ¬DefaultExport n) =
      (cs.filter (·.kind = "export")).filter (¬DefaultExport ·) := by
  rw [List.filter_filter]
  refine List.filter_congr fun n _ => ?_
  rw [← Bool.decide_and, decide_eq_decide]
  exact and_comm

/-- Lists with the same nodes of each class, in the same order, have the same parts. -/
theorem partsFrom_congr {cs ds : List Node} (found : Option String)
    (himports : cs.filter (·.kind = "import") = ds.filter (·.kind = "import"))
    (hexports : cs.filter (·.kind = "export") = ds.filter (·.kind = "export"))
    (hbody : cs.filter isContent = ds.filter isContent) :
    partsFrom found cs = partsFrom found ds := by
  have hparts : partsOf cs = partsOf ds := by
    funext l
    rw [partsOf, partsOf, filter_named_eq, filter_named_eq, himports, hexports, hbody]
  rw [partsFrom_eq, partsFrom_eq, hexports, hparts]

/-! ### Generated modules -/

/-- **A module depends on the order within each class only.**  Two roots with the same imports, the same
exports and the same other nodes, each in the same order, give the same module or the same error, however
the classes are interleaved.  A module that is generated has its imports, its named exports and the
renderings of its other nodes, once each and in the order of the document, in their sections; the layout
is the expression of the only default export. -/
theorem module_depends_on_order_within_classes (runtime : Option String) {tree tree' : Node}
    (hroot : tree.kind = "root") (hroot' : tree'.kind = "root")
    (himports : tree.children.filter (·.kind = "import") = tree'.children.filter (·.kind = "import"))
    (hexports : tree.children.filter (·.kind = "export") = tree'.children.filter (·.kind = "export"))
    (hbody : tree.children.filter isContent = tree'.children.filter isContent) :
    generate runtime tree = generate runtime tree' ∧
      ∀ code : String, generate runtime tree = .ok code →
        ∃ (layout : Option String) (rendered : List String),
          List.Forall₂ LayoutOf (tree.children.filter (DefaultExport ·)) layout.toList ∧
          List.Forall₂ (fun n r => render none n = .ok r) (tree.children.filter isContent) rendered ∧
          code = moduleText runtime
            { imports := (tree.children.filter (·.kind = "import")).map Node.text
              exports := (tree.children.filter fun n => n.kind = "export" ∧ ¬DefaultExport n).map
                Node.text
              layout := layout
              body := tree.children.filter isContent }
            rendered := by
  constructor
  · rw [generate_eq runtime hroot, generate_eq runtime hroot',
      partsFrom_congr none himports hexports hbody]
  · intro code hcode
    obtain ⟨parts, rendered, hparts, hrendered, rfl⟩ := exists_of_generate hroot hcode
    obtain ⟨-, hlayout, -⟩ := exports_of_partsFrom hparts
    rw [partsFrom_eq] at hparts
    obtain ⟨layout, -, rfl⟩ := exists_ok_of_map hparts
    exact ⟨layout, rendered, hlayout rfl, renderList_eq_ok_iff.mp hrendered, rfl⟩

/-- Statements of both kinds, with the rest of the document between them. -/
def mixedStatements : Node :=
  .ofChildren
    [.leaf { kind := "jsx", value := "<a/>" },
     .leaf { kind := "export", value := "export const b = 1" },
     .leaf { kind := "import", value := "import b from 'b'" },
     .leaf { kind := "export", value := "export default b" },
     .leaf { kind := "text", value := "c" },
     .leaf { kind := "import", value := "import a from 'a'" }]

/-- The same statements, one class after the other. -/
def sortedStatements : Node :=
  .ofChildren
    [.leaf { kind := "import", value := "import b from 'b'" },
     .leaf { kind := "import", value := "import a from 'a'" },
     .leaf { kind := "export", value := "export const b = 1" },
     .leaf { kind := "export", value := "export default b" },
     .leaf { kind := "jsx", value := "<a/>" },
     .leaf { kind := "text", value := "c" }]

/-- The module of both. -/
def statementsModule : String :=
  "import \x7b MDXTag \x7d from '@mdx-js/tag'\nimport b from 'b'\nimport a from 'a'\n\n" ++
    "export const b = 1\n\nconst MDXLayout = b\n\n" ++
    "export default (\x7bcomponents, ...props\x7d) => <MDXTag name=\"wrapper\" " ++
    "Layout=\x7bMDXLayout\x7d layoutProps=\x7bprops\x7d components=\x7bcomponents\x7d>\n" ++
    "<a/>\n\x7b\x60c\x60\x7d\n</MDXTag>\n"

theorem module_depends_on_order_within_classes_mixed :
    mixedStatements.children.map Node.kind ≠ sortedStatements.children.map Node.kind ∧
    generate (some "@mdx-js/tag") mixedStatements = generate (some "@mdx-js/tag") sortedStatements ∧
    generate (some "@mdx-js/tag") mixedStatements = .ok statementsModule ∧
    ∃ (layout : Option String) (rendered : List String),
      List.Forall₂ LayoutOf (mixedStatements.children.filter (DefaultExport ·)) layout.toList ∧
      List.Forall₂ (fun n r => render none n = .ok r) (mixedStatements.children.filter isContent)
        rendered ∧
      statementsModule = moduleText (some "@mdx-js/tag")
        { imports := ["import b from 'b'", "import a from 'a'"]
          exports := ["export const b = 1"]
          layout := layout
          body := mixedStatements.children.filter isContent }
        rendered := by
  have hcode : generate (some "@mdx-js/tag") mixedStatements = .ok statementsModule :=
    eq_ok_of_toOption (by decide +kernel)
  obtain ⟨hsame, hall⟩ := @module_depends_on_order_within_classes (some "@mdx-js/tag")
    mixedStatements sortedStatements rfl rfl rfl rfl rfl
  obtain ⟨layout, rendered, hlayout, hrendered, htext⟩ := hall statementsModule hcode
  have hnamed : (mixedStatements.children.filter fun n => n.kind = "export" ∧ ¬DefaultExport n).map
      Node.text = ["export const b = 1"] := by
    decide +kernel
  rw [hnamed] at htext
  exact ⟨by decide, hsame, hcode, layout, rendered, hlayout, hrendered, htext⟩

end Mdx.Module
