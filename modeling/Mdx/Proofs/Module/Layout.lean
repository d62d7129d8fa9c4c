import Mdx.Proofs.Module.Renderable
import Mdx.Proofs.Script.Run
import Mdx.Text.Word

/-!
# Default exports become the layout

A module has one default export, its component.  So an export of the document that is a default export
must not be written out as it stands: it has to become the layout.

`SaysDefault` tells default exports by their words: `export`, blanks, and the word `default`, which
ends there.  The generator also asks for a blank after that word (`DefaultExport`), so an export such as
`export default{}` passes for a named one and is written out.  With that blank it is the layout, and a
second one is an error.
-/

namespace Mdx.Module

/-! ### The word `default` -/

/-- A character that an identifier goes on with. -/
def isNamePart (c : Char) : Bool :=
  Text.isWord c || c == '$'

/-- A text that is a default export: blanks at its ends apart it is `export`, blanks, and the word
`default`, after which the text ends or a character comes that is no part of a name. -/
def SaysDefault (value : List Char) : Prop :=
  ∃ gap rest : List Char, Blanks gap ∧
    Text.trim value = "export".toList ++ (gap ++ ("default".toList ++ rest)) ∧
    rest.head?.any isNamePart = false

/-- An export that is a default export by its words. -/
def ExportsDefault (n : Node) : Prop :=
  n.kind = "export" ∧ SaysDefault n.text.toList

/-- The code points of the blank characters. -/
def blankCodes : List Nat :=
  List.range' 0x09 5 ++ List.range' 0x1c 5 ++ [0x85, 0xa0, 0x1680] ++ List.range' 0x2000 11 ++
    [0x2028, 0x2029, 0x202f, 0x205f, 0x3000]

theorem toNat_mem_blankCodes {c : Char} (h : Text.isBlank c = true) : c.toNat ∈ blankCodes := by
  simp only [Text.isBlank, Bool.or_eq_true, Bool.and_eq_true, decide_eq_true_eq, beq_iff_eq] at h
  simp only [blankCodes, List.mem_append, List.mem_range'_1, List.mem_cons, List.not_mem_nil, or_false]
  omega

theorem not_isNamePart_of_isBlank {c : Char} (h : Text.isBlank c = true) : isNamePart c = false := by
  have hall : blankCodes.all (fun n => !isNamePart (Char.ofNat n)) = true := by decide +kernel
  have hc := List.all_eq_true.mp hall c.toNat (toNat_mem_blankCodes h)
  rwa [Char.ofNat_toNat, Bool.not_eq_true'] at hc

/-- The text after the words `export` and `default`. -/
def defaultRest? (value : List Char) : Option (List Char) := do
  let s ← afterWord? "export".toList (Text.trim value)
  let s ← afterBlanks? s
  afterWord? "default".toList s

theorem defaultRest?_eq_some_iff {value rest : List Char} :
    defaultRest? value = some rest ↔ ∃ gap : List Char, Blanks gap ∧
      Text.trim value = "export".toList ++ (gap ++ ("default".toList ++ rest)) := by
  constructor
  · intro h
    obtain ⟨s, hs, hblanks⟩ := Option.bind_eq_some_iff.mp h
    obtain ⟨t, ht, hword⟩ := Option.bind_eq_some_iff.mp hblanks
    obtain ⟨gap, hgap, heq⟩ := exists_of_afterBlanks? ht
    rw [afterWord?_eq_some_iff] at hs hword
    exact ⟨gap, hgap, by rw [hs, heq, hword]⟩
  · rintro ⟨gap, hgap, htrim⟩
    have hword : ("default".toList ++ rest).dropWhile Text.isBlank = "default".toList ++ rest := by
      have hletters : "default".toList = 'd' :: "efault".toList := by decide
      rw [hletters, List.cons_append]
      exact List.dropWhile_cons_of_neg (by decide)
    simp only [defaultRest?, afterWord?_eq_some_iff.mpr htrim, afterBlanks?_append hgap, hword,
      afterWord?_eq_some_iff.mpr rfl, Option.bind_eq_bind, Option.bind_some]

theorem saysDefault_iff {value : List Char} :
    SaysDefault value ↔ (defaultRest? value).any (fun rest => !rest.head?.any isNamePart) = true := by
  rw [Option.any_eq_true]
  constructor
  · rintro ⟨gap, rest, hgap, htrim, hhead⟩
    exact ⟨rest, defaultRest?_eq_some_iff.mpr ⟨gap, hgap, htrim⟩, by rw [hhead]; rfl⟩
  · rintro ⟨rest, hrest, hhead⟩
    obtain ⟨gap, hgap, htrim⟩ := defaultRest?_eq_some_iff.mp hrest
    exact ⟨gap, rest, hgap, htrim, by rwa [Bool.not_eq_true'] at hhead⟩

instance : DecidablePred SaysDefault :=
  fun _ => decidable_of_iff _ saysDefault_iff.symm

instance : DecidablePred ExportsDefault :=
  fun n => inferInstanceAs (Decidable (n.kind = "export" ∧ SaysDefault n.text.toList))

theorem DefaultExport.exportsDefault {n : Node} (h : DefaultExport n) : ExportsDefault n := by
  obtain ⟨hk, gap, gap', rest, hgap, ⟨hne, hblank⟩, htrim⟩ := h
  refine ⟨hk, gap, gap' ++ rest, hgap, htrim, ?_⟩
  cases gap' with
  | nil => exact absurd rfl hne
  | cons c gap' => exact not_isNamePart_of_isBlank (hblank c List.mem_cons_self)

/-! ### The layout -/

/-- The expression of a default export: what follows the words `export` and `default`, without one
semicolon at its end and the blanks before that. -/
def LayoutOf (n : Node) (expression : String) : Prop :=
  ∃ gap gap' tail : List Char, Blanks gap ∧ Blanks gap' ∧
    Text.trim n.text.toList =
      "export".toList ++ (gap ++ ("default".toList ++ (gap' ++ (expression.toList ++ tail)))) ∧
    (tail = [] ∨ ∃ blanks : List Char, (∀ c ∈ blanks, Text.isBlank c = true) ∧ tail = blanks ++ [';'])

theorem exists_withoutSemicolon_append (s : List Char) :
    ∃ tail : List Char, s = withoutSemicolon s ++ tail ∧
      (tail = [] ∨
        ∃ blanks : List Char, (∀ c ∈ blanks, Text.isBlank c = true) ∧ tail = blanks ++ [';']) := by
  rw [withoutSemicolon]
  split
  next hlast =>
    obtain ⟨gap, hgap, hblank⟩ := Script.exists_trimEnd_append s.dropLast
    refine ⟨gap ++ [';'], ?_, .inr ⟨gap, hblank, rfl⟩⟩
    rw [← List.append_assoc, ← hgap]
    exact (List.dropLast_append_getLast? _ hlast).symm
  · exact ⟨[], (List.append_nil s).symm, .inl rfl⟩

theorem defaultExpression?_eq (value : List Char) :
    defaultExpression? value =
      (defaultRest? value).bind fun rest => (afterBlanks? rest).map withoutSemicolon := by
  simp only [defaultExpression?, defaultRest?, Option.bind_eq_bind, Option.bind_assoc,
    Option.pure_def, Option.map_eq_bind]
  rfl

theorem layoutOf_defaultExpression? {n : Node} {e : List Char}
    (h : defaultExpression? n.text.toList = some e) : LayoutOf n (String.ofList e) := by
  rw [defaultExpression?_eq] at h
  obtain ⟨rest, hrest, hmap⟩ := Option.bind_eq_some_iff.mp h
  obtain ⟨s, hs, rfl⟩ := Option.map_eq_some_iff.mp hmap
  obtain ⟨gap, hgap, htrim⟩ := defaultRest?_eq_some_iff.mp hrest
  obtain ⟨gap', hgap', rfl⟩ := exists_of_afterBlanks? hs
  obtain ⟨tail, htail, hend⟩ := exists_withoutSemicolon_append s
  have hexpression : (String.ofList (withoutSemicolon s)).toList = withoutSemicolon s :=
    String.toList_ofList
  refine ⟨gap, gap', tail, hgap, hgap', ?_, hend⟩
  rw [hexpression, ← htail]
  exact htrim

/-- No default export passes for a named one exactly if the generator knows each one. -/
theorem forall_not_saysDefault_iff {cs : List Node} :
    (∀ text ∈ (cs.filter fun n => n.kind = "export" ∧ ¬DefaultExport n).map Node.text,
        ¬SaysDefault text.toList) ↔
      ∀ n ∈ cs, ExportsDefault n ↔ DefaultExport n := by
  constructor
  · refine fun hnone n hn => ⟨?_, DefaultExport.exportsDefault⟩
    rintro ⟨hk, hsays⟩
    by_contra hd
    refine hnone n.text (List.mem_map_of_mem (List.mem_filter.mpr ⟨hn, ?_⟩)) hsays
    exact decide_eq_true ⟨hk, hd⟩
  · intro hknown text htext hsays
    obtain ⟨n, hn, rfl⟩ := List.mem_map.mp htext
    obtain ⟨hmem, hnamed⟩ := List.mem_filter.mp hn
    obtain ⟨hk, hd⟩ := of_decide_eq_true hnamed
    exact hd ((hknown n hmem).mp ⟨hk, hsays⟩)

theorem exists_layoutOf {n : Node} (hd : DefaultExport n) (rest : List Node) :
    ∃ expression : String, LayoutOf n expression ∧
      partsFrom none (n :: rest) = partsFrom (some expression) rest := by
  obtain ⟨hk, hsome⟩ := defaultExport_iff.mp hd
  obtain ⟨e, he⟩ := Option.isSome_iff_exists.mp hsome
  refine ⟨String.ofList e, layoutOf_defaultExpression? he, ?_⟩
  rw [partsFrom.eq_def]
  simp only [hk, he]

/-- **The parts of a document**: the exports that are written out are those that the generator does not
take for default exports, in order, and the layout is the expression of the only one that it does. -/
theorem exports_of_partsFrom {cs : List Node} {parts : Parts} {layout : Option String}
    (h : partsFrom layout cs = .ok parts) :
    parts.exports = (cs.filter fun n => n.kind = "export" ∧ ¬DefaultExport n).map Node.text ∧
      (layout = none →
        List.Forall₂ LayoutOf (cs.filter (DefaultExport ·)) parts.layout.toList) ∧
      ∀ found ∈ layout, parts.layout = some found ∧ cs.filter (DefaultExport ·) = [] := by
  induction cs generalizing layout parts with
  | nil =>
    cases h
    refine ⟨rfl, ?_, fun found hfound => ⟨hfound, rfl⟩⟩
    rintro rfl
    exact .nil
  | cons n rest ih =>
    by_cases hd : DefaultExport n
    · have hskip : ¬(n.kind = "export" ∧ ¬DefaultExport n) := fun hn => hn.2 hd
      rw [List.filter_cons_of_neg (by simpa using hskip), List.filter_cons_of_pos (by simpa using hd)]
      cases layout with
      | some found =>
        rw [(partsFrom_default hd rest).2 found] at h
        cases h
      | none =>
        obtain ⟨expression, hlayout, heq⟩ := exists_layoutOf hd rest
        rw [heq] at h
        obtain ⟨hexports, -, hsame⟩ := ih h
        obtain ⟨hparts, hnil⟩ := hsame expression rfl
        refine ⟨hexports, fun _ => ?_, fun found hfound => (by cases hfound)⟩
        rw [hparts, hnil]
        exact .cons hlayout .nil
    · have hsame : (n :: rest).filter (DefaultExport ·) = rest.filter (DefaultExport ·) :=
        List.filter_cons_of_neg (by simpa using hd)
      rw [hsame]
      -- the parts are those of the rest, with the node added to one of them
      by_cases hk : n.kind = "export"
      · rw [List.filter_cons_of_pos (by simpa using ⟨hk, hd⟩), List.map_cons]
        rw [partsFrom_named hk hd] at h
        obtain ⟨parts', hparts', rfl⟩ := exists_ok_of_map h
        obtain ⟨hexports, hlayout⟩ := ih hparts'
        exact ⟨congrArg (n.text :: ·) hexports, hlayout⟩
      · rw [List.filter_cons_of_neg (by simp [hk])]
        by_cases hc : isContent n = true
        · rw [partsFrom_content hc] at h
          obtain ⟨parts', hparts', rfl⟩ := exists_ok_of_map h
          have hrest := ih hparts'
          exact hrest
        · rw [partsFrom_import ((kind_of_not_isContent hc).resolve_right hk)] at h
          obtain ⟨parts', hparts', rfl⟩ := exists_ok_of_map h
          have hrest := ih hparts'
          exact hrest

/-! ### Generated modules -/

/-- **A default export becomes the layout.**  In every generated module the exports that are written out
are those that are not `export default` with a blank after it, in order, and the layout is the expression
of the only one that is.  So none that is written out is a default export exactly if the default exports
of the document are those with that blank.  With two that have it there is no module. -/
theorem default_export_becomes_layout (runtime : Option String) (tree : Node) :
    (∀ code : String, generate runtime tree = .ok code →
      ∃ (parts : Parts) (rendered : List String), code = moduleText runtime parts rendered ∧
        parts.exports =
          (tree.children.filter fun n => n.kind = "export" ∧ ¬DefaultExport n).map Node.text ∧
        List.Forall₂ LayoutOf (tree.children.filter (DefaultExport ·)) parts.layout.toList ∧
        ((∀ text ∈ parts.exports, ¬SaysDefault text.toList) ↔
          ∀ n ∈ tree.children, ExportsDefault n ↔ DefaultExport n)) ∧
      (2 ≤ tree.children.countP (DefaultExport ·) →
        ∃ e : GenerationError, generate runtime tree = .error (.generation e)) := by
  constructor
  · intro code hcode
    have hroot : tree.kind = "root" := by
      by_contra hno
      rw [generate, if_pos hno] at hcode
      cases hcode
    obtain ⟨parts, rendered, hparts, -, rfl⟩ := exists_of_generate hroot hcode
    obtain ⟨hexports, hlayout, -⟩ := exports_of_partsFrom hparts
    refine ⟨parts, rendered, rfl, hexports, hlayout rfl, ?_⟩
    rw [hexports]
    exact forall_not_saysDefault_iff
  · intro hcount
    by_cases hroot : tree.kind = "root"
    · exact ⟨_, generate_second hroot hcount⟩
    · refine ⟨⟨.notRooted tree.kind, none⟩, ?_⟩
      rw [generate, if_pos hroot]
      rfl

/-- A module's statements, one of them a default export. -/
def oneLayout : Node :=
  .ofChildren
    [.leaf { kind := "import", value := "import a from 'a'" },
     .leaf { kind := "export", value := "export const defaults = 1" },
     .leaf { kind := "export", value := " export\n default\t[a] ;\n" },
     .leaf { kind := "jsx", value := "<a/>" }]

/-- Two default exports. -/
def secondLayout : Node :=
  .ofChildren
    [.leaf { kind := "export", value := "export default a" },
     .leaf { kind := "export", value := "export default b" }]

/-- A default export over two lines is the layout, and of two default exports no module is made. -/
theorem default_export_becomes_layout_brackets :
    (∃ (parts : Parts) (rendered : List String) (expression : String),
      generate none oneLayout = .ok (moduleText none parts rendered) ∧
      parts.exports = ["export const defaults = 1"] ∧
      (∀ text ∈ parts.exports, ¬SaysDefault text.toList) ∧
      parts.layout = some expression ∧ ∃ n ∈ oneLayout.children, LayoutOf n expression) ∧
    2 ≤ secondLayout.children.countP (DefaultExport ·) ∧
    ∃ e : GenerationError, generate none secondLayout = .error (.generation e) := by
  have hknown : ∀ n ∈ oneLayout.children, ExportsDefault n ↔ DefaultExport n := by decide +kernel
  have hcount : 2 ≤ secondLayout.children.countP (DefaultExport ·) := by decide +kernel
  have hok : (generate none oneLayout).isOk = true := by decide +kernel
  obtain ⟨code, hcode⟩ := isOk_iff.mp hok
  obtain ⟨parts, rendered, rfl, hexports, hlayout, hnone⟩ :=
    (default_export_becomes_layout none oneLayout).1 code hcode
  have hnamed : (oneLayout.children.filter fun n => n.kind = "export" ∧ ¬DefaultExport n).map
      Node.text = ["export const defaults = 1"] := by
    decide +kernel
  have hlength : (oneLayout.children.filter (DefaultExport ·)).length = 1 := by decide +kernel
  obtain ⟨n, hn⟩ := List.length_eq_one_iff.mp hlength
  have hmem : n ∈ oneLayout.children := by
    refine (List.mem_filter.mp (?_ : n ∈ oneLayout.children.filter (DefaultExport ·))).1
    rw [hn]
    exact List.mem_cons_self
  rw [hn] at hlayout
  obtain ⟨expression, others, hexpression, -, heq⟩ := List.forall₂_cons_left_iff.mp hlayout
  have hsome : parts.layout = some expression :=
    Option.mem_toList.mp (heq ▸ List.mem_cons_self)
  exact ⟨⟨parts, rendered, expression, hcode, hexports.trans hnamed, hnone.mpr hknown, hsome, n,
    hmem, hexpression⟩, hcount, (default_export_becomes_layout none secondLayout).2 hcount⟩

/-- A default export of an object, with no blank after the word `default`. -/
def tightLayout : Node :=
  .ofChildren [.leaf { kind := "export", value := "export default\x7ba: 1\x7d" }]

/-- A default export that no blank follows is written out, so that the module has two. -/
theorem tight_default_export_is_written_out :
    (∀ n ∈ tightLayout.children, ExportsDefault n) ∧
    generate none tightLayout =
      .ok ("export default\x7ba: 1\x7d\n\n" ++
        "export default (\x7bcomponents, ...props\x7d) => " ++
        "<MDXTag name=\"wrapper\" components=\x7bcomponents\x7d>\n</MDXTag>\n") := by
  constructor
  · decide +kernel
  · exact eq_ok_of_toOption (by decide +kernel)

end Mdx.Module
