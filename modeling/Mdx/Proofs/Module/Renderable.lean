import Mathlib.Data.List.Forall2
import Mdx.Module.Basic
import Mdx.Proofs.Fault.Result
import Mdx.Proofs.Node.Order

/-!
# What can be rendered

Rendering descends through elements and stops at texts, inline code and embedded elements.
`Renderable P n` says that all elements on the way have a sound tag name and that the nodes at which it
stops satisfy `P`; such a node has a rendering (`Renderable.exists_render`), and what holds of all
renderings is proved along them (`Renderable.render_induction`).

A module is generated unless there are two default exports.
-/

namespace Mdx.Module

/-- A tag name that can be written between quotes. -/
def TagSound (tag : String) : Prop :=
  tag ≠ "" ∧ '\x22' ∉ tag.toList

/-- The kinds at which rendering stops. -/
def plainKinds : List String :=
  ["text", "inlineCode", "jsx"]

/-- A node whose elements have sound tag names, and whose other nodes satisfy `P`. -/
inductive Renderable (P : Node → Prop) : Node → Prop
  | plain {n : Node} (hk : n.kind ∈ plainKinds) (hp : P n) : Renderable P n
  | element {n : Node} {tag : String} (hk : n.kind = "element")
      (ht : n.prop? "tagName" = some (.str tag)) (hs : TagSound tag)
      (hc : ∀ c ∈ n.children, Renderable P c) : Renderable P n

/-! ### One node -/

theorem kind_ne_element_of_plain {n : Node} (hk : n.kind ∈ plainKinds) : n.kind ≠ "element" := by
  intro heq
  rw [heq] at hk
  exact absurd hk (by decide)

theorem tagName_eq {h : NodeHead} {tag : String} (ht : h.props.lookup "tagName" = some (.str tag))
    (hne : tag ≠ "") : tagName h = .ok (.str tag) := by
  have hempty : (Json.str tag).isEmpty = false := by
    rw [Json.isEmpty, String.isEmpty_eq_false_iff]
    exact hne
  rw [tagName, ht]
  simp only [hempty, Bool.false_eq_true, if_false]

/-- The rendering of an element with a tag name, from the renderings of its children. -/
theorem render_element {parent : Option String} {n : Node} {tag : String} (hk : n.kind = "element")
    (ht : n.prop? "tagName" = some (.str tag)) (hne : tag ≠ "") (hc : n.children ≠ []) :
    render parent n = do
      let rendered ← renderList (some tag) n.children
      let block ← anyBlock n.children
      return tagAround tag parent (properties n.head) (layout block rendered) := by
  cases n with
  | leaf h => exact absurd rfl hc
  | branch h cs =>
    have hk' : h.kind = "element" := hk
    have hc' : cs.isEmpty = false := List.isEmpty_eq_false_iff.mpr hc
    have ht' : tagName h = .ok (.str tag) := tagName_eq ht hne
    rw [render, if_pos hk', hc', ht']
    rfl

theorem render_empty {parent : Option String} {n : Node} {tag : String} (hk : n.kind = "element")
    (ht : n.prop? "tagName" = some (.str tag)) (hne : tag ≠ "") (hc : n.children = []) :
    render parent n = .ok
      (if voidTags.contains tag then tagOpening tag parent (properties n.head) ++ " />"
        else tagAround tag parent (properties n.head) "") := by
  have hrender : render parent n = renderEmpty parent n.head := by
    cases n with
    | leaf h =>
      have hk' : h.kind = "element" := hk
      rw [render, if_pos hk']
      rfl
    | branch h cs =>
      have hk' : h.kind = "element" := hk
      have hc' : cs = [] := hc
      rw [render, if_pos hk', hc', List.isEmpty_nil, if_pos rfl]
      rfl
  rw [hrender, renderEmpty, tagName_eq ht hne]
  show (if voidTags.contains tag = true then _ else _) = _
  split <;> rfl

/-- The rendering of a node at which rendering stops does not depend on its children. -/
theorem render_plain {parent : Option String} {n : Node} (hk : n.kind ≠ "element") :
    render parent n = renderPlain parent n.head := by
  cases n with
  | leaf h =>
    have hk' : h.kind ≠ "element" := hk
    rw [render, if_neg hk']
    rfl
  | branch h cs =>
    have hk' : h.kind ≠ "element" := hk
    rw [render, if_neg hk']
    rfl

theorem renderPlain_text {parent : Option String} {n : Node} (hk : n.kind = "text") :
    renderPlain parent n.head = .ok (templateGroup n.text) := by
  have hk' : n.head.kind = "text" := hk
  rw [renderPlain, hk']
  rfl

theorem renderPlain_inlineCode {parent : Option String} {n : Node} (hk : n.kind = "inlineCode") :
    renderPlain parent n.head =
      .ok (tagAround "inlineCode" parent (.obj []) (templateGroup n.text)) := by
  have hk' : n.head.kind = "inlineCode" := hk
  rw [renderPlain, hk']
  rfl

theorem renderPlain_jsx {parent : Option String} {n : Node} (hk : n.kind = "jsx") :
    renderPlain parent n.head = .ok n.text := by
  have hk' : n.head.kind = "jsx" := hk
  rw [renderPlain, hk']
  rfl

/-! ### All nodes -/

theorem renderList_eq_ok_iff {parent : Option String} {cs : List Node} {rendered : List String} :
    renderList parent cs = .ok rendered ↔
      List.Forall₂ (fun c r => render parent c = .ok r) cs rendered := by
  induction cs generalizing rendered with
  | nil =>
    rw [renderList, List.forall₂_nil_left_iff]
    exact ⟨fun h => (Except.ok.inj h).symm, fun h => h ▸ rfl⟩
  | cons c rest ih =>
    rw [renderList, List.forall₂_cons_left_iff]
    simp only [← ih]
    cases render parent c with
    | error e => simp [bind, Except.bind]
    | ok r =>
      cases renderList parent rest with
      | error e => simp [bind, Except.bind]
      | ok rs => simp [bind, Except.bind, pure, Except.pure, eq_comm]

theorem exists_renderList {parent : Option String} {cs : List Node}
    (h : ∀ c ∈ cs, ∃ r : String, render parent c = .ok r) :
    ∃ rendered : List String, renderList parent cs = .ok rendered := by
  simp only [renderList_eq_ok_iff]
  induction cs with
  | nil => exact ⟨[], .nil⟩
  | cons c rest ih =>
    obtain ⟨hc, hrest⟩ := List.forall_mem_cons.mp h
    obtain ⟨r, hr⟩ := hc
    obtain ⟨rs, hrs⟩ := ih hrest
    exact ⟨r :: rs, .cons hr hrs⟩

/-- The tag name of a node is a text, if there is one. -/
def TextTag (n : Node) : Prop :=
  ∀ v : Json, n.prop? "tagName" = some v → ∃ tag : String, v = .str tag

theorem Renderable.textTag {P : Node → Prop} {n : Node} (h : Renderable P n)
    (hk : n.kind = "element") : TextTag n := by
  intro v hv
  cases h with
  | plain hplain hp => exact absurd hk (kind_ne_element_of_plain hplain)
  | @element _ tag hk' ht hs hc => exact ⟨tag, Option.some.inj (hv.symm.trans ht)⟩

/-- Whether there is a block among the nodes can be told if the tag names of elements are texts. -/
theorem exists_anyBlock {cs : List Node} (h : ∀ c ∈ cs, c.kind = "element" → TextTag c) :
    ∃ block : Bool, anyBlock cs = .ok block := by
  induction cs with
  | nil => exact ⟨false, rfl⟩
  | cons c rest ih =>
    obtain ⟨hc, hrest⟩ := List.forall_mem_cons.mp h
    obtain ⟨block, hblock⟩ := ih hrest
    rw [anyBlock]
    by_cases hk : c.kind = "element"
    · rw [if_pos hk]
      cases hv : c.prop? "tagName" with
      | none => exact ⟨block, hblock⟩
      | some v =>
        obtain ⟨tag, rfl⟩ := hc hk v hv
        rw [Option.getD_some, tagIn]
        cases blockTags.contains tag with
        | true => exact ⟨true, rfl⟩
        | false => exact ⟨block, hblock⟩
    · exact ⟨block, by rw [if_neg hk, hblock]⟩

/-- **A renderable node has a rendering**, whatever element it stands in. -/
theorem Renderable.exists_render {P : Node → Prop} {n : Node} (h : Renderable P n) :
    ∀ parent : Option String, ∃ r : String, render parent n = .ok r := by
  induction h with
  | @plain n hk hp =>
    intro parent
    rw [render_plain (kind_ne_element_of_plain hk)]
    simp only [plainKinds, List.mem_cons, List.not_mem_nil, or_false] at hk
    rcases hk with hk | hk | hk
    · exact ⟨_, renderPlain_text hk⟩
    · exact ⟨_, renderPlain_inlineCode hk⟩
    · exact ⟨_, renderPlain_jsx hk⟩
  | @element n tag hk ht hs hc ih =>
    intro parent
    by_cases hnil : n.children = []
    · exact ⟨_, render_empty hk ht hs.1 hnil⟩
    · obtain ⟨rendered, hr⟩ := exists_renderList fun c hcm => ih c hcm (some tag)
      obtain ⟨block, hb⟩ := exists_anyBlock fun c hcm => (hc c hcm).textTag
      rw [render_element hk ht hs.1 hnil, hr, hb]
      exact ⟨_, rfl⟩

/-- **Induction along a rendering**: what holds of the renderings of the nodes at which rendering stops,
and of the call for an element if it holds of the renderings of the element's children, holds of every
rendering. -/
theorem Renderable.render_induction {P : Node → Prop} {motive : Node → String → Prop}
    (text : ∀ n : Node, n.kind = "text" → motive n (templateGroup n.text))
    (inlineCode : ∀ (n : Node) (parent : Option String), n.kind = "inlineCode" →
      (∀ p ∈ parent, TagSound p) →
      motive n (tagAround "inlineCode" parent (.obj []) (templateGroup n.text)))
    (jsx : ∀ n : Node, n.kind = "jsx" → P n → motive n n.text)
    (void : ∀ (n : Node) (tag : String) (parent : Option String), n.kind = "element" →
      n.prop? "tagName" = some (.str tag) → TagSound tag → (∀ p ∈ parent, TagSound p) →
      n.children = [] → tag ∈ voidTags →
      motive n (tagOpening tag parent (properties n.head) ++ " />"))
    (element : ∀ (n : Node) (tag : String) (parent : Option String) (block : Bool)
      (rendered : List String), n.kind = "element" → n.prop? "tagName" = some (.str tag) →
      TagSound tag → (∀ p ∈ parent, TagSound p) → (n.children = [] → tag ∉ voidTags) →
      List.Forall₂ motive n.children rendered →
      motive n (tagAround tag parent (properties n.head) (layout block rendered)))
    {n : Node} (h : Renderable P n) :
    ∀ (parent : Option String) (r : String), (∀ p ∈ parent, TagSound p) →
      render parent n = .ok r → motive n r := by
  induction h with
  | @plain n hk hp =>
    intro parent r hparent hr
    rw [render_plain (kind_ne_element_of_plain hk)] at hr
    simp only [plainKinds, List.mem_cons, List.not_mem_nil, or_false] at hk
    rcases hk with hk | hk | hk
    · rw [renderPlain_text hk] at hr
      exact Except.ok.inj hr ▸ text n hk
    · rw [renderPlain_inlineCode hk] at hr
      exact Except.ok.inj hr ▸ inlineCode n parent hk hparent
    · rw [renderPlain_jsx hk] at hr
      exact Except.ok.inj hr ▸ jsx n hk hp
  | @element n tag hk ht hs hc ih =>
    intro parent r hparent hr
    by_cases hnil : n.children = []
    · rw [render_empty hk ht hs.1 hnil] at hr
      obtain rfl := Except.ok.inj hr
      split
      next hv => exact void n tag parent hk ht hs hparent hnil (List.contains_iff_mem.mp hv)
      next hv =>
        -- the call is laid out around no children
        refine element n tag parent false [] hk ht hs hparent (fun _ hm => ?_) (hnil ▸ .nil)
        exact hv (List.contains_iff_mem.mpr hm)
    · rw [render_element hk ht hs.1 hnil] at hr
      obtain ⟨rendered, hrendered, hr⟩ := exists_ok_of_bind hr
      obtain ⟨block, -, hr⟩ := exists_ok_of_bind hr
      obtain rfl := Except.ok.inj hr
      refine element n tag parent block rendered hk ht hs hparent (fun h => absurd h hnil) ?_
      have hchild : ∀ p ∈ some tag, TagSound p := fun p hp => Option.mem_some_iff.mp hp ▸ hs
      have hall := List.forall₂_and_left n.children rendered |>.mpr
        ⟨fun c hcm => hcm, renderList_eq_ok_iff.mp hrendered⟩
      exact hall.imp fun c r h => ih c h.1 (some tag) r hchild h.2

/-! ### Default exports -/

/-- Characters that are blanks, at least one. -/
def Blanks (s : List Char) : Prop :=
  s ≠ [] ∧ ∀ c ∈ s, Text.isBlank c = true

/-- An export whose text, without blanks around it, is the words `export` and `default` with blanks
after each, and whatever follows. -/
def DefaultExport (n : Node) : Prop :=
  n.kind = "export" ∧ ∃ gap gap' rest : List Char, Blanks gap ∧ Blanks gap' ∧
    Text.trim n.text.toList =
      "export".toList ++ (gap ++ ("default".toList ++ (gap' ++ rest)))

theorem afterWord?_eq_some_iff {word s r : List Char} :
    afterWord? word s = some r ↔ s = word ++ r := by
  rw [afterWord?]
  constructor
  · intro h
    split at h
    next hpre =>
      obtain ⟨t, rfl⟩ := List.isPrefixOf_iff_prefix.mp hpre
      rw [List.drop_left] at h
      rw [Option.some.inj h]
    · cases h
  · rintro rfl
    rw [if_pos (List.isPrefixOf_iff_prefix.mpr (List.prefix_append word r)), List.drop_left]

theorem exists_of_afterBlanks? {s r : List Char} (h : afterBlanks? s = some r) :
    ∃ gap : List Char, Blanks gap ∧ s = gap ++ r := by
  cases s with
  | nil => cases h
  | cons c rest =>
    rw [afterBlanks?] at h
    split at h
    next hc =>
      cases h
      refine ⟨c :: rest.takeWhile Text.isBlank, ⟨List.cons_ne_nil _ _, ?_⟩, ?_⟩
      · refine List.forall_mem_cons.mpr ⟨hc, fun d hd => ?_⟩
        exact List.all_eq_true.mp List.all_takeWhile d hd
      · rw [List.cons_append, List.takeWhile_append_dropWhile]
    · cases h

theorem afterBlanks?_append {gap s : List Char} (h : Blanks gap) :
    afterBlanks? (gap ++ s) = some (s.dropWhile Text.isBlank) := by
  obtain ⟨hne, hall⟩ := h
  cases gap with
  | nil => exact absurd rfl hne
  | cons c gap =>
    obtain ⟨hc, hgap⟩ := List.forall_mem_cons.mp hall
    rw [List.cons_append, afterBlanks?, if_pos hc, List.dropWhile_append_of_pos hgap]

/-- **The generator tells default exports as they are written.** -/
theorem isSome_defaultExpression?_iff {value : List Char} :
    (defaultExpression? value).isSome = true ↔
      ∃ gap gap' rest : List Char, Blanks gap ∧ Blanks gap' ∧
        Text.trim value = "export".toList ++ (gap ++ ("default".toList ++ (gap' ++ rest))) := by
  constructor
  · intro h
    obtain ⟨e, he⟩ := Option.isSome_iff_exists.mp h
    rw [defaultExpression?] at he
    obtain ⟨s, hs, he⟩ := Option.bind_eq_some_iff.mp he
    obtain ⟨t, ht, he⟩ := Option.bind_eq_some_iff.mp he
    obtain ⟨u, hu, he⟩ := Option.bind_eq_some_iff.mp he
    obtain ⟨v, hv, -⟩ := Option.bind_eq_some_iff.mp he
    obtain ⟨gap, hgap, rfl⟩ := exists_of_afterBlanks? ht
    obtain ⟨gap', hgap', rfl⟩ := exists_of_afterBlanks? hv
    rw [afterWord?_eq_some_iff] at hs hu
    exact ⟨gap, gap', v, hgap, hgap', by rw [hs, hu]⟩
  · rintro ⟨gap, gap', rest, hgap, hgap', htrim⟩
    have hword : ("default".toList ++ (gap' ++ rest)).dropWhile Text.isBlank =
        "default".toList ++ (gap' ++ rest) := by
      have hletters : "default".toList = 'd' :: "efault".toList := by decide
      rw [hletters, List.cons_append]
      exact List.dropWhile_cons_of_neg (by decide)
    simp only [defaultExpression?, afterWord?_eq_some_iff.mpr htrim, afterBlanks?_append hgap, hword,
      afterWord?_eq_some_iff.mpr rfl, afterBlanks?_append hgap', Option.bind_eq_bind,
      Option.bind_some, Option.pure_def, Option.isSome_some]

theorem defaultExport_iff {n : Node} :
    DefaultExport n ↔ n.kind = "export" ∧ (defaultExpression? n.text.toList).isSome = true := by
  rw [isSome_defaultExpression?_iff, DefaultExport]

instance : DecidablePred DefaultExport :=
  fun _ => decidable_of_iff _ defaultExport_iff.symm

theorem defaultExpression?_eq_none {n : Node} (hk : n.kind = "export") (hd : ¬DefaultExport n) :
    defaultExpression? n.text.toList = none := by
  rw [← Option.not_isSome_iff_eq_none]
  exact fun hsome => hd (defaultExport_iff.mpr ⟨hk, hsome⟩)

/-! ### The parts of a document -/

/-- Whether a top-level node is rendered, and not a statement. -/
def isContent (n : Node) : Bool :=
  n.kind != "import" && n.kind != "export"

theorem kind_of_not_isContent {n : Node} (h : ¬isContent n = true) :
    n.kind = "import" ∨ n.kind = "export" := by
  rw [isContent, Bool.and_eq_true, bne_iff_ne, bne_iff_ne] at h
  by_contra hno
  exact h (not_or.mp hno)

section Parts

variable {layout : Option String} {n : Node} {rest : List Node}

theorem partsFrom_import (hk : n.kind = "import") :
    partsFrom layout (n :: rest) =
      (partsFrom layout rest).map fun p => { p with imports := n.text :: p.imports } := by
  rw [partsFrom.eq_def]
  simp only [hk]
  cases partsFrom layout rest <;> rfl

theorem partsFrom_named (hk : n.kind = "export") (hd : ¬DefaultExport n) :
    partsFrom layout (n :: rest) =
      (partsFrom layout rest).map fun p => { p with exports := n.text :: p.exports } := by
  rw [partsFrom.eq_def]
  simp only [hk, defaultExpression?_eq_none hk hd]
  cases partsFrom layout rest <;> rfl

theorem partsFrom_default (hd : DefaultExport n) (rest : List Node) :
    (∃ expression : String,
      partsFrom none (n :: rest) = partsFrom (some expression) rest) ∧
    ∀ found : String,
      partsFrom (some found) (n :: rest) = .error (.generation ⟨.secondDefault, none⟩) := by
  obtain ⟨hk, hsome⟩ := defaultExport_iff.mp hd
  obtain ⟨e, he⟩ := Option.isSome_iff_exists.mp hsome
  constructor
  · refine ⟨String.ofList e, ?_⟩
    rw [partsFrom.eq_def]
    simp only [hk, he]
  · intro found
    rw [partsFrom.eq_def]
    simp only [hk, he]

theorem partsFrom_content (hc : isContent n = true) :
    partsFrom layout (n :: rest) =
      (partsFrom layout rest).map fun p => { p with body := n :: p.body } := by
  rw [isContent, Bool.and_eq_true, bne_iff_ne, bne_iff_ne] at hc
  rw [partsFrom.eq_def]
  dsimp only
  split
  next hk => exact absurd hk hc.1
  next hk => exact absurd hk hc.2
  · cases partsFrom layout rest <;> rfl

/-- **A document has parts if it has at most one default export**, one found before counted in; what is
rendered is all but the statements. -/
theorem exists_partsFrom {cs : List Node} (layout : Option String)
    (h : layout.toList.length + cs.countP (DefaultExport ·) ≤ 1) :
    ∃ parts : Parts, partsFrom layout cs = .ok parts ∧ parts.body = cs.filter isContent := by
  induction cs generalizing layout with
  | nil => exact ⟨{ layout := layout }, rfl, rfl⟩
  | cons n rest ih =>
    rw [List.countP_cons] at h
    by_cases hd : DefaultExport n
    · -- The layout is found here, so there was none before and there is none after.
      have hnone : layout = none := by
        cases layout with
        | none => rfl
        | some found =>
          simp only [hd, decide_true, if_true, Option.toList_some, List.length_singleton] at h
          omega
      subst hnone
      obtain ⟨expression, heq⟩ := (partsFrom_default hd rest).1
      simp only [hd, decide_true, if_true, Option.toList_none, List.length_nil] at h
      obtain ⟨parts, hparts, hbody⟩ := ih (some expression)
        (by rw [Option.toList_some, List.length_singleton]; omega)
      have hskip : isContent n = false := by rw [isContent, hd.1]; rfl
      exact ⟨parts, by rw [heq, hparts], by rw [hbody, List.filter_cons_of_neg (by simp [hskip])]⟩
    · simp only [hd, decide_false, Bool.false_eq_true, if_false, Nat.add_zero] at h
      obtain ⟨parts, hparts, hbody⟩ := ih layout h
      by_cases hc : isContent n = true
      · refine ⟨{ parts with body := n :: parts.body }, ?_, ?_⟩
        · rw [partsFrom_content hc, hparts]
          rfl
        · rw [List.filter_cons_of_pos hc, ← hbody]
      · rw [List.filter_cons_of_neg hc]
        rcases kind_of_not_isContent hc with hk | hk
        · exact ⟨{ parts with imports := n.text :: parts.imports },
            by rw [partsFrom_import hk, hparts]; rfl, hbody⟩
        · exact ⟨{ parts with exports := n.text :: parts.exports },
            by rw [partsFrom_named hk hd, hparts]; rfl, hbody⟩

theorem partsFrom_second {cs : List Node} (layout : Option String)
    (h : 2 ≤ layout.toList.length + cs.countP (DefaultExport ·)) :
    partsFrom layout cs = .error (.generation ⟨.secondDefault, none⟩) := by
  induction cs generalizing layout with
  | nil =>
    rw [List.countP_nil] at h
    cases layout with
    | none => exact absurd h (by decide)
    | some found => exact absurd h (by rw [Option.toList_some, List.length_singleton]; decide)
  | cons n rest ih =>
    rw [List.countP_cons] at h
    by_cases hd : DefaultExport n
    · cases layout with
      | some found => exact (partsFrom_default hd rest).2 found
      | none =>
        obtain ⟨expression, heq⟩ := (partsFrom_default hd rest).1
        simp only [hd, decide_true, if_true, Option.toList_none, List.length_nil] at h
        rw [heq]
        exact ih (some expression) (by rw [Option.toList_some, List.length_singleton]; omega)
    · simp only [hd, decide_false, Bool.false_eq_true, if_false, Nat.add_zero] at h
      by_cases hc : isContent n = true
      · rw [partsFrom_content hc, ih layout h]
        rfl
      · rcases kind_of_not_isContent hc with hk | hk
        · rw [partsFrom_import hk, ih layout h]
          rfl
        · rw [partsFrom_named hk hd, ih layout h]
          rfl

theorem body_of_partsFrom {cs : List Node} {parts : Parts} (h : partsFrom none cs = .ok parts) :
    parts.body = cs.filter isContent := by
  by_cases hcount : cs.countP (DefaultExport ·) ≤ 1
  · obtain ⟨parts', hparts', hbody⟩ := exists_partsFrom none (by simpa using hcount)
    obtain rfl := Except.ok.inj (hparts'.symm.trans h)
    exact hbody
  · have hsecond : 2 ≤ cs.countP (DefaultExport ·) := Nat.lt_of_not_le hcount
    rw [partsFrom_second none (by simpa using hsecond)] at h
    cases h

end Parts

/-! ### Modules -/

/-- Lines one under the other, each with its line feed. -/
def written : List String → String
  | [] => ""
  | line :: rest => line ++ "\n" ++ written rest

/-- Lines with an empty one after them, if there are any. -/
def spaced (lines : List String) : List String :=
  if lines.isEmpty then [] else lines ++ [""]

/-- The import of the component, unless no module is named that it comes from. -/
def componentImport (runtime : Option String) : List String :=
  (runtime.toList.filter (· ≠ "")).map fun name => "import \x7b MDXTag \x7d from '" ++ name ++ "'"

/-- The first line of the component. -/
def componentOpening (layout : Option String) : String :=
  "export default (\x7bcomponents, ...props\x7d) => <MDXTag name=\"wrapper\"" ++
    layout.elim "" (fun _ => " Layout=\x7bMDXLayout\x7d layoutProps=\x7bprops\x7d") ++
    " components=\x7bcomponents\x7d>"

/-- The text of a module, from its parts and the renderings of what is rendered: the imports, the
exports, the layout and the component, divided by empty lines.  The component holds the renderings, one
on a line, but an empty rendering that is the only one is left out. -/
def moduleText (runtime : Option String) (parts : Parts) (rendered : List String) : String :=
  written
    (spaced (componentImport runtime ++ parts.imports) ++ (spaced parts.exports ++
      (spaced (parts.layout.toList.map ("const MDXLayout = " ++ ·)) ++
        (componentOpening parts.layout :: ((if rendered = [""] then [] else rendered) ++
          ["</MDXTag>"])))))

theorem written_append (lines lines' : List String) :
    written (lines ++ lines') = written lines ++ written lines' := by
  induction lines with
  | nil => rw [List.nil_append, written, String.empty_append]
  | cons line rest ih =>
    rw [List.cons_append, written, written, ih]
    simp only [String.append_assoc]

theorem intercalate_lineFeed {lines : List String} (h : lines ≠ []) :
    "\n".intercalate lines ++ "\n" = written lines := by
  induction lines with
  | nil => exact absurd rfl h
  | cons line rest ih =>
    cases rest with
    | nil => rw [String.intercalate_singleton, written, written, String.append_empty]
    | cons next rest =>
      rw [String.intercalate_cons_cons, written, String.append_assoc, ih (List.cons_ne_nil _ _)]

theorem intercalate_eq_empty_iff {lines : List String} :
    "\n".intercalate lines = "" ↔ lines = [] ∨ lines = [""] := by
  cases lines with
  | nil => exact ⟨fun _ => .inl rfl, fun _ => rfl⟩
  | cons line rest =>
    cases rest with
    | nil => simp
    | cons next rest => simp [String.intercalate_cons_cons]

/-- Texts divided by empty lines are texts with an empty line after each but the last. -/
theorem intercalate_sections (texts : List String) (last : String) :
    "\n\n".intercalate (texts ++ [last]) = String.join (texts.map (· ++ "\n\n")) ++ last := by
  induction texts with
  | nil => rw [List.nil_append, String.intercalate_singleton, List.map_nil, String.join_nil,
      String.empty_append]
  | cons text rest ih =>
    rw [List.cons_append, String.intercalate_cons_of_ne_nil (by simp), ih, List.map_cons,
      String.join_cons]
    simp only [String.append_assoc]

theorem join_joinLines (lines : List String) :
    String.join ((joinLines lines).map (· ++ "\n\n")) = written (spaced lines) := by
  rw [joinLines, spaced]
  by_cases h : lines = []
  · rw [h]
    rfl
  · have hlines : lines.isEmpty = false := by simpa using h
    have htwo : "\n\n" = "\n" ++ "\n" := by decide
    rw [if_neg (by rw [hlines]; decide), if_neg (by rw [hlines]; decide), List.map_singleton,
      String.join_cons, String.join_nil, String.append_empty, htwo, ← String.append_assoc,
      intercalate_lineFeed h, written_append, written, written, String.append_empty,
      String.empty_append]

theorem component_eq (layout : Option String) (rendered : List String) :
    component layout ("\n".intercalate rendered) ++ "\n" =
      written (componentOpening layout :: ((if rendered = [""] then [] else rendered) ++
        ["</MDXTag>"])) := by
  have hcontent : (if ("\n".intercalate rendered).isEmpty then "" else
      "\n".intercalate rendered ++ "\n") = written (if rendered = [""] then [] else rendered) := by
    by_cases h : "\n".intercalate rendered = ""
    · rw [if_pos (String.isEmpty_iff.mpr h)]
      rcases intercalate_eq_empty_iff.mp h with rfl | rfl
      · rw [ite_self, written]
      · rw [if_pos rfl, written]
    · have hne := not_or.mp (mt intercalate_eq_empty_iff.mpr h)
      rw [if_neg (mt String.isEmpty_iff.mp h), if_neg hne.2, intercalate_lineFeed hne.1]
  have hline : " components=\x7bcomponents\x7d>\n" = " components=\x7bcomponents\x7d>" ++ "\n" := by
    decide
  unfold component componentOpening
  simp only [hcontent, hline, written, written_append, String.append_assoc, String.append_empty]
  cases layout <;> rfl

/-- **The sections of a module are its lines**, divided by empty ones. -/
theorem intercalate_moduleText (runtime : Option String) (parts : Parts) (rendered : List String)
    {layout : List String} (hlayout : layout = parts.layout.toList.map ("const MDXLayout = " ++ ·)) :
    "\n\n".intercalate
        (joinLines (runtimeImport runtime ++ parts.imports) ++ joinLines parts.exports ++ layout ++
          [component parts.layout ("\n".intercalate rendered)]) ++ "\n" =
      moduleText runtime parts rendered := by
  have himport : runtimeImport runtime = componentImport runtime := by
    cases runtime with
    | none => rfl
    | some name => by_cases h : name = "" <;> simp [runtimeImport, componentImport, h]
  rw [intercalate_sections, String.append_assoc, component_eq, List.map_append, List.map_append,
    String.join_append, String.join_append, join_joinLines, join_joinLines, himport, moduleText,
    written_append, written_append, written_append]
  rw [hlayout]
  cases parts.layout <;> simp [spaced, written, String.append_assoc]

/-- A module is generated in two steps that may fail. -/
theorem generate_eq (runtime : Option String) {tree : Node} (hroot : tree.kind = "root") :
    generate runtime tree =
      (partsFrom none tree.children).bind fun parts =>
        (renderList none parts.body).map (moduleText runtime parts) := by
  rw [generate, if_neg (not_not_intro hroot)]
  cases partsFrom none tree.children with
  | error e => rfl
  | ok parts =>
    show (renderList none parts.body).bind _ = (renderList none parts.body).map _
    cases renderList none parts.body with
    | error e => rfl
    | ok rendered =>
      refine congrArg Except.ok (intercalate_moduleText runtime parts rendered ?_)
      cases parts.layout <;> rfl

/-- What a generated module is made of. -/
theorem exists_of_generate {runtime : Option String} {tree : Node} {code : String}
    (hroot : tree.kind = "root") (h : generate runtime tree = .ok code) :
    ∃ (parts : Parts) (rendered : List String), partsFrom none tree.children = .ok parts ∧
      renderList none parts.body = .ok rendered ∧ code = moduleText runtime parts rendered := by
  rw [generate_eq runtime hroot] at h
  obtain ⟨parts, hparts, h⟩ := exists_ok_of_bind h
  obtain ⟨rendered, hrendered, hcode⟩ := exists_ok_of_map h
  exact ⟨parts, rendered, hparts, hrendered, hcode.symm⟩

/-- **A module is generated if there is at most one default export** and all that is rendered has a
rendering. -/
theorem exists_generate (runtime : Option String) {tree : Node} (hroot : tree.kind = "root")
    (hcount : tree.children.countP (DefaultExport ·) ≤ 1)
    (hr : ∀ c ∈ tree.children, isContent c = true → ∃ r : String, render none c = .ok r) :
    ∃ code : String, generate runtime tree = .ok code := by
  obtain ⟨parts, hparts, hbody⟩ := exists_partsFrom none (by simpa using hcount)
  have hall : ∀ c ∈ parts.body, ∃ r : String, render none c = .ok r := by
    intro c hc
    rw [hbody, List.mem_filter] at hc
    exact hr c hc.1 hc.2
  obtain ⟨rendered, hrendered⟩ := exists_renderList hall
  refine ⟨moduleText runtime parts rendered, ?_⟩
  rw [generate_eq runtime hroot, hparts, Except.bind, hrendered]
  rfl

theorem generate_second {runtime : Option String} {tree : Node} (hroot : tree.kind = "root")
    (hcount : 2 ≤ tree.children.countP (DefaultExport ·)) :
    generate runtime tree = .error (.generation ⟨.secondDefault, none⟩) := by
  rw [generate_eq runtime hroot, partsFrom_second none (by simpa using hcount)]
  rfl

end Mdx.Module
