import Mdx.Proofs.Module.Renderable
import Mdx.Proofs.Node.Reach

/-!
# Trees for which no module is generated

Rendering starts at the top-level nodes that are no statements and goes from elements to their children
(`Rendered`).  It fails if it comes to a node that cannot be written (`Unwritable`), wherever that is;
besides, the generator refuses trees whose top is not a root and documents with two default exports.
There are no other reasons: `FailsWhen P` says of a computation that it fails if `P` holds and has a
result otherwise, and each step of the generator gets its condition (`failsWhen_render`,
`failsWhen_partsFrom`, `failsWhen_generate`).

What is below a node at which rendering stops can be cut off (`pruned`) without a change to the module
or to the error.
-/

namespace Mdx.Module

open Mdx.Node (Reaches exists_reaches_iff)

/-! ### Computations that fail under a condition -/

/-- If the condition holds, the computation fails with an error of generation; otherwise it has a
result. -/
def FailsWhen {α : Type} (P : Prop) (r : Except Failure α) : Prop :=
  (P → ∃ e : GenerationError, r = .error (.generation e)) ∧ (¬P → ∃ a : α, r = .ok a)

namespace FailsWhen

variable {α β : Type} {P Q : Prop} {r : Except Failure α}

theorem ok (hno : ¬P) (a : α) : FailsWhen P (.ok a : Except Failure α) :=
  ⟨fun hp => absurd hp hno, fun _ => ⟨a, rfl⟩⟩

theorem error (hp : P) (e : GenerationError) :
    FailsWhen P (.error (.generation e) : Except Failure α) :=
  ⟨fun _ => ⟨e, rfl⟩, fun hno => absurd hp hno⟩

theorem congr (h : FailsWhen P r) (hiff : Q ↔ P) : FailsWhen Q r :=
  ⟨fun hq => h.1 (hiff.mp hq), fun hno => h.2 fun hp => hno (hiff.mpr hp)⟩

theorem bind {f : α → Except Failure β} (h : FailsWhen P r)
    (hf : ∀ a : α, r = .ok a → FailsWhen Q (f a)) : FailsWhen (P ∨ Q) (r >>= f) := by
  by_cases hp : P
  · obtain ⟨e, rfl⟩ := h.1 hp
    exact .error (.inl hp) e
  · obtain ⟨a, rfl⟩ := h.2 hp
    exact (hf a rfl).congr (or_iff_right hp)

theorem bind_pure {f : α → β} (h : FailsWhen P r) : FailsWhen P (r >>= fun a => pure (f a)) :=
  (h.bind fun a _ => .ok not_false (f a)).congr (or_iff_left not_false).symm

theorem map {f : α → β} (h : FailsWhen P r) : FailsWhen P (r.map f) := by
  by_cases hp : P
  · obtain ⟨e, rfl⟩ := h.1 hp
    exact .error hp e
  · obtain ⟨a, rfl⟩ := h.2 hp
    exact .ok hp (f a)

theorem error_iff (h : FailsWhen P r) : (∃ e : GenerationError, r = .error (.generation e)) ↔ P := by
  refine ⟨fun hfails => ?_, h.1⟩
  obtain ⟨e, rfl⟩ := hfails
  by_contra hp
  obtain ⟨a, ha⟩ := h.2 hp
  cases ha

theorem ok_iff (h : FailsWhen P r) : (∃ a : α, r = .ok a) ↔ ¬P := by
  refine ⟨fun hok hp => ?_, h.2⟩
  obtain ⟨a, rfl⟩ := hok
  obtain ⟨e, he⟩ := h.1 hp
  cases he

end FailsWhen

/-! ### Rendered nodes -/

/-- Whether a value is a text. -/
def isText : Json → Bool
  | .str _ => true
  | _ => false

theorem textTag_iff {n : Node} : TextTag n ↔ (n.prop? "tagName").all isText = true := by
  rw [TextTag]
  cases n.prop? "tagName" with
  | none => simp
  | some v => cases v <;> simp [isText]

instance : DecidablePred TextTag :=
  fun _ => decidable_of_iff _ textTag_iff.symm

/-- Rendering goes from the first node to the second: through the children of elements. -/
def RendersTo (n x : Node) : Prop :=
  Reaches (fun m => m.kind = "element") n x

/-- A node that rendering comes to: a top-level node that is no statement, or a child, at any depth, of
an element that it comes to. -/
def Rendered (tree x : Node) : Prop :=
  ∃ c ∈ tree.children, isContent c = true ∧ RendersTo c x

/-- A node that cannot be written. -/
inductive Unwritable (n : Node) : Prop
  /-- It is of a kind that is not rendered. -/
  | kind (hplain : n.kind ∉ plainKinds) (helement : n.kind ≠ "element")
  /-- It is an element without a tag name. -/
  | missing (hk : n.kind = "element") (ht : n.prop? "tagName" = none)
  /-- It is an element whose tag name is empty. -/
  | empty (hk : n.kind = "element") (ht : n.prop? "tagName" = some (.str ""))

section Unwritable

variable {n : Node}

theorem not_unwritable_of_plain (hk : n.kind ∈ plainKinds) : ¬Unwritable n := by
  intro hu
  cases hu with
  | kind hplain helement => exact hplain hk
  | missing he ht => exact kind_ne_element_of_plain hk he
  | empty he ht => exact kind_ne_element_of_plain hk he

theorem not_unwritable_of_tag {tag : String} (hk : n.kind = "element")
    (ht : n.prop? "tagName" = some (.str tag)) (hne : tag ≠ "") : ¬Unwritable n := by
  intro hu
  cases hu with
  | kind hplain helement => exact helement hk
  | missing he hnone =>
    rw [ht] at hnone
    cases hnone
  | empty he hempty =>
    rw [ht] at hempty
    cases hempty
    exact hne rfl

/-- A node whose tag name is a text, if it has one, is of a kind at which rendering stops, or an element
with a tag name, or cannot be written. -/
theorem writable_cases (ht : TextTag n) :
    n.kind ∈ plainKinds ∨
      (n.kind = "element" ∧ ∃ tag : String, n.prop? "tagName" = some (.str tag) ∧ tag ≠ "") ∨
      Unwritable n := by
  by_cases hplain : n.kind ∈ plainKinds
  · exact .inl hplain
  by_cases helement : n.kind = "element"
  · cases hv : n.prop? "tagName" with
    | none => exact .inr (.inr (.missing helement hv))
    | some v =>
      obtain ⟨tag, rfl⟩ := ht v hv
      by_cases hempty : tag = ""
      · exact .inr (.inr (.empty helement (by rw [hv, hempty])))
      · exact .inr (.inl ⟨helement, tag, rfl, hempty⟩)
  · exact .inr (.inr (.kind hplain helement))

theorem renderPlain_unwritable (parent : Option String) {h : NodeHead} (hk : h.kind ∉ plainKinds) :
    ∃ e : GenerationError, renderPlain parent h = .error (.generation e) := by
  unfold renderPlain
  split
  next htext => exact absurd (by rw [htext]; decide) hk
  next hcode => exact absurd (by rw [hcode]; decide) hk
  next hjsx => exact absurd (by rw [hjsx]; decide) hk
  · exact ⟨_, rfl⟩
  · exact ⟨_, rfl⟩
  · exact ⟨_, rfl⟩

/-- An element is not rendered without its tag name, whether it has children or not. -/
theorem render_unnamed {parent : Option String} {f : Failure} (hk : n.kind = "element")
    (ht : tagName n.head = .error f) : render parent n = .error f := by
  have hempty : renderEmpty parent n.head = .error f := by
    rw [renderEmpty, ht]
    rfl
  cases n with
  | leaf h =>
    have hk' : h.kind = "element" := hk
    rw [render, if_pos hk']
    exact hempty
  | branch h cs =>
    have hk' : h.kind = "element" := hk
    have ht' : tagName h = .error f := ht
    rw [render, if_pos hk']
    split
    · exact hempty
    · rw [ht']
      rfl

theorem Unwritable.error_render (h : Unwritable n) (parent : Option String) :
    ∃ e : GenerationError, render parent n = .error (.generation e) := by
  have hprop : n.prop? "tagName" = n.head.props.lookup "tagName" := rfl
  cases h with
  | kind hplain helement =>
    rw [render_plain helement]
    exact renderPlain_unwritable parent hplain
  | missing hk ht =>
    refine ⟨⟨.missingTagName, n.head.position⟩, render_unnamed hk ?_⟩
    rw [tagName, ← hprop, ht]
  | empty hk ht =>
    refine ⟨⟨.missingTagName, n.head.position⟩, render_unnamed hk ?_⟩
    rw [tagName, ← hprop, ht]
    rfl

end Unwritable

/-! ### Rendering -/

theorem failsWhen_renderList {parent : Option String} {P : Node → Prop} {cs : List Node}
    (h : ∀ c ∈ cs, FailsWhen (P c) (render parent c)) :
    FailsWhen (∃ c ∈ cs, P c) (renderList parent cs) := by
  induction cs with
  | nil =>
    rw [renderList]
    refine .ok ?_ []
    rintro ⟨c, hc, -⟩
    cases hc
  | cons c rest ih =>
    obtain ⟨hc, hrest⟩ := List.forall_mem_cons.mp h
    rw [renderList]
    exact (hc.bind fun first _ => (ih hrest).bind_pure).congr
      (List.exists_mem_cons_iff P c rest)

/-- **A node is rendered unless rendering comes from it to a node that cannot be written.**  The tag names
in it are texts, or else the search for blocks may fail in another way. -/
theorem failsWhen_render {n : Node} (hs : ∀ x ∈ n.flatten, TextTag x) (parent : Option String) :
    FailsWhen (∃ x : Node, RendersTo n x ∧ Unwritable x) (render parent n) := by
  induction n using Node.induction generalizing parent with
  | step n ih =>
    have hchildren : ∀ c ∈ n.children, ∀ x ∈ c.flatten, TextTag x :=
      fun c hc x hx => hs x (Node.mem_flatten.mpr (.inr ⟨c, hc, hx⟩))
    refine FailsWhen.congr ?_ exists_reaches_iff
    rcases writable_cases (hs n (Node.mem_flatten.mpr (.inl rfl))) with
      hplain | ⟨hk, tag, ht, hne⟩ | hu
    -- rendering stops at the node and comes to no other
    · have hno : ¬(Unwritable n ∨ n.kind = "element" ∧
          ∃ c ∈ n.children, ∃ x : Node, RendersTo c x ∧ Unwritable x) := by
        rintro (hu | ⟨hk, -⟩)
        · exact not_unwritable_of_plain hplain hu
        · exact kind_ne_element_of_plain hplain hk
      obtain ⟨r, hr⟩ := (Renderable.plain (P := fun _ => True) hplain trivial).exists_render parent
      rw [hr]
      exact .ok hno r
    -- the node can be written, so the error comes of its children
    · refine FailsWhen.congr ?_ ((or_iff_right (not_unwritable_of_tag hk ht hne)).trans (and_iff_right hk))
      by_cases hnil : n.children = []
      · rw [render_empty hk ht hne hnil]
        refine .ok ?_ _
        rintro ⟨c, hc, -⟩
        rw [hnil] at hc
        cases hc
      · obtain ⟨block, hblock⟩ := exists_anyBlock fun c hc _ =>
          hchildren c hc c (Node.mem_flatten.mpr (.inl rfl))
        rw [render_element hk ht hne hnil, hblock]
        exact (failsWhen_renderList fun c hc => ih c hc (hchildren c hc) (some tag)).bind_pure
    · obtain ⟨e, he⟩ := hu.error_render parent
      rw [he]
      exact .error (.inl hu) e

theorem failsWhen_partsFrom (cs : List Node) :
    FailsWhen (2 ≤ cs.countP (DefaultExport ·)) (partsFrom none cs) := by
  constructor
  · intro hcount
    exact ⟨_, partsFrom_second none (by simpa using hcount)⟩
  · intro hcount
    obtain ⟨parts, hparts, -⟩ := exists_partsFrom none
      (by simpa using Nat.le_of_lt_succ (Nat.lt_of_not_le hcount))
    exact ⟨parts, hparts⟩

/-- **A module is generated** unless the top is not a root, there are two default exports, or a node that
is rendered cannot be written. -/
theorem failsWhen_generate (runtime : Option String) {tree : Node}
    (htags : ∀ n ∈ tree.flatten, TextTag n) :
    FailsWhen (tree.kind ≠ "root" ∨ 2 ≤ tree.children.countP (DefaultExport ·) ∨
      ∃ x : Node, Rendered tree x ∧ Unwritable x) (generate runtime tree) := by
  by_cases hroot : tree.kind = "root"
  · have hchildren : ∀ c ∈ tree.children, ∀ x ∈ c.flatten, TextTag x :=
      fun c hc x hx => htags x (Node.mem_flatten.mpr (.inr ⟨c, hc, hx⟩))
    refine FailsWhen.congr ?_ (or_iff_right (not_not_intro hroot))
    rw [generate_eq runtime hroot]
    refine (failsWhen_partsFrom tree.children).bind fun parts hparts => ?_
    rw [body_of_partsFrom hparts]
    refine FailsWhen.congr (failsWhen_renderList fun c hc =>
      failsWhen_render (hchildren c (List.mem_filter.mp hc).1) none).map ?_
    simp only [Rendered, List.mem_filter]
    constructor
    · rintro ⟨x, ⟨c, hc, hcontent, hx⟩, hu⟩
      exact ⟨c, ⟨hc, hcontent⟩, x, hx, hu⟩
    · rintro ⟨c, ⟨hc, hcontent⟩, x, hx, hu⟩
      exact ⟨x, ⟨c, hc, hcontent, hx⟩, hu⟩
  · rw [generate, if_pos hroot]
    exact .error (.inl hroot) _

/-! ### What is below texts -/

mutual

/-- A node without what is below the nodes in it at which rendering stops. -/
def pruned : Node → Node
  | .leaf h => .leaf h
  | .branch h cs => if h.kind ∈ plainKinds then .leaf h else .branch h (prunedList cs)

/-- Nodes without what is below the nodes in them at which rendering stops. -/
def prunedList : List Node → List Node
  | [] => []
  | n :: rest => pruned n :: prunedList rest

end

theorem head_pruned (n : Node) : (pruned n).head = n.head := by
  cases n with
  | leaf h => rw [pruned]
  | branch h cs =>
    rw [pruned]
    split <;> rfl

theorem kind_pruned (n : Node) : (pruned n).kind = n.kind :=
  congrArg NodeHead.kind (head_pruned n)

theorem text_pruned (n : Node) : (pruned n).text = n.text :=
  congrArg (fun h => h.value.getD "") (head_pruned n)

theorem prop?_pruned (n : Node) (name : String) : (pruned n).prop? name = n.prop? name :=
  congrArg (fun h => h.props.lookup name) (head_pruned n)

theorem anyBlock_pruned (ns : List Node) : anyBlock (prunedList ns) = anyBlock ns := by
  induction ns with
  | nil => rw [prunedList]
  | cons n rest ih => rw [prunedList, anyBlock, anyBlock, kind_pruned, prop?_pruned, ih]

mutual

theorem render_pruned (parent : Option String) : ∀ n : Node, render parent (pruned n) = render parent n
  | .leaf h => by rw [pruned]
  | .branch h cs => by
    rw [pruned]
    split
    next hplain =>
      have hk : (Node.branch h cs).kind ≠ "element" := kind_ne_element_of_plain hplain
      have hk' : (Node.leaf h).kind ≠ "element" := hk
      rw [render_plain hk, render_plain hk']
      rfl
    next hplain =>
      have hnil : (prunedList cs).isEmpty = cs.isEmpty := by cases cs <;> rfl
      simp only [render, hnil, anyBlock_pruned, renderList_pruned _ cs]

theorem renderList_pruned (parent : Option String) :
    ∀ ns : List Node, renderList parent (prunedList ns) = renderList parent ns
  | [] => by rw [prunedList]
  | n :: rest => by
    rw [prunedList, renderList, renderList, render_pruned parent n, renderList_pruned parent rest]

end

theorem partsFrom_pruned (ns : List Node) : ∀ found : Option String,
    partsFrom found (prunedList ns) =
      (partsFrom found ns).map fun p => { p with body := prunedList p.body } := by
  induction ns with
  | nil => exact fun _ => rfl
  | cons n rest ih =>
    intro found
    rw [prunedList, partsFrom.eq_def found (pruned n :: _), partsFrom.eq_def found (n :: _)]
    dsimp only
    rw [kind_pruned, text_pruned]
    split
    · rw [ih]
      cases partsFrom found rest <;> rfl
    · cases defaultExpression? n.text.toList with
      | none =>
        dsimp only
        rw [ih]
        cases partsFrom found rest <;> rfl
      | some expression =>
        cases found with
        | none => exact ih _
        | some layout => rfl
    · rw [ih]
      cases partsFrom found rest <;> rfl

/-- **What is below texts, inline code and embedded elements does not matter to a module.** -/
theorem generate_pruned (runtime : Option String) (tree : Node) :
    generate runtime (pruned tree) = generate runtime tree := by
  by_cases hroot : tree.kind = "root"
  · have hchildren : (pruned tree).children = prunedList tree.children := by
      cases tree with
      | leaf h =>
        rw [pruned]
        exact prunedList.eq_1.symm
      | branch h cs =>
        have hk : h.kind ∉ plainKinds := by
          rw [show h.kind = "root" from hroot]
          decide
        rw [pruned, if_neg hk]
        rfl
    rw [generate_eq runtime hroot, generate_eq runtime ((kind_pruned tree).trans hroot), hchildren,
      partsFrom_pruned]
    cases partsFrom none tree.children with
    | error e => rfl
    | ok parts =>
      show (renderList none (prunedList parts.body)).map _ = (renderList none parts.body).map _
      rw [renderList_pruned]
      rfl
  · unfold generate
    rw [kind_pruned, if_pos hroot, if_pos hroot]
    rfl

/-! ### The condition -/

/-- **Generation fails exactly when it must.**  For trees whose tag names are texts there is an error of
generation if and only if the top is not a root, there are two default exports, or a node that is rendered
cannot be written; otherwise, and only then, there is a module.  What is below texts, inline code and
embedded elements does not matter. -/
theorem generation_fails_exactly (runtime : Option String) (tree : Node)
    (htags : ∀ n ∈ tree.flatten, TextTag n) :
    ((∃ e : GenerationError, generate runtime tree = .error (.generation e)) ↔
      tree.kind ≠ "root" ∨ 2 ≤ tree.children.countP (DefaultExport ·) ∨
        ∃ x : Node, Rendered tree x ∧ Unwritable x) ∧
    ((∃ code : String, generate runtime tree = .ok code) ↔
      ¬(tree.kind ≠ "root" ∨ 2 ≤ tree.children.countP (DefaultExport ·) ∨
        ∃ x : Node, Rendered tree x ∧ Unwritable x)) ∧
    generate runtime (pruned tree) = generate runtime tree :=
  ⟨(failsWhen_generate runtime htags).error_iff, (failsWhen_generate runtime htags).ok_iff,
    generate_pruned runtime tree⟩

/-- An element without a tag name, in a list that ends in a text. -/
def untaggedItem : Node :=
  .ofChildren
    [.leaf { kind := "import", value := "import a from 'a'" },
     .branch { kind := "element", props := [("tagName", .str "ul")] }
      [.branch { kind := "element" } [.leaf { kind := "text", value := "a" }],
       .leaf { kind := "text", value := "b" }]]

/-- Such an element and a statement, below a text and an embedded element. -/
def untaggedBelowText : Node :=
  .ofChildren
    [.branch { kind := "text", value := "a" } [.leaf { kind := "element" }],
     .branch { kind := "element", props := [("tagName", .str "p")] }
      [.branch { kind := "jsx", value := "<b/>" } [.leaf { kind := "import" }],
       .leaf { kind := "element", props := [("tagName", .str "br")] }]]

/-- A missing tag name is an error in a list, and none below a text. -/
theorem generation_fails_exactly_untagged :
    (∃ x : Node, Rendered untaggedItem x ∧ Unwritable x) ∧
    (∃ e : GenerationError, generate none untaggedItem = .error (.generation e)) ∧
    (∃ code : String, generate none untaggedBelowText = .ok code) ∧
    ¬∃ x : Node, Rendered untaggedBelowText x ∧ Unwritable x := by
  have hitem := generation_fails_exactly none untaggedItem (by decide +kernel)
  have hbelow := generation_fails_exactly none untaggedBelowText (by decide +kernel)
  have hrendered : ∃ x : Node, Rendered untaggedItem x ∧ Unwritable x :=
    ⟨_, ⟨_, List.mem_cons_of_mem _ List.mem_cons_self, rfl, .down rfl List.mem_cons_self (.here _)⟩,
      .missing rfl rfl⟩
  have hok : ∃ code : String, generate none untaggedBelowText = .ok code :=
    isOk_iff.mp (by decide +kernel)
  exact ⟨hrendered, hitem.1.mpr (.inr (.inr hrendered)), hok,
    fun hno => hbelow.2.1.mp hok (.inr (.inr hno))⟩

end Mdx.Module
