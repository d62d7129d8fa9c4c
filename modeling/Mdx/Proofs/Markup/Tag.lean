import Mdx.Proofs.Generic.Frame
import Mdx.Proofs.Markup.Derivation

/-!
# The tags of markup

What an element of the markup is for is told by its tag.  Lists, tables and items have tags that no other
node gets (`tag_of_wrapped`, `plain_assemble_leaf`), and only a paragraph becomes an element with the tag of
paragraphs.  So there are as many of these elements as there are paragraphs (`Maps.countP_paragraph`), but
in a tight item there are none (`Maps.countP_paragraph_tight`).
-/

namespace Mdx.Markup

open Mdx.Generic (isParagraph)
open Mdx.Node (Everywhere everywhere_cons everywhere_nil)

/-- The tag of an element. -/
def tagOf (n : Node) : Option String :=
  if n.kind = "element" then
    match n.prop? "tagName" with
    | some (.str tag) => some tag
    | _ => none
  else none

/-- A property of an element. -/
def attribute? (n : Node) (key : String) : Option Json :=
  match n.prop? "properties" with
  | some (.obj members) => members.lookup key
  | _ => none

/-- The tags of lists, of their items and of tables. -/
def boxTags : List (Option String) :=
  [some "ul", some "ol", some "table", some "li"]

@[simp] theorem tagOf_element (tag : String) (properties : Json.Members) (position : Option Position)
    (cs : List Node) : tagOf (Node.element tag properties position cs) = some tag := rfl

@[simp] theorem children_element (tag : String) (properties : Json.Members)
    (position : Option Position) (cs : List Node) :
    (Node.element tag properties position cs).children = cs := rfl

@[simp] theorem children_elementFor (h : NodeHead) (tag : String) (properties : Json.Members)
    (cs : List Node) : (elementFor h tag properties cs).children = cs := rfl

theorem tagOf_eq_none {n : Node} (hk : n.kind ≠ "element") : tagOf n = none :=
  if_neg hk

/-! ### Elements around the children of a node -/

/-- The tags of nodes that become an element around their children. -/
def wrapperTags : List String :=
  ["p", "blockquote", "hr", "em", "strong", "del", "br", "h1", "h2", "h3", "h4", "h5", "h6", "a", "td"]

theorem headingTag_mem {h : NodeHead} {tag : String} (ht : headingTag h = .ok tag) :
    tag ∈ ["h1", "h2", "h3", "h4", "h5", "h6"] := by
  unfold headingTag at ht
  split at ht
  · cases ht
  next depth _ =>
    split at ht
    next hrange =>
      cases ht
      obtain ⟨hlow, hhigh⟩ := hrange
      interval_cases depth <;> decide
    · cases ht

/-- **Only a paragraph is wrapped as one.** -/
theorem tag_of_wrapped {h : NodeHead} {tag : String} {properties : Json.Members}
    (hs : shapeOf h = .ok (.wrapped tag properties)) :
    tag ∈ wrapperTags ∧ (tag = "p" ↔ h.kind = "paragraph") := by
  have hk : h.kind ∈ wrappedKinds := (fits_of_shapeOf hs).1
  by_cases hheading : h.kind = "heading"
  · have hmap : shapeOf h = (headingTag h).map fun tag => .wrapped tag [] := by
      simp [shapeOf, simpleTag?, hheading, Vocabulary.special]
    rw [hmap] at hs
    obtain ⟨tag', htag, heq⟩ := exists_ok_of_map hs
    cases heq
    have hall : ∀ tag ∈ ["h1", "h2", "h3", "h4", "h5", "h6"], tag ∈ wrapperTags ∧ tag ≠ "p" := by decide
    obtain ⟨hmem, hne⟩ := hall tag (headingTag_mem htag)
    refine ⟨hmem, fun h => absurd h hne, fun h => ?_⟩
    rw [hheading] at h
    exact absurd h (by decide)
  · simp only [wrappedKinds, List.mem_cons, List.not_mem_nil, or_false, hheading, false_or] at hk
    rcases hk with hk | hk | hk | hk | hk | hk | hk | hk | hk <;>
      simp [shapeOf, simpleTag?, hk, Vocabulary.special] at hs <;>
      rw [← hs.1, hk] <;> decide

theorem listTag_cases (h : NodeHead) : listTag h = "ul" ∨ listTag h = "ol" := by
  rw [listTag]
  split
  · exact .inr rfl
  · exact .inl rfl

theorem shapeOf_list {h : NodeHead} (hk : h.kind = "list") :
    shapeOf h = .ok (.list (listTag h) (listProperties h) (isTight h)) := by
  simp [shapeOf, simpleTag?, hk, Vocabulary.special]

theorem shape_of_list {h : NodeHead} {tag : String} {properties : Json.Members} {tight : Bool}
    (hs : shapeOf h = .ok (.list tag properties tight)) :
    tag = listTag h ∧ properties = listProperties h ∧ tight = isTight h := by
  rw [shapeOf_list (fits_of_shapeOf hs).1] at hs
  cases hs
  exact ⟨rfl, rfl, rfl⟩

theorem shape_of_table {h : NodeHead} {aligns : List Json} (hs : shapeOf h = .ok (.table aligns)) :
    alignments h = .ok aligns := by
  have hk : h.kind = "table" := fits_of_shapeOf hs
  have hmap : shapeOf h = (alignments h).map .table := by
    simp [shapeOf, simpleTag?, hk, Vocabulary.special]
  rw [hmap] at hs
  obtain ⟨aligns', haligns, heq⟩ := exists_ok_of_map hs
  cases heq
  exact haligns

/-! ### Leaves -/

/-- A node that is no list, item or table of markup. -/
def PlainTag (n : Node) : Prop :=
  tagOf n ∉ boxTags

theorem plainTag_of_kind {n : Node} (hk : n.kind ≠ "element") : PlainTag n := by
  rw [PlainTag, tagOf_eq_none hk]
  decide

theorem kind_textLeaf (kind : String) (position : Option Position) (h : NodeHead) :
    (textLeaf kind position h).kind = kind := by
  rw [textLeaf]
  split <;> rfl

theorem children_textLeaf (kind : String) (position : Option Position) (h : NodeHead) :
    (textLeaf kind position h).children = [] := by
  rw [textLeaf]
  split <;> rfl

theorem everywhere_plain_element {tag : String} {properties : Json.Members}
    {position : Option Position} {cs ms : List Node} (ht : some tag ∉ boxTags)
    (hc : Everywhere PlainTag cs) (hm : Everywhere PlainTag ms) :
    Everywhere PlainTag (Node.element tag properties position cs :: ms) :=
  everywhere_cons.mpr ⟨ht, hc, hm⟩

theorem everywhere_plain_textLeaf {kind : String} (hk : kind ≠ "element")
    (position : Option Position) (h : NodeHead) : Everywhere PlainTag [textLeaf kind position h] := by
  refine everywhere_cons.mpr ⟨plainTag_of_kind ?_, ?_, everywhere_nil⟩
  · rwa [kind_textLeaf]
  · rw [children_textLeaf]
    exact everywhere_nil

/-- **A node whose children are not looked at** becomes no list, item or table, and has none in it. -/
theorem plain_assemble_leaf {h : NodeHead} {s : Shape} (hf : s.Fits h.kind) (hk : s ≠ .kept)
    (hn : s.role? = none) : Everywhere PlainTag [assemble h [] s] := by
  cases s with
  | kept => exact absurd rfl hk
  | wrapped _ _ | list _ _ _ | item _ | table _ | row => cases hn
  | text =>
    have htext : h.kind = "text" ∨ h.kind = "inlineCode" := hf
    refine everywhere_plain_textLeaf ?_ _ h
    rcases htext with hk | hk <;> rw [hk] <;> decide
  | image => exact everywhere_plain_element (by decide) everywhere_nil everywhere_nil
  | code =>
    refine everywhere_plain_element (by decide) ?_ everywhere_nil
    exact everywhere_plain_element (by decide) (everywhere_plain_textLeaf (by decide) none h)
      everywhere_nil

/-! ### Paragraphs -/

/-- Whether a node is a paragraph of markup. -/
def isParagraphElement (n : Node) : Bool :=
  tagOf n = some "p"

theorem isParagraphElement_kept {n : Node} (hs : shapeOf n.head = .ok .kept) :
    isParagraphElement n = isParagraph n := by
  have hspecial : n.kind ∈ Vocabulary.special := fits_of_shapeOf hs
  have hall : ∀ kind ∈ Vocabulary.special, kind ≠ "element" ∧ kind ≠ "paragraph" := by decide
  obtain ⟨helement, hparagraph⟩ := hall n.kind hspecial
  rw [isParagraphElement, isParagraph, tagOf_eq_none helement, decide_eq_false hparagraph]
  rfl

theorem isParagraphElement_assemble {n : Node} {s : Shape} (hs : shapeOf n.head = .ok s) (hk : s ≠ .kept)
    (cs : List Node) : isParagraphElement (assemble n.head cs s) = isParagraph n := by
  have hf : s.Fits n.kind := fits_of_shapeOf hs
  have hother : ∀ {tag kind : String}, tag ≠ "p" → kind ≠ "paragraph" → n.kind = kind →
      decide (some tag = some "p") = isParagraph n := by
    intro tag kind htag hkind heq
    simp [isParagraph, heq, htag, hkind]
  cases s with
  | kept => exact absurd rfl hk
  | wrapped tag properties =>
    have htag : tag = "p" ↔ n.kind = "paragraph" := (tag_of_wrapped hs).2
    show decide (some tag = some "p") = _
    simp [isParagraph, htag]
  | text =>
    have htext : n.kind = "text" ∨ n.kind = "inlineCode" := hf
    have hnone : tagOf (textLeaf n.kind n.position n.head) = none := by
      apply tagOf_eq_none
      rw [kind_textLeaf]
      rcases htext with h | h <;> rw [h] <;> decide
    show decide (tagOf (textLeaf n.kind n.position n.head) = some "p") = _
    rw [hnone, isParagraph]
    rcases htext with h | h <;> rw [h] <;> decide
  | list tag properties tight =>
    obtain ⟨rfl, -, -⟩ := shape_of_list hs
    rcases listTag_cases n.head with htag | htag
    · exact htag ▸ hother (by decide) (by decide) hf.1
    · exact htag ▸ hother (by decide) (by decide) hf.1
  | code => exact hother (by decide) (by decide) hf
  | image => exact hother (by decide) (by decide) hf
  | item tight => exact hother (by decide) (by decide) hf
  | table aligns => exact hother (by decide) (by decide) hf
  | row => exact hother (by decide) (by decide) hf

theorem Maps.countP_paragraph {role : Role} {cs ms : List Node} (h : Maps role cs ms)
    (hrole : role = .nodes ∨ role = .contents false) :
    ms.countP isParagraphElement = cs.countP isParagraph := by
  induction h with
  | nil => rfl
  | kept hp hs hr ih => rw [List.countP_cons, List.countP_cons, ih hrole, isParagraphElement_kept hs]
  | leaf hp hs hk hn hr ih =>
    rw [List.countP_cons, List.countP_cons, ih hrole, isParagraphElement_assemble hs hk]
  | node hp hs hn hcs hr ihc ihr =>
    rw [List.countP_cons, List.countP_cons, ihr hrole,
      isParagraphElement_assemble hs (ne_kept_of_role hn)]
  | item hk hcs hr ihc ihr => rcases hrole with h | h <;> cases h
  | paragraph hk hcs hr ihc ihr => rcases hrole with h | h <;> cases h
  | row hk hcs hr ihc ihr => rcases hrole with h | h <;> cases h
  | cell hk hcs hr ihc ihr => rcases hrole with h | h <;> cases h

/-- **In a tight item no paragraph is left**, if there are none in its paragraphs. -/
theorem Maps.countP_paragraph_tight {cs ms : List Node} (h : Maps (.contents true) cs ms)
    (hc : ∀ c ∈ cs, c.kind = "paragraph" → ∀ d ∈ c.children, d.kind ≠ "paragraph") :
    ms.countP isParagraphElement = 0 := by
  -- a node that is mapped as anywhere is no paragraph here
  have hplain : ∀ {n : Node}, (Role.contents true).Plain n → isParagraph n = false := by
    intro n hp
    exact decide_eq_false fun hk => hp ⟨rfl, hk⟩
  generalize hrole : Role.contents true = role at h
  induction h with
  | nil => rfl
  | kept hp hs hr ih =>
    subst hrole
    obtain ⟨-, hrest⟩ := List.forall_mem_cons.mp hc
    rw [List.countP_cons, ih hrest rfl, isParagraphElement_kept hs, hplain hp]
    rfl
  | leaf hp hs hk hn hr ih =>
    subst hrole
    obtain ⟨-, hrest⟩ := List.forall_mem_cons.mp hc
    rw [List.countP_cons, ih hrest rfl, isParagraphElement_assemble hs hk, hplain hp]
    rfl
  | node hp hs hn hcs hr ihc ihr =>
    subst hrole
    obtain ⟨-, hrest⟩ := List.forall_mem_cons.mp hc
    rw [List.countP_cons, ihr hrest rfl, isParagraphElement_assemble hs (ne_kept_of_role hn), hplain hp]
    rfl
  | paragraph hk hcs hr ihc ihr =>
    obtain ⟨hfirst, hrest⟩ := List.forall_mem_cons.mp hc
    rw [List.countP_append, ihr hrest rfl, hcs.countP_paragraph (.inl rfl), Nat.add_zero,
      List.countP_eq_zero]
    intro d hd hparagraph
    exact hfirst hk d hd (of_decide_eq_true hparagraph)
  | item hk hcs hr ihc ihr => cases hrole
  | row hk hcs hr ihc ihr => cases hrole
  | cell hk hcs hr ihc ihr => cases hrole

end Mdx.Markup
