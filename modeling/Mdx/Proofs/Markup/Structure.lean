import Mdx.Proofs.Extended.Frame
import Mdx.Proofs.Markup.Tag

/-!
# Lists and tables in markup

The markup of a document has a list for each list and a table for each table, in document order, and of the
form that such elements have in a page.

* A list is made of items, and items stand in lists only.  In a list that is not spread, the paragraphs of
  the items are unwrapped.
* A table has a head of one row and a body of the other rows, and the cells of a column have the alignment
  that the first row gives to it.

Three things happen to a list or a table on its way to the markup: it is read off the syntax
(`Generic.nested_blocks`), raw markup below it is reclassified (`Extended.matches_of_reclassified`), and it
is mapped (`Maps.structured`).  Each of these is one induction: on the syntax, on the tree and on the
derivation of the mapping.
-/

namespace Mdx.Markup

open Mdx.Extended (Becomes IsStatement SameFrame Segment)
open Mdx.Generic (Formed Inner isFrame isParagraph paragraphs width)
open Mdx.Markdown (Syntax)
open Mdx.Node (Everywhere everywhere_append everywhere_cons everywhere_nil mem_flattenStack_self
  mem_flattenStack_trans select select_append select_cons_of_neg select_cons_of_pos select_eq_nil
  select_nil)

/-! ### The form of lists and tables -/

/-- Whether a node is a list or a table of markup. -/
def isFrameElement (n : Node) : Bool :=
  tagOf n = some "ul" || tagOf n = some "ol" || tagOf n = some "table"

/-- The children of a list are items, and those of other nodes are not. -/
def Placed (n : Node) : Prop :=
  ∀ c ∈ n.children, tagOf c = some "li" ↔ tagOf n = some "ul" ∨ tagOf n = some "ol"

/-- An item of a list, with so many paragraphs.  They are wrapped if the list is spread. -/
def IsItemMarkup (spread : Bool) (count : Nat) (li : Node) : Prop :=
  tagOf li = some "li" ∧ li.children.countP isParagraphElement = if spread then count else 0

/-- A list of items with so many paragraphs each. -/
structure IsListMarkup (ordered spread : Bool) (counts : List Nat) (e : Node) : Prop where
  tag : tagOf e = some (if ordered then "ol" else "ul")
  items : List.Forall₂ (IsItemMarkup spread) counts e.children

/-- Cells with this tag, each of which has the alignment of its column, or none if the column has none. -/
def IsCells (column : Nat → Option Json) (tag : String) (cells : List Node) : Prop :=
  ∀ (i : Nat) (cell : Node), cells[i]? = some cell →
    tagOf cell = some tag ∧ attribute? cell "align" = column i

/-- A row of so many cells with this tag. -/
structure IsRowMarkup (column : Nat → Option Json) (tag : String) (count : Nat) (tr : Node) : Prop where
  isRow : tagOf tr = some "tr"
  count : tr.children.length = count
  cells : IsCells column tag tr.children

/-- The sections of a table whose rows have so many cells: the first row is the head, and the others, if
there are any, are the body. -/
inductive IsSections (column : Nat → Option Json) : List Nat → List Node → Prop
  | empty : IsSections column [] []
  | head {count : Nat} {tr : Node} (h : IsRowMarkup column "th" count tr) :
      IsSections column [count] [Node.element "thead" [] none [tr]]
  | body {count : Nat} {counts : List Nat} {tr : Node} {trs : List Node}
      (h : IsRowMarkup column "th" count tr) (hne : counts ≠ [])
      (hr : List.Forall₂ (IsRowMarkup column "td") counts trs) :
      IsSections column (count :: counts)
        [Node.element "thead" [] none [tr], Node.element "tbody" [] none trs]

/-- A table whose rows have so many cells. -/
structure IsTableMarkup (column : Nat → Option Json) (counts : List Nat) (e : Node) : Prop where
  tag : tagOf e = some "table"
  sections : IsSections column counts e.children

/-! ### The mapping of items, cells and rows -/

/-- The alignment in a list of them, if there is one. -/
def alignmentAt (aligns : List Json) (i : Nat) : Option Json :=
  (aligns[i]?).filter (!·.isEmpty)

theorem attribute_cellProperties (aligns : List Json) (tag : String) (position : Option Position)
    (cs : List Node) :
    attribute? (Node.element tag (cellProperties aligns) position cs) "align" = alignmentAt aligns 0 := by
  show (cellProperties aligns).lookup "align" = _
  cases aligns with
  | nil => rfl
  | cons align rest =>
    rw [cellProperties, alignmentAt, List.getElem?_cons_zero]
    by_cases h : align.isEmpty <;> simp [h, Option.filter]

theorem alignmentAt_tail (aligns : List Json) (i : Nat) :
    alignmentAt aligns.tail i = alignmentAt aligns (i + 1) := by
  rw [alignmentAt, alignmentAt, List.getElem?_tail]

theorem Maps.isItemMarkup {tight : Bool} {cs ms : List Node} (h : Maps (.items tight) cs ms)
    (hf : Everywhere Formed cs) (hi : ∀ c ∈ cs, c.kind = "listItem") :
    List.Forall₂ (IsItemMarkup !tight) (cs.map paragraphs) ms := by
  generalize hrole : Role.items tight = role at h
  induction h with
  | nil => exact .nil
  | kept hp hs hr ih =>
    subst hrole
    exact absurd (hi _ List.mem_cons_self) hp
  | leaf hp hs hk hn hr ih =>
    subst hrole
    exact absurd (hi _ List.mem_cons_self) hp
  | node hp hs hn hc hr ihc ihr =>
    subst hrole
    exact absurd (hi _ List.mem_cons_self) hp
  | item hk hc hr ihc ihr =>
    cases hrole
    obtain ⟨-, hchildren, hrest⟩ := everywhere_cons.mp hf
    refine .cons ⟨rfl, ?_⟩ (ihr hrest (List.forall_mem_cons.mp hi).2 rfl)
    rw [children_elementFor]
    cases tight with
    | false => exact hc.countP_paragraph (.inr rfl)
    | true =>
      apply hc.countP_paragraph_tight
      -- below a paragraph there are no blocks, so unwrapping it leaves no other one
      intro c hmem hparagraph d hd
      have hinner : Everywhere Inner c.children := by
        apply (hchildren c (mem_flattenStack_self hmem)).inner
        rw [hparagraph]
        decide
      exact (hinner d (mem_flattenStack_self hd)).ne (by decide)
  | paragraph _ _ _ _ _ => cases hrole
  | row _ _ _ _ _ => cases hrole
  | cell _ _ _ _ _ => cases hrole

theorem Maps.isCells {tag : String} {aligns : List Json} {cs ms : List Node}
    (h : Maps (.cells tag aligns) cs ms) :
    ms.length = cs.length ∧ IsCells (alignmentAt aligns) tag ms := by
  generalize hrole : Role.cells tag aligns = role at h
  induction h generalizing aligns with
  | nil => exact ⟨rfl, fun i cell h => by simp at h⟩
  | kept hp _ _ _ => subst hrole; exact absurd hp id
  | leaf hp _ _ _ _ _ => subst hrole; exact absurd hp id
  | node hp _ _ _ _ _ _ => subst hrole; exact absurd hp id
  | item _ _ _ _ _ => cases hrole
  | paragraph _ _ _ _ _ => cases hrole
  | row _ _ _ _ _ => cases hrole
  | cell hk hc hr ihc ihr =>
    cases hrole
    obtain ⟨hlength, hcells⟩ := ihr rfl
    refine ⟨by rw [List.length_cons, List.length_cons, hlength], fun i cell hcell => ?_⟩
    cases i with
    | zero =>
      cases hcell
      exact ⟨rfl, attribute_cellProperties _ tag _ _⟩
    | succ i =>
      rw [← alignmentAt_tail]
      exact hcells i cell hcell

theorem Maps.isRowMarkup {tag : String} {aligns : List Json} {n : Node} {cs : List Node}
    (h : Maps (.cells tag aligns) n.children cs) :
    IsRowMarkup (alignmentAt aligns) tag (width n) (elementFor n.head "tr" [] cs) :=
  ⟨rfl, h.isCells.1, h.isCells.2⟩

theorem Maps.isBody {aligns : List Json} {cs ms : List Node} (h : Maps (.rows "td" aligns) cs ms) :
    List.Forall₂ (IsRowMarkup (alignmentAt aligns) "td") (cs.map width) ms := by
  generalize hrole : Role.rows "td" aligns = role at h
  induction h with
  | nil => exact .nil
  | kept hp _ _ _ => subst hrole; exact absurd hp id
  | leaf hp _ _ _ _ _ => subst hrole; exact absurd hp id
  | node hp _ _ _ _ _ _ => subst hrole; exact absurd hp id
  | item _ _ _ _ _ => cases hrole
  | paragraph _ _ _ _ _ => cases hrole
  | row hk hc hr ihc ihr =>
    cases hrole
    exact .cons hc.isRowMarkup (ihr rfl)
  | cell _ _ _ _ _ => cases hrole

/-- **The rows of a table make a head and a body.** -/
theorem Maps.isSections {aligns : List Json} {cs ms : List Node} (h : Maps (.rows "th" aligns) cs ms) :
    IsSections (alignmentAt aligns) (cs.map width) (tableSections ms) := by
  cases h with
  | nil => exact .empty
  | kept hp _ _ => exact absurd hp id
  | leaf hp _ _ _ _ => exact absurd hp id
  | node hp _ _ _ _ => exact absurd hp id
  | row hk hc hr =>
    cases hr with
    | nil => exact .head hc.isRowMarkup
    | kept hp _ _ => exact absurd hp id
    | leaf hp _ _ _ _ => exact absurd hp id
    | node hp _ _ _ _ => exact absurd hp id
    | row hk' hc' hr' => exact .body hc.isRowMarkup (List.cons_ne_nil _ _) (.cons hc'.isRowMarkup hr'.isBody)

/-! ### The mapping of lists and tables -/

/-- A list or a table of a document, and its element. -/
inductive FrameMarkup (n e : Node) : Prop
  | list (hk : n.kind = "list")
      (hm : IsListMarkup (isSet n.head "ordered") (isSet n.head "spread") (n.children.map paragraphs) e) :
      FrameMarkup n e
  | table (aligns : List Json) (hk : n.kind = "table") (ha : alignments n.head = .ok aligns)
      (hm : IsTableMarkup (alignmentAt aligns) (n.children.map width) e) : FrameMarkup n e

/-- The lists and tables of some nodes have their markup, items are where they should be, and the markup as
a whole is items or has none. -/
structure Structured (listed : Bool) (cs ms : List Node) : Prop where
  frames : List.Forall₂ FrameMarkup (select isFrame cs) (select isFrameElement ms)
  placed : Everywhere Placed ms
  items : ∀ m ∈ ms, tagOf m = some "li" ↔ listed = true

section Structured

variable {listed : Bool}

theorem structured_nil : Structured listed [] [] := by
  refine ⟨?_, everywhere_nil, List.forall_mem_nil _⟩
  rw [select_nil, select_nil]
  exact .nil

theorem Structured.append {cs cs' ms ms' : List Node} (h : Structured listed cs ms)
    (h' : Structured listed cs' ms') : Structured listed (cs ++ cs') (ms ++ ms') := by
  refine ⟨?_, h.placed.append h'.placed, List.forall_mem_append.mpr ⟨h.items, h'.items⟩⟩
  rw [select_append, select_append]
  exact List.rel_append h.frames h'.frames

theorem structured_plain {n m : Node} (hn : select isFrame [n] = []) (hm : Everywhere PlainTag [m]) :
    Structured false [n] [m] := by
  have hframe : ∀ x : Node, PlainTag x → isFrameElement x = false := by
    intro x hx
    simp only [PlainTag, boxTags, List.mem_cons, List.not_mem_nil, or_false, not_or] at hx
    simp [isFrameElement, hx]
  have hitem : ∀ x : Node, PlainTag x → tagOf x ≠ some "li" := by
    intro x hx h
    exact hx (by rw [h]; decide)
  refine ⟨?_, fun x hx c hc => ?_, fun x hx => ?_⟩
  · rw [hn, select_eq_nil fun x hx => hframe x (hm x hx)]
    exact .nil
  · have hplain := hm x hx
    simp only [PlainTag, boxTags, List.mem_cons, List.not_mem_nil, or_false, not_or] at hplain
    have hc' := hitem c (hm c (mem_flattenStack_trans hx (mem_flattenStack_self hc)))
    exact iff_of_false hc' (by simp [hplain])
  · exact iff_of_false (hitem x (hm x (mem_flattenStack_self hx))) (by decide)

theorem structured_element {n : Node} {tag : String} {cs : List Node} (properties : Json.Members)
    (position : Option Position) (hn : isFrame n = false) (ht : tag ∉ ["ul", "ol", "table"])
    (hli : tag = "li" ↔ listed = true) (hc : Structured false n.children cs) :
    Structured listed [n] [Node.element tag properties position cs] := by
  simp only [List.mem_cons, List.not_mem_nil, or_false, not_or] at ht
  refine ⟨?_, everywhere_cons.mpr ⟨fun c hmem => ?_, hc.placed, everywhere_nil⟩, ?_⟩
  · have hframe : isFrameElement (Node.element tag properties position cs) = false := by
      simp [isFrameElement, ht]
    rw [select_cons_of_neg hn, select_cons_of_neg hframe, select_nil, select_nil, List.append_nil,
      List.append_nil]
    exact hc.frames
  · have hitem := hc.items c hmem
    simpa [ht] using hitem
  · intro m hm
    rw [List.mem_singleton.mp hm, tagOf_element, Option.some.injEq]
    exact hli

theorem structured_frame {n : Node} {tag : String} {cs : List Node} (properties : Json.Members)
    (position : Option Position) (hn : isFrame n = true) (ht : tag ∈ ["ul", "ol", "table"])
    (hm : FrameMarkup n (Node.element tag properties position cs))
    (hc : Structured (tag != "table") n.children cs) :
    Structured false [n] [Node.element tag properties position cs] := by
  simp only [List.mem_cons, List.not_mem_nil, or_false] at ht
  refine ⟨?_, everywhere_cons.mpr ⟨fun c hmem => ?_, hc.placed, everywhere_nil⟩, ?_⟩
  · have hframe : isFrameElement (Node.element tag properties position cs) = true := by
      simp [isFrameElement, ht, or_assoc]
    rw [select_cons_of_pos hn, select_cons_of_pos hframe, select_nil, select_nil, List.append_nil,
      List.append_nil]
    exact .cons hm hc.frames
  · have hitem := hc.items c hmem
    rw [hitem, tagOf_element]
    rcases ht with rfl | rfl | rfl <;> decide
  · intro m hm
    rw [List.mem_singleton.mp hm, tagOf_element]
    rcases ht with rfl | rfl | rfl <;> decide

/-- Some of the markup may be put in an element of no special tag. -/
theorem Structured.wrap {cs : List Node} (xs ys zs : List Node) {tag : String} (ht : some tag ∉ boxTags)
    (h : Structured false cs (xs ++ (ys ++ zs))) :
    Structured false cs (xs ++ Node.element tag [] none ys :: zs) := by
  simp only [boxTags, List.mem_cons, List.not_mem_nil, or_false, not_or] at ht
  have hitems := h.items
  simp only [List.forall_mem_append] at hitems
  obtain ⟨hxs, hys, hzs⟩ := hitems
  obtain ⟨hpxs, hpyzs⟩ := everywhere_append.mp h.placed
  obtain ⟨hpys, hpzs⟩ := everywhere_append.mp hpyzs
  refine ⟨?_, everywhere_append.mpr ⟨hpxs, everywhere_cons.mpr ⟨fun c hmem => ?_, hpys, hpzs⟩⟩, ?_⟩
  · have hframe : isFrameElement (Node.element tag [] none ys) = false := by simp [isFrameElement, ht]
    have hselect : select isFrameElement (xs ++ Node.element tag [] none ys :: zs) =
        select isFrameElement (xs ++ (ys ++ zs)) := by
      rw [select_append, select_cons_of_neg hframe, select_append, select_append, children_element]
    rw [hselect]
    exact h.frames
  · have hitem := hys c hmem
    simpa [ht] using hitem
  · refine List.forall_mem_append.mpr ⟨hxs, List.forall_mem_cons.mpr ⟨?_, hzs⟩⟩
    simpa using ht.2.2.2

theorem Structured.sections {cs : List Node} :
    ∀ {rows : List Node}, Structured false cs rows → Structured false cs (tableSections rows)
  | [], h => h
  | [first], h => Structured.wrap [] [first] [] (by decide) h
  | first :: second :: rest, h => by
    have hall : Structured false cs ([first] ++ (second :: rest ++ [])) := by
      rw [List.append_nil]
      exact h
    have hbody : Structured false cs ([first] ++ [Node.element "tbody" [] none (second :: rest)]) :=
      Structured.wrap [first] (second :: rest) [] (by decide) hall
    exact Structured.wrap [] [first] [_] (by decide) hbody

end Structured

/-- Whether nodes in this place are the children of a list. -/
def Role.isItems : Role → Bool
  | items _ => true
  | nodes | contents _ | rows _ _ | cells _ _ => false

/-- Cells of these tags are cells of a head or of a body. -/
def Role.CellsSound : Role → Prop
  | nodes | items _ | contents _ => True
  | rows tag _ | cells tag _ => tag = "th" ∨ tag = "td"

theorem Role.isItems_of_plain {role : Role} {n : Node} (hp : role.Plain n)
    (hi : n.kind = "listItem" ↔ role.isItems = true) : role.isItems = false := by
  cases role with
  | items tight => exact absurd (hi.mpr rfl) hp
  | nodes | contents tight | rows tag aligns | cells tag aligns => rfl

theorem isFrame_of_kind {n : Node} {kind : String} (hk : n.kind = kind) (hne : kind ∉ ["list", "table"]) :
    isFrame n = false := by
  simp only [List.mem_cons, List.not_mem_nil, or_false, not_or] at hne
  simp [isFrame, hk, hne]

/-- A node that is no container and no table has no lists and tables in it. -/
theorem select_of_closed {n : Node} (hf : Formed n) (hk : n.kind ∉ Generic.containerKinds)
    (ht : n.kind ≠ "table") : select isFrame [n] = [] := by
  have hl : n.kind ≠ "list" := fun hl => hk (by rw [hl]; decide)
  have hframe : isFrame n = false := isFrame_of_kind rfl (by simp [hl, ht])
  rw [select_cons_of_neg hframe, Generic.select_of_inner (hf.inner hk), select_nil]
  rfl

theorem plain_of_special {n : Node} (hf : Formed n) (hs : n.kind ∈ Vocabulary.special) :
    select isFrame [n] = [] ∧ Everywhere PlainTag [n] := by
  have hall : ∀ kind ∈ Vocabulary.special, kind ∉ Generic.containerKinds ∧ kind ≠ "table" := by decide
  obtain ⟨hk, ht⟩ := hall n.kind hs
  refine ⟨select_of_closed hf hk ht, everywhere_cons.mpr ⟨?_, fun x hx => ?_, everywhere_nil⟩⟩
  · exact plainTag_of_kind hf.noElement
  · exact plainTag_of_kind ((hf.inner hk x hx).ne (by decide))

theorem closed_of_leaf {s : Shape} {kind : String} (hf : s.Fits kind) (hk : s ≠ .kept)
    (hn : s.role? = none) : kind ∉ Generic.containerKinds ∧ kind ≠ "table" := by
  cases s with
  | kept => exact absurd rfl hk
  | wrapped _ _ | list _ _ _ | item _ | table _ | row => cases hn
  | text =>
    have htext : kind = "text" ∨ kind = "inlineCode" := hf
    rcases htext with rfl | rfl <;> decide
  | image =>
    obtain rfl : kind = "image" := hf
    decide
  | code =>
    obtain rfl : kind = "code" := hf
    decide

theorem structured_assemble {n : Node} {s : Shape} {inner : Role} {cs : List Node}
    (hs : shapeOf n.head = .ok s) (hn : s.role? = some inner) (hitem : n.kind ≠ "listItem")
    (hf : Formed n) (hchildren : Everywhere Formed n.children) (hm : Maps inner n.children cs)
    (hc : Structured inner.isItems n.children cs) : Structured false [n] [assemble n.head cs s] := by
  have hfits : s.Fits n.kind := fits_of_shapeOf hs
  cases s with
  | kept | text | code | image => cases hn
  | wrapped tag properties =>
    cases hn
    have hkinds : ∀ kind ∈ wrappedKinds, kind ∉ ["list", "table"] := by decide
    have htags : ∀ tag ∈ wrapperTags, tag ∉ ["ul", "ol", "table"] ∧ tag ≠ "li" := by decide
    have hframe := isFrame_of_kind rfl (hkinds n.kind hfits.1)
    obtain ⟨htag, hli⟩ := htags tag (tag_of_wrapped hs).1
    exact structured_element properties _ hframe htag (iff_of_false hli (by decide)) hc
  | list tag properties tight =>
    cases hn
    obtain ⟨rfl, -, rfl⟩ := shape_of_list hs
    have hk : n.kind = "list" := hfits.1
    have hframe : isFrame n = true := by simp [isFrame, hk]
    have hitems : ∀ c ∈ n.children, c.kind = "listItem" := fun c hmem => (hf.items c hmem).mpr hk
    refine structured_frame properties _ hframe ?_ (.list hk ⟨rfl, ?_⟩) ?_
    · rcases listTag_cases n.head with h | h <;> rw [h] <;> decide
    · have hmarkup := hm.isItemMarkup hchildren hitems
      rwa [isTight, Bool.not_not] at hmarkup
    · rcases listTag_cases n.head with h | h <;> rw [h] <;> exact hc
  | item tight => exact absurd hfits hitem
  | table aligns =>
    cases hn
    have hk : n.kind = "table" := hfits
    have hframe : isFrame n = true := by simp [isFrame, hk]
    have hmarkup : FrameMarkup n (elementFor n.head "table" [] (tableSections cs)) :=
      .table aligns hk (shape_of_table hs) ⟨rfl, hm.isSections⟩
    exact structured_frame [] _ hframe (by decide) hmarkup hc.sections
  | row =>
    cases hn
    exact structured_element [] _ (isFrame_of_kind hfits (by decide)) (by decide) (by decide) hc

theorem cellsSound_of_role {s : Shape} {inner : Role} (hn : s.role? = some inner) : inner.CellsSound := by
  cases s with
  | kept | text | code | image => cases hn
  | wrapped _ _ | list _ _ _ | item _ => cases hn; exact trivial
  | table _ => cases hn; exact .inl rfl
  | row => cases hn; exact .inr rfl

/-- The children of lists, and no others, are in the place of items. -/
theorem isItems_iff {n : Node} {s : Shape} {inner : Role} (hs : shapeOf n.head = .ok s)
    (hn : s.role? = some inner) : n.kind = "list" ↔ inner.isItems = true := by
  have hfits : s.Fits n.kind := fits_of_shapeOf hs
  cases s with
  | kept | text | code | image => cases hn
  | wrapped _ _ =>
    cases hn
    have hkinds : ∀ kind ∈ wrappedKinds, kind ≠ "list" := by decide
    exact iff_of_false (hkinds n.kind hfits.1) (by decide)
  | list _ _ _ => cases hn; exact iff_of_true hfits.1 rfl
  | item _ => cases hn; exact iff_of_false (hfits ▸ (by decide)) Bool.false_ne_true
  | table _ => cases hn; exact iff_of_false (hfits ▸ (by decide)) Bool.false_ne_true
  | row => cases hn; exact iff_of_false (hfits ▸ (by decide)) Bool.false_ne_true

theorem not_items_of_kind {n : Node} (hf : Formed n) {kind : String} (hk : n.kind = kind)
    (hne : kind ≠ "list") : ∀ c ∈ n.children, c.kind = "listItem" ↔ false = true := by
  intro c hmem
  rw [hf.items c hmem, hk]
  exact iff_of_false hne (by decide)

/-- **The markup of well-formed nodes is well structured.** -/
theorem Maps.structured {role : Role} {cs ms : List Node} (h : Maps role cs ms)
    (hrole : role.CellsSound) (hf : Everywhere Formed cs)
    (hi : ∀ c ∈ cs, c.kind = "listItem" ↔ role.isItems = true) : Structured role.isItems cs ms := by
  induction h with
  | nil => exact structured_nil
  | kept hp hs hr ih =>
    obtain ⟨hn, -, hrest⟩ := everywhere_cons.mp hf
    obtain ⟨hi, hirest⟩ := List.forall_mem_cons.mp hi
    obtain ⟨hselect, hplain⟩ := plain_of_special hn (fits_of_shapeOf hs)
    have hfirst := structured_plain hselect hplain
    rw [← Role.isItems_of_plain hp hi] at hfirst
    exact hfirst.append (ih hrole hrest hirest)
  | leaf hp hs hk hn hr ih =>
    obtain ⟨hformed, -, hrest⟩ := everywhere_cons.mp hf
    obtain ⟨hi, hirest⟩ := List.forall_mem_cons.mp hi
    obtain ⟨hcontainer, htable⟩ := closed_of_leaf (fits_of_shapeOf hs) hk hn
    have hplain := plain_assemble_leaf (fits_of_shapeOf hs) hk hn
    have hfirst := structured_plain (select_of_closed hformed hcontainer htable) hplain
    rw [← Role.isItems_of_plain hp hi] at hfirst
    exact hfirst.append (ih hrole hrest hirest)
  | node hp hs hn hc hr ihc ihr =>
    obtain ⟨hformed, hchildren, hrest⟩ := everywhere_cons.mp hf
    obtain ⟨hi, hirest⟩ := List.forall_mem_cons.mp hi
    have hlisted := Role.isItems_of_plain hp hi
    have hitem : ¬_ = "listItem" := fun h => by rw [hi.mp h] at hlisted; cases hlisted
    have hitems := fun c hmem => (hformed.items c hmem).trans (isItems_iff hs hn)
    have hinner := ihc (cellsSound_of_role hn) hchildren hitems
    have hfirst := structured_assemble hs hn hitem hformed hchildren hc hinner
    rw [← hlisted] at hfirst
    exact hfirst.append (ihr hrole hrest hirest)
  | item hk hc hr ihc ihr =>
    obtain ⟨hformed, hchildren, hrest⟩ := everywhere_cons.mp hf
    obtain ⟨-, hirest⟩ := List.forall_mem_cons.mp hi
    have hframe := isFrame_of_kind hk (by decide)
    have hinner := ihc trivial hchildren (not_items_of_kind hformed hk (by decide))
    exact (structured_element [] _ hframe (by decide) (iff_of_true rfl rfl) hinner).append
      (ihr hrole hrest hirest)
  | paragraph hk hc hr ihc ihr =>
    obtain ⟨hformed, hchildren, hrest⟩ := everywhere_cons.mp hf
    obtain ⟨-, hirest⟩ := List.forall_mem_cons.mp hi
    have hframe := isFrame_of_kind hk (by decide)
    have hinner := ihc trivial hchildren (not_items_of_kind hformed hk (by decide))
    have hall := hinner.append (ihr hrole hrest hirest)
    refine ⟨?_, hall.placed, hall.items⟩
    rw [select_cons_of_neg hframe, ← select_append]
    exact hall.frames
  | row hk hc hr ihc ihr =>
    obtain ⟨hformed, hchildren, hrest⟩ := everywhere_cons.mp hf
    obtain ⟨-, hirest⟩ := List.forall_mem_cons.mp hi
    have hframe := isFrame_of_kind hk (by decide)
    have hinner := ihc hrole hchildren (not_items_of_kind hformed hk (by decide))
    exact (structured_element [] _ hframe (by decide) (iff_of_false (by decide) Bool.false_ne_true)
      hinner).append (ihr (.inr rfl) hrest hirest)
  | cell hk hc hr ihc ihr =>
    obtain ⟨hformed, hchildren, hrest⟩ := everywhere_cons.mp hf
    obtain ⟨-, hirest⟩ := List.forall_mem_cons.mp hi
    have hframe := isFrame_of_kind hk (by decide)
    have hinner := ihc trivial hchildren (not_items_of_kind hformed hk (by decide))
    refine (structured_element _ _ hframe ?_ ?_ hinner).append (ihr hrole hrest hirest)
    · rcases hrole with rfl | rfl <;> decide
    · rcases hrole with rfl | rfl <;> exact iff_of_false (by decide) Bool.false_ne_true

/-! ### From the syntax to the markup -/

/-- The text starts by saying an alignment: `text-align:`, blanks, and one of three words. -/
def SaysAlignment (word : String) (s : List Char) : Prop :=
  word ∈ ["left", "right", "center"] ∧
    ∃ blanks rest : List Char, (∀ c ∈ blanks, Text.isBlank c = true) ∧
      s = "text-align:".toList ++ (blanks ++ (word.toList ++ rest))

/-- The style gives an alignment: it says it at the first place where it says one. -/
inductive GivesAlignment (word : String) : List Char → Prop
  | here {s : List Char} (h : SaysAlignment word s) : GivesAlignment word s
  | later {c : Char} {s : List Char} (hno : ∀ other : String, ¬SaysAlignment other (c :: s))
      (h : GivesAlignment word s) : GivesAlignment word (c :: s)

/-- The cell of a column in the first row of a table. -/
def headerCell? (s : Syntax) (i : Nat) : Option Syntax :=
  (s.children.flatMap Syntax.children).head?.bind fun row => row.children[i]?

/-- The text of a cell's style. -/
def styleText (cell : Syntax) : List Char :=
  ((cell.head.attrs.lookup "style").elim "" Json.plain).toList

/-- The alignment of a column is the one that the style of its cell in the first row gives, and there is
none if the style gives none or there is no such cell. -/
inductive ColumnAligned (s : Syntax) (i : Nat) : Option Json → Prop
  | given {cell : Syntax} {word : String} (hcell : headerCell? s i = some cell)
      (h : GivesAlignment word (styleText cell)) : ColumnAligned s i (some (.str word))
  | free (h : ∀ (cell : Syntax) (word : String), headerCell? s i = some cell →
      ¬GivesAlignment word (styleText cell)) : ColumnAligned s i none

theorem find?_alignmentWords_iff {s : List Char} {word : String} :
    ("text-align:".toList.isPrefixOf s = true ∧
      Generic.alignmentWords.find? (fun word => word.toList.isPrefixOf
        ((s.drop "text-align:".toList.length).dropWhile Text.isBlank)) = some word) ↔
      SaysAlignment word s := by
  constructor
  · rintro ⟨hkey, hword⟩
    obtain ⟨t, rfl⟩ := List.isPrefixOf_iff_prefix.mp hkey
    rw [List.drop_left] at hword
    have hfits := List.find?_some hword
    obtain ⟨rest, hrest⟩ := List.isPrefixOf_iff_prefix.mp hfits
    refine ⟨List.mem_of_find?_eq_some hword, t.takeWhile Text.isBlank, rest,
      fun c hc => List.mem_takeWhile_imp hc, ?_⟩
    rw [hrest, List.takeWhile_append_dropWhile]
  · rintro ⟨hmem, blanks, rest, hblanks, rfl⟩
    have hword : word = "left" ∨ word = "right" ∨ word = "center" := by simpa using hmem
    refine ⟨List.isPrefixOf_iff_prefix.mpr (List.prefix_append _ _), ?_⟩
    have hvalue : (blanks ++ (word.toList ++ rest)).dropWhile Text.isBlank = word.toList ++ rest := by
      -- none of the words starts with a blank
      refine dropWhile_append_of_head? hblanks ?_
      rcases hword with rfl | rfl | rfl <;> rfl
    -- no word starts another one, so the first that fits is the one that is there
    rw [List.drop_left, hvalue]
    rcases hword with rfl | rfl | rfl <;> rfl

theorem GivesAlignment.mem {word : String} {s : List Char} (h : GivesAlignment word s) :
    word ∈ ["left", "right", "center"] := by
  induction h with
  | here h => exact h.1
  | later _ _ ih => exact ih

theorem alignmentOf_cons_of_says {c : Char} {rest : List Char} {word : String}
    (h : SaysAlignment word (c :: rest)) : Generic.alignmentOf (c :: rest) = .str word := by
  obtain ⟨hkey, hword⟩ := find?_alignmentWords_iff.mpr h
  rw [Generic.alignmentOf]
  dsimp only
  rw [if_pos hkey, hword]

theorem alignmentOf_cons_of_not {c : Char} {rest : List Char}
    (h : ∀ word : String, ¬SaysAlignment word (c :: rest)) :
    Generic.alignmentOf (c :: rest) = Generic.alignmentOf rest := by
  rw [Generic.alignmentOf]
  dsimp only
  split
  · next hkey =>
    split
    · next word hword => exact absurd (find?_alignmentWords_iff.mp ⟨hkey, hword⟩) (h word)
    · rfl
  · rfl

/-- **What a style gives is found**, and nothing else is. -/
theorem alignmentOf_cases (style : List Char) :
    (∃ word : String, Generic.alignmentOf style = .str word ∧ GivesAlignment word style) ∨
      Generic.alignmentOf style = .null ∧ ∀ word : String, ¬GivesAlignment word style := by
  induction style with
  | nil =>
    refine .inr ⟨rfl, fun word h => ?_⟩
    cases h with
    | here h =>
      obtain ⟨-, blanks, rest, -, heq⟩ := h
      cases heq
  | cons c rest ih =>
    by_cases hsays : ∃ word : String, SaysAlignment word (c :: rest)
    · obtain ⟨word, h⟩ := hsays
      exact .inl ⟨word, alignmentOf_cons_of_says h, .here h⟩
    · have hno := not_exists.mp hsays
      rw [alignmentOf_cons_of_not hno]
      rcases ih with ⟨word, heq, h⟩ | ⟨heq, hnone⟩
      · exact .inl ⟨word, heq, .later hno h⟩
      · refine .inr ⟨heq, fun word h => ?_⟩
        cases h with
        | here h => exact hno word h
        | later _ h => exact hnone word h

/-- **The alignments of a table are those that the styles of its first row give.** -/
theorem columnAligned_tableAlignments (s : Syntax) (i : Nat) :
    ColumnAligned s i (alignmentAt (Generic.tableAlignments s.children) i) := by
  have hcell : (Generic.tableAlignments s.children)[i]? =
      (headerCell? s i).map Generic.cellAlignment := by
    rw [Generic.tableAlignments, headerCell?]
    cases (s.children.flatMap Syntax.children).head? with
    | none => rfl
    | some row => exact List.getElem?_map
  rw [alignmentAt, hcell]
  cases hc : headerCell? s i with
  | none => exact .free fun cell word h => by rw [hc] at h; cases h
  | some cell =>
    have hstyle : Generic.cellAlignment cell = Generic.alignmentOf (styleText cell) := by
      rw [Generic.cellAlignment, styleText]
      cases cell.head.attrs.lookup "style" <;> rfl
    rw [Option.map_some, hstyle]
    rcases alignmentOf_cases (styleText cell) with ⟨word, heq, h⟩ | ⟨heq, hnone⟩
    · have hword : (Json.str word).isEmpty = false := by
        have hwords : word = "left" ∨ word = "right" ∨ word = "center" := by simpa using h.mem
        rcases hwords with rfl | rfl | rfl <;> rfl
      rw [heq, Option.filter_some_pos (by rw [hword]; rfl)]
      exact .given hc h
    · rw [heq, Option.filter_some_neg (by decide)]
      refine .free fun other word h => ?_
      rw [hc] at h
      cases h
      exact hnone word

/-- A list or a table of a document, and its element: the items of a list that is spread have an element for
each paragraph, those of other lists have none, and a table has the rows and cells that it had, the cells
of a column with the alignment that the first row gives to it. -/
inductive FrameAsMarkup (ix : LineIndex) (s : Syntax) (e : Node) : Prop
  | list (n : Node) (spread : Bool) (hl : Generic.isList s.kind = true) (hn : Generic.block ix s = .ok n)
      (hs : n.prop? "spread" = some (.bool spread))
      (hm : IsListMarkup (s.kind = "ordered_list") spread (s.children.map Generic.paragraphPieces) e) :
      FrameAsMarkup ix s e
  | table (column : Nat → Option Json) (hk : s.kind = "table") (hc : ∀ i : Nat, ColumnAligned s i (column i))
      (hm : IsTableMarkup column
        ((s.children.flatMap Syntax.children).map fun row => row.children.length) e) :
      FrameAsMarkup ix s e

theorem isSet_of_bool {n : Node} {key : String} {b : Bool} (h : n.prop? key = some (.bool b)) :
    isSet n.head key = b := by
  have hlookup : n.head.props.lookup key = some (.bool b) := h
  rw [isSet, hlookup]
  cases b <;> rfl

theorem alignments_of_arr {n : Node} {aligns : List Json} (h : n.prop? "align" = some (.arr aligns)) :
    alignments n.head = .ok aligns := by
  have hlookup : n.head.props.lookup "align" = some (.arr aligns) := h
  rw [alignments, hlookup]
  cases aligns <;> rfl

theorem frameAsMarkup_of_frame {ix : LineIndex} {s : Syntax} {n m e : Node}
    (hn : Generic.block ix s = .ok n) (hsame : SameFrame n m) (he : FrameMarkup m e) :
    FrameAsMarkup ix s e := by
  have hkind : n.kind = m.kind := congrArg NodeHead.kind hsame.head
  cases he with
  | list hk hm =>
    obtain ⟨hl, hordered, hspread, hcounts⟩ := Generic.list_of_block hn (hkind.trans hk)
    rw [← hsame.head, ← hsame.paragraphs, hcounts, isSet_of_bool hordered, isSet_of_bool hspread] at hm
    exact .list n _ hl hn hspread hm
  | table aligns hk ha hm =>
    have htable : n.kind = "table" := hkind.trans hk
    obtain ⟨hs, halign, hcounts⟩ := Generic.table_of_block hn htable
    rw [← hsame.head, alignments_of_arr halign] at ha
    cases ha
    rw [← hsame.widths htable, hcounts] at hm
    exact .table _ hs (columnAligned_tableAlignments s) hm

theorem forall₂_comp {α β γ : Type} {R : α → β → Prop} {S : β → γ → Prop} {T : α → γ → Prop}
    (h : ∀ a b c, R a b → S b c → T a c) {as : List α} {bs : List β} {cs : List γ}
    (hR : List.Forall₂ R as bs) (hS : List.Forall₂ S bs cs) : List.Forall₂ T as cs := by
  induction hR generalizing cs with
  | nil =>
    cases hS
    exact .nil
  | cons hab _ ih =>
    cases hS with
    | cons hbc hrest => exact .cons (h _ _ _ hab hbc) (ih hrest)

theorem exists_sublist_of_forall₂ {α β : Type} {R : α → β → Prop} {as : List α} {bs bs' : List β}
    (h : List.Forall₂ R as bs) (hsub : bs'.Sublist bs) :
    ∃ as' : List α, as'.Sublist as ∧ List.Forall₂ R as' bs' := by
  induction hsub generalizing as with
  | slnil => exact ⟨[], List.nil_sublist as, .nil⟩
  | cons b _ ih =>
    cases h with
    | cons _ hrest =>
      obtain ⟨as', hsub, hall⟩ := ih hrest
      exact ⟨as', hsub.cons _, hall⟩
  | cons_cons b _ ih =>
    cases h with
    | @cons a _ _ _ hab hrest =>
      obtain ⟨as', hsub, hall⟩ := ih hrest
      exact ⟨a :: as', hsub.cons_cons a, .cons hab hall⟩

theorem ne_item_of_pieces {ix : LineIndex} {doc : Option Extended.Document} {nearest : Option Position}
    {pieces : List Syntax} {segs : List Segment} {parts : List (List Node)}
    (h : Generic.blocks ix pieces = .ok (segs.flatMap Segment.taken))
    (hparts : List.Forall₂ (Becomes doc nearest) segs parts) :
    ∀ c ∈ parts.flatten, c.kind ≠ "listItem" := by
  intro c hc
  rcases Extended.exists_of_mem_pieces hparts hc with hs | ⟨n, hn, hm⟩
  · exact (hs.inner c (mem_flattenStack_self List.mem_cons_self)).ne (by decide)
  · rw [Ne, hm.kind_iff "listItem" (by decide) (by decide)]
    exact Generic.ne_item_of_blocks h n hn

theorem structured_root (tree : Node) {cs ms : List Node} (h : Structured false cs ms) :
    (∀ x ∈ (rootFor tree ms).flatten, Placed x) ∧
      (rootFor tree ms).flatten.filter isFrameElement = select isFrameElement ms := by
  have hroot : tagOf (rootFor tree ms) = none := tagOf_eq_none (show "root" ≠ "element" by decide)
  constructor
  · refine everywhere_cons.mpr ⟨fun c hc => (h.items c hc).trans ?_, h.placed, everywhere_nil⟩
    rw [hroot]
    decide
  · have hframe : isFrameElement (rootFor tree ms) = false := by rw [isFrameElement, hroot]; decide
    show select isFrameElement [rootFor tree ms] = _
    rw [select_cons_of_neg hframe, select_nil, List.append_nil]
    rfl

/-- **The markup of a document is well structured.**

* The children of lists are items, and no other nodes are.
* The lists and tables of the markup are those of the document, in document order, but for those that gave
  way to statements; without statements, they are all there.  Each of them has the form of such an
  element. -/
theorem markup_is_well_structured (text : List Char) (source : Option (List Char)) (pieces : List Syntax)
    (tree ext out : Node) (htree : Generic.ofSyntax text pieces = .ok tree)
    (hext : Extended.ofGeneric source tree = .ok ext) (hout : ofExtended ext = .ok out) :
    (∀ x ∈ out.flatten, Placed x) ∧
      ∃ kept : List Syntax, kept.Sublist pieces ∧
        ((∀ c ∈ ext.children, ¬IsStatement c) → kept = pieces) ∧
        List.Forall₂ (FrameAsMarkup (.ofText text)) (Generic.framesOfBlocks kept)
          (out.flatten.filter isFrameElement) := by
  rw [Generic.ofSyntax] at htree
  obtain ⟨children, hblocks, htree⟩ := exists_ok_of_bind htree
  cases htree
  obtain ⟨segs, parts, htaken, hparts, heq⟩ := Extended.exists_segments hext
  have htaken : segs.flatMap Segment.taken = children := htaken
  have hbelow : ext.children = parts.flatten := congrArg Node.children heq
  subst htaken
  have hall := Generic.blocks_eq_ok_iff.mp hblocks
  obtain ⟨kept, hsub, hkept⟩ := exists_sublist_of_forall₂ hall (Extended.keeps_sublist segs)
  have hnested := Generic.nested_blocks kept (Generic.blocks_eq_ok_iff.mpr hkept)
  have hmatches := Extended.matches_of_pieces hparts hnested.formed
  obtain ⟨-, ms, hms, rfl, -⟩ := ofExtended_eq_ok_iff.mp hout
  rw [hbelow] at hms ⊢
  have hmaps : Maps .nodes parts.flatten ms := map_eq_ok_iff.mp hms
  have hstructured : Structured false parts.flatten ms := by
    refine hmaps.structured trivial hmatches.formed fun c hc => ?_
    exact iff_of_false (ne_item_of_pieces hblocks hparts c hc) Bool.false_ne_true
  obtain ⟨hplaced, hselect⟩ := structured_root ext hstructured
  refine ⟨hplaced, kept, hsub, fun hs => ?_, ?_⟩
  · have hkeeps := Extended.keeps_eq_taken hparts hs
    apply hsub.eq_of_length
    rw [hkept.length_eq, hkeeps, hall.length_eq]
  · rw [hselect]
    have hsecond : List.Forall₂ (fun n e => ∃ m : Node, SameFrame n m ∧ FrameMarkup m e)
        (select isFrame (segs.flatMap Segment.keeps)) (select isFrameElement ms) :=
      forall₂_comp (fun n m e hsame he => ⟨m, hsame, he⟩) hmatches.frames hstructured.frames
    refine forall₂_comp (fun s n e hn he => ?_) hnested.made hsecond
    obtain ⟨m, hsame, he⟩ := he
    exact frameAsMarkup_of_frame hn hsame he

/-- A block with some running text. -/
def blockOfText (head : Markdown.SyntaxHead) (content : String) : Syntax :=
  .node head [.node { kind := "inline" } [.node { kind := "text", content := content } []]]

/-- A quotation with a tight list, in which there is a spread list, and a table of two columns, one of which
has an alignment. -/
def quotedListsAndTable : List Syntax :=
  [.node { kind := "blockquote" }
    [.node { kind := "bullet_list" }
      [.node { kind := "list_item" }
        [blockOfText { kind := "paragraph", hidden := true } "a",
         .node { kind := "ordered_list" }
          [.node { kind := "list_item" }
            [blockOfText { kind := "paragraph" } "b", blockOfText { kind := "paragraph" } "c"]]]]],
   .node { kind := "table" }
    [.node { kind := "thead" }
      [.node { kind := "tr" }
        [blockOfText { kind := "th" } "d",
         blockOfText { kind := "th", attrs := [("style", .str "text-align:x;text-align: right")] } "e"]],
     .node { kind := "tbody" }
      [.node { kind := "tr" } [blockOfText { kind := "td" } "f", blockOfText { kind := "td" } "g"]]]]

/-- An element's tag, and its alignment as it is written. -/
def tagAndAlignment? (n : Node) : Option (String × Option String) :=
  (tagOf n).map fun tag => (tag, (attribute? n "align").map Json.write)

/-- The outer list has its paragraph unwrapped, the inner one has not, and the table has two sections, in
each of which the second cell is aligned. -/
theorem markup_is_well_structured_quoted :
    ∃ tree ext out : Node, Generic.ofSyntax [] quotedListsAndTable = .ok tree ∧
      Extended.ofGeneric none tree = .ok ext ∧ ofExtended ext = .ok out ∧
      out.flatten.filterMap tagAndAlignment? =
        [("blockquote", none), ("ul", none), ("li", none), ("ol", none), ("li", none), ("p", none),
         ("p", none), ("table", none), ("thead", none), ("tr", none), ("th", none),
         ("th", some "\"right\""), ("tbody", none), ("tr", none), ("td", none),
         ("td", some "\"right\"")] ∧
      (∀ x ∈ out.flatten, Placed x) ∧
      ∃ kept : List Syntax, kept.Sublist quotedListsAndTable ∧
        ((∀ c ∈ ext.children, ¬IsStatement c) → kept = quotedListsAndTable) ∧
        List.Forall₂ (FrameAsMarkup (.ofText [])) (Generic.framesOfBlocks kept)
          (out.flatten.filter isFrameElement) := by
  have htags : ((Generic.ofSyntax [] quotedListsAndTable).toOption.bind fun tree =>
      (Extended.ofGeneric none tree).toOption.bind fun ext =>
        (ofExtended ext).toOption.map fun out => out.flatten.filterMap tagAndAlignment?) =
      some [("blockquote", none), ("ul", none), ("li", none), ("ol", none), ("li", none), ("p", none),
        ("p", none), ("table", none), ("thead", none), ("tr", none), ("th", none),
        ("th", some "\"right\""), ("tbody", none), ("tr", none), ("td", none),
        ("td", some "\"right\"")] := by
    decide +kernel
  obtain ⟨tree, htree, htags⟩ := Option.bind_eq_some_iff.mp htags
  obtain ⟨ext, hext, htags⟩ := Option.bind_eq_some_iff.mp htags
  obtain ⟨out, hout, htags⟩ := Option.map_eq_some_iff.mp htags
  have htree := eq_ok_of_toOption htree
  have hext := eq_ok_of_toOption hext
  have hout := eq_ok_of_toOption hout
  exact ⟨tree, ext, out, htree, hext, hout, htags,
    markup_is_well_structured [] none quotedListsAndTable tree ext out htree hext hout⟩

end Mdx.Markup
